import TemplateAnalysis.Proofs.Ast.Expansion
import TemplateAnalysis.Proofs.Ast.Handles

/-!
# What a substitution depends on

The outcome of a substitution is decided by the arguments at the positions that
`parameterUses` lists. Two argument lists that agree there give the same tree, or none for
either, whatever else they hold and however long they are.
-/

namespace TemplateAnalysis

namespace Arguments

/-- Two argument lists bind the same at some positions, or bind nothing there. -/
def AgreesOn (args : Arguments) (uses : List Nat) (args' : Arguments) : Prop :=
  ∀ index ∈ uses, args[index]? = args'[index]?

variable {args args' : Arguments}

namespace AgreesOn

variable {xs ys : List Nat}

theorem left (h : args.AgreesOn (xs ++ ys) args') : args.AgreesOn xs args' :=
  (List.forall_mem_append.mp h).1

theorem right (h : args.AgreesOn (xs ++ ys) args') : args.AgreesOn ys args' :=
  (List.forall_mem_append.mp h).2

theorem narrow (h : args.AgreesOn xs args') (k slot : Nat) :
    (args.narrow k slot).AgreesOn xs (args'.narrow k slot) := by
  intro j hj
  rw [getElem?_narrow, getElem?_narrow, h j hj]
  by_cases hslot : j = slot
  · subst hslot
    rw [elementsAt?, elementsAt?, h j hj]
  · rw [if_neg hslot, if_neg hslot]

theorem withPackElement (h : args.AgreesOn xs args') (packs : List Nat) (k : Nat) :
    (args.withPackElement packs k).AgreesOn xs (args'.withPackElement packs k) := by
  unfold Arguments.withPackElement
  induction packs generalizing args args' with
  | nil => exact h
  | cons slot rest ih => exact ih (h.narrow k slot)

theorem lookup (h : args.AgreesOn xs args') {index : Nat} (hindex : index ∈ xs) (span : Span) :
    Agree (args.lookup index span) (args'.lookup index span) := by
  unfold Arguments.lookup
  rw [h index hindex]
  cases args'[index]? with
  -- The lengths that the errors report may differ.
  | none => exact .errors _ _
  | some argument => exact .refl _

theorem add (h : args.AgreesOn xs args') {index : Nat} (hindex : index ∈ xs) (span : Span)
    (selection : PackSelection) :
    Agree (selection.add args span index) (selection.add args' span index) :=
  (h.lookup hindex span).bind fun _ => .refl _

/-- The repetitions themselves differ where the argument lists do. What is made of them does
not, if it does not look there. -/
theorem repetitions {α : Type} {f g : Arguments → Except Diagnostic α}
    (h : args.AgreesOn xs args') (span : Span)
    (hfg : ∀ list list' : Arguments, list.AgreesOn xs list' → Agree (f list) (g list')) :
    Agree (args.repetitions xs span >>= fun lists => lists.mapM f)
      (args'.repetitions xs span >>= fun lists => lists.mapM g) := by
  unfold Arguments.repetitions
  rw [bind_assoc, bind_assoc]
  have hselect : Agree ((increasing xs).foldlM (PackSelection.add args span) ⟨[], none⟩)
      ((increasing xs).foldlM (PackSelection.add args' span) ⟨[], none⟩) :=
    .foldlM (fun selection index hindex => h.add (mem_increasing.mp hindex) span selection) _
  apply hselect.bind
  intro selection
  cases selection.count with
  | none => exact .errors _ _
  | some n =>
    change Agree (((List.range n).map _).mapM f) (((List.range n).map _).mapM g)
    rw [List.mapM_map, List.mapM_map]
    apply Agree.mapM
    intro k _
    exact hfg _ _ (h.withPackElement selection.packs k)

end AgreesOn

end Arguments

variable {args args' : Arguments}

/-! ### Lists with expansions -/

/-- What is substituted for a node, or for the pattern of an expansion, is decided by the
arguments that it mentions. -/
structure Node.IsDecided (node : Node) : Prop where
  substitute : ∀ {args args' : Arguments}, args.AgreesOn node.parameterUses args' →
    Agree (node.substitute args) (node.substitute args')
  pattern : ∀ {args args' : Arguments}, args.AgreesOn node.parameterUses args' →
    Agree (node.pattern.substitute args) (node.pattern.substitute args')

theorem Node.IsDecided.plain {node : Node} (hpattern : node.pattern = node)
    (h : ∀ {args args' : Arguments}, args.AgreesOn node.parameterUses args' →
      Agree (node.substitute args) (node.substitute args')) : node.IsDecided :=
  ⟨h, hpattern.symm ▸ h⟩

theorem agree_substituteArguments_cons {node : Node} {rest : List Node} (hnode : node.IsDecided)
    (h : args.AgreesOn node.parameterUses args')
    (hrest : Agree (substituteArguments args rest) (substituteArguments args' rest)) :
    Agree (substituteArguments args (node :: rest)) (substituteArguments args' (node :: rest)) := by
  by_cases hexpansion : ∃ pattern span, node = .packExpansion pattern span
  · obtain ⟨pattern, span, rfl⟩ := hexpansion
    rw [substituteArguments, substituteArguments, ← bind_assoc, ← bind_assoc]
    apply (h.repetitions span fun list list' hlists => hnode.pattern hlists).bind
    intro expanded
    exact hrest.bind fun others => .refl _
  · have hplain : ∀ pattern span, node = .packExpansion pattern span → False :=
      fun pattern span heq => hexpansion ⟨pattern, span, heq⟩
    rw [substituteArguments.eq_3 _ _ _ hplain, substituteArguments.eq_3 _ _ _ hplain]
    apply (hnode.substitute h).bind
    intro r
    exact hrest.bind fun others => .refl _

theorem agree_substituteBases_cons {base : BaseSpecifier} {rest : List BaseSpecifier}
    (hname : base.name.IsDecided) (h : args.AgreesOn base.name.parameterUses args')
    (hrest : Agree (substituteBases args rest) (substituteBases args' rest)) :
    Agree (substituteBases args (base :: rest)) (substituteBases args' (base :: rest)) := by
  obtain ⟨access, isVirtual, name, isExpansion, span⟩ := base
  cases isExpansion with
  | true =>
    change Agree (args.repetitions _ span >>= fun lists => lists.mapM name.substitute >>= _)
      (args'.repetitions _ span >>= fun lists => lists.mapM name.substitute >>= _)
    rw [← bind_assoc, ← bind_assoc]
    apply (h.repetitions span fun list list' hlists => hname.substitute hlists).bind
    intro names
    exact hrest.bind fun others => .refl _
  | false =>
    change Agree ([args].mapM name.substitute >>= _) ([args'].mapM name.substitute >>= _)
    rw [List.mapM_cons, List.mapM_cons]
    apply ((hname.substitute h).bind fun r => .refl _).bind
    intro names
    exact hrest.bind fun others => .refl _

/-! ### Trees -/

mutual

/-- Substitution into a node is decided by the arguments that the node mentions. -/
theorem Node.isDecided : ∀ node : Node, node.IsDecided
  | .literal _ _ | .name _ _ _ | .resolvedType _ _ _ => .plain rfl fun _ => .refl _
  | .typeParameter _ _ span | .valueParameter _ _ span => .plain rfl fun h =>
    (h.lookup (List.mem_singleton_self _) span).bind fun _ => .refl _
  | .unary _ operand _ => .plain rfl fun h =>
    (operand.isDecided.substitute h).bind fun _ => .refl _
  | .binary _ left right _ => .plain rfl fun h =>
    (left.isDecided.substitute h.left).bind fun _ =>
      (right.isDecided.substitute h.right).bind fun _ => .refl _
  | .conditional condition whenTrue whenFalse _ => .plain rfl fun h =>
    (condition.isDecided.substitute h.left.left).bind fun _ =>
      (whenTrue.isDecided.substitute h.left.right).bind fun _ =>
        (whenFalse.isDecided.substitute h.right).bind fun _ => .refl _
  | .paren inner _ => .plain rfl fun h =>
    (inner.isDecided.substitute h).bind fun _ => .refl _
  | .typeId specifiers declarator _ => .plain rfl fun h =>
    (specifiers.agree_substitute h.left).bind fun _ =>
      (agree_substituteParts declarator h.right).bind fun _ => .refl _
  | .templateId _ _ arguments _ => .plain rfl fun h =>
    (agree_substituteArguments arguments h).bind fun _ => .refl _
  | .packExpansion pattern _ => ⟨fun _ => .refl _, fun h => pattern.isDecided.substitute h⟩
  | .base specifier => .plain rfl fun h =>
    (specifier.agree_substitute h).bind fun _ => .refl _
  | .member declaration => .plain rfl fun h =>
    (declaration.agree_substitute h).bind fun _ => .refl _
  | .staticAssert assertion => .plain rfl fun h =>
    (assertion.agree_substitute h).bind fun _ => .refl _
  | .classBody specifier => .plain rfl fun h =>
    (specifier.agree_substitute h).bind fun _ => .refl _
termination_by structural x => x

theorem Specifiers.agree_substitute : ∀ (specifiers : Specifiers) {args args' : Arguments},
    args.AgreesOn specifiers.parameterUses args' →
    Agree (specifiers.substitute args) (specifiers.substitute args')
  | ⟨_, named⟩, _, _, h => (agree_substituteNode? named h).bind fun _ => .refl _
termination_by structural x => x

theorem agree_substituteNode? : ∀ (node : Option Node) {args args' : Arguments},
    args.AgreesOn (usesOfNode? node) args' →
    Agree (substituteNode? args node) (substituteNode? args' node)
  | none, _, _, _ => .refl _
  | some node, _, _, h => (node.isDecided.substitute h).bind fun _ => .refl _
termination_by structural x => x

theorem agree_substituteNodes : ∀ (nodes : List Node) {args args' : Arguments},
    args.AgreesOn (usesOfNodes nodes) args' →
    Agree (substituteNodes args nodes) (substituteNodes args' nodes)
  | [], _, _, _ => .refl _
  | node :: rest, _, _, h =>
    (node.isDecided.substitute h.left).bind fun _ =>
      (agree_substituteNodes rest h.right).bind fun _ => .refl _
termination_by structural x => x

theorem agree_substituteArguments : ∀ (nodes : List Node) {args args' : Arguments},
    args.AgreesOn (usesOfNodes nodes) args' →
    Agree (substituteArguments args nodes) (substituteArguments args' nodes)
  | [], _, _, _ => .refl _
  | node :: rest, _, _, h =>
    agree_substituteArguments_cons node.isDecided h.left (agree_substituteArguments rest h.right)
termination_by structural x => x

theorem DeclaratorPart.agree_substitute : ∀ (part : DeclaratorPart) {args args' : Arguments},
    args.AgreesOn part.parameterUses args' →
    Agree (part.substitute args) (part.substitute args')
  | .name _ _, _, _, _ | .pointer _ _, _, _, _ | .lvalueReference _, _, _, _
  | .rvalueReference _, _, _, _ => .refl _
  | .array bound _, _, _, h => (agree_substituteNode? bound h).bind fun _ => .refl _
  | .function parameters _ _ _, _, _, h =>
    (agree_substituteParameters parameters h).bind fun _ => .refl _
termination_by structural x => x

theorem agree_substituteParts : ∀ (parts : List DeclaratorPart) {args args' : Arguments},
    args.AgreesOn (usesOfParts parts) args' →
    Agree (substituteParts args parts) (substituteParts args' parts)
  | [], _, _, _ => .refl _
  | part :: rest, _, _, h =>
    (part.agree_substitute h.left).bind fun _ =>
      (agree_substituteParts rest h.right).bind fun _ => .refl _
termination_by structural x => x

theorem FunctionParameter.agree_substitute :
    ∀ (parameter : FunctionParameter) {args args' : Arguments},
    args.AgreesOn parameter.parameterUses args' →
    Agree (parameter.substitute args) (parameter.substitute args')
  | ⟨specifiers, declarator, initializer, _⟩, _, _, h =>
    (specifiers.agree_substitute h.left.left).bind fun _ =>
      (agree_substituteParts declarator h.left.right).bind fun _ =>
        (agree_substituteNode? initializer h.right).bind fun _ => .refl _
termination_by structural x => x

theorem agree_substituteParameters :
    ∀ (parameters : List FunctionParameter) {args args' : Arguments},
    args.AgreesOn (usesOfParameters parameters) args' →
    Agree (substituteParameters args parameters) (substituteParameters args' parameters)
  | [], _, _, _ => .refl _
  | parameter :: rest, _, _, h =>
    (parameter.agree_substitute h.left).bind fun _ =>
      (agree_substituteParameters rest h.right).bind fun _ => .refl _
termination_by structural x => x

theorem BaseSpecifier.agree_substitute : ∀ (base : BaseSpecifier) {args args' : Arguments},
    args.AgreesOn base.parameterUses args' →
    Agree (base.substitute args) (base.substitute args')
  | ⟨_, _, _, true, _⟩, _, _, _ => .refl _
  | ⟨_, _, name, false, _⟩, _, _, h => (name.isDecided.substitute h).bind fun _ => .refl _
termination_by structural x => x

theorem agree_substituteBases : ∀ (bases : List BaseSpecifier) {args args' : Arguments},
    args.AgreesOn (usesOfBases bases) args' →
    Agree (substituteBases args bases) (substituteBases args' bases)
  | [], _, _, _ => .refl _
  | ⟨_, _, name, _, _⟩ :: rest, _, _, h =>
    agree_substituteBases_cons name.isDecided h.left (agree_substituteBases rest h.right)
termination_by structural x => x

theorem Member.agree_substitute : ∀ (declaration : Member) {args args' : Arguments},
    args.AgreesOn declaration.parameterUses args' →
    Agree (declaration.substitute args) (declaration.substitute args')
  | ⟨_, specifiers, declarator, bitWidth, initializer, _⟩, _, _, h =>
    (specifiers.agree_substitute h.left.left.left).bind fun _ =>
      (agree_substituteParts declarator h.left.left.right).bind fun _ =>
        (agree_substituteNode? bitWidth h.left.right).bind fun _ =>
          (agree_substituteNode? initializer h.right).bind fun _ => .refl _
termination_by structural x => x

theorem StaticAssert.agree_substitute : ∀ (assertion : StaticAssert) {args args' : Arguments},
    args.AgreesOn assertion.parameterUses args' →
    Agree (assertion.substitute args) (assertion.substitute args')
  | ⟨condition, _, _⟩, _, _, h => (condition.isDecided.substitute h).bind fun _ => .refl _
termination_by structural x => x

theorem ClassSpecifier.agree_substitute :
    ∀ (specifier : ClassSpecifier) {args args' : Arguments},
    args.AgreesOn specifier.parameterUses args' →
    Agree (specifier.substitute args) (specifier.substitute args')
  | ⟨_, _, bases, members, _⟩, _, _, h =>
    (agree_substituteBases bases h.left).bind fun _ =>
      (agree_substituteNodes members h.right).bind fun _ => .refl _
termination_by structural x => x

end

/-! ### Any kind of tree -/

/-- Anything that arguments are substituted into. -/
inductive Tree where
  | node (root : Node)
  | specifiers (root : Specifiers)
  | declarator (parts : List DeclaratorPart)
  | parameter (root : FunctionParameter)
  | base (root : BaseSpecifier)
  | member (root : Member)
  | staticAssert (root : StaticAssert)
  | classBody (root : ClassSpecifier)

namespace Tree

def parameterUses : Tree → List Nat
  | .node root => root.parameterUses
  | .specifiers root => root.parameterUses
  | .declarator parts => usesOfParts parts
  | .parameter root => root.parameterUses
  | .base root => root.parameterUses
  | .member root => root.parameterUses
  | .staticAssert root => root.parameterUses
  | .classBody root => root.parameterUses

def substitute (args : Arguments) : Tree → Except Diagnostic Tree
  | .node root => return .node (← root.substitute args)
  | .specifiers root => return .specifiers (← root.substitute args)
  | .declarator parts => return .declarator (← substituteParts args parts)
  | .parameter root => return .parameter (← root.substitute args)
  | .base root => return .base (← root.substitute args)
  | .member root => return .member (← root.substitute args)
  | .staticAssert root => return .staticAssert (← root.substitute args)
  | .classBody root => return .classBody (← root.substitute args)

def expand (args : Arguments) (pattern : Tree) (span : Span) : Except Diagnostic (List Tree) := do
  let repetitions ← args.repetitions pattern.parameterUses span
  repetitions.mapM fun narrowed => pattern.substitute narrowed

theorem mapM_substitute_node (pattern : Node) (lists : List Arguments) :
    (lists.mapM fun narrowed => (Tree.node pattern).substitute narrowed) =
      (lists.mapM fun narrowed => pattern.substitute narrowed).map (·.map .node) := by
  induction lists with
  | nil => rfl
  | cons list rest ih =>
    rw [List.mapM_cons, List.mapM_cons, ih, substitute]
    cases pattern.substitute list with
    | error d => rfl
    | ok r => cases rest.mapM fun narrowed => pattern.substitute narrowed <;> rfl

/-- The expansion of a node is the one that substitution carries out. -/
theorem expand_node (args : Arguments) (pattern : Node) (span : Span) :
    (Tree.node pattern).expand args span = (pattern.expand args span).map (·.map .node) := by
  unfold expand Node.expand
  rw [parameterUses]
  cases args.repetitions pattern.parameterUses span with
  | error d => rfl
  | ok lists => exact mapM_substitute_node pattern lists

theorem agree_substitute (tree : Tree) (h : args.AgreesOn tree.parameterUses args') :
    Agree (tree.substitute args) (tree.substitute args') := by
  cases tree with
  | node root => exact (root.isDecided.substitute h).bind fun _ => .refl _
  | specifiers root => exact (root.agree_substitute h).bind fun _ => .refl _
  | declarator parts => exact (agree_substituteParts parts h).bind fun _ => .refl _
  | parameter root => exact (root.agree_substitute h).bind fun _ => .refl _
  | base root => exact (root.agree_substitute h).bind fun _ => .refl _
  | member root => exact (root.agree_substitute h).bind fun _ => .refl _
  | staticAssert root => exact (root.agree_substitute h).bind fun _ => .refl _
  | classBody root => exact (root.agree_substitute h).bind fun _ => .refl _

/-- Arguments that agree at every position that a tree mentions give the same tree, or none
for either, and the same repetitions of the tree, or none for either. -/
theorem agree_of_parameterUses (tree : Tree) (args args' : Arguments)
    (h : ∀ index ∈ tree.parameterUses, args[index]? = args'[index]?) :
    (∀ result, tree.substitute args = .ok result ↔ tree.substitute args' = .ok result) ∧
    ∀ span results, tree.expand args span = .ok results ↔ tree.expand args' span = .ok results := by
  have hagree : args.AgreesOn tree.parameterUses args' := h
  refine ⟨tree.agree_substitute hagree, fun span => ?_⟩
  exact hagree.repetitions span fun list list' hlists => tree.agree_substitute hlists

/-- The members `Box<Ns...> a[N];` of two instances with `N = 3` and the pack `1, 2`. A third
parameter, which the member does not mention, is bound in one of them only. -/
theorem agree_of_parameterUses_member :
    let member (arguments : List Node) (bound : Node) : Tree :=
      .member ⟨.publicly, ⟨.empty, some (.templateId ⟨0⟩ "Box" arguments .synthesized)⟩,
        [.name "a" .synthesized, .array (some bound) .synthesized], none, none, .synthesized⟩
    let int (n : Int64) : Node := .literal (.int n) .synthesized
    let pattern := member [.packExpansion (.valueParameter "Ns" 1 .synthesized) .synthesized]
      (.valueParameter "N" 0 .synthesized)
    let short : Arguments := [.value (.int 3), .pack .nonType [.value (.int 1), .value (.int 2)]]
    let long := short ++ [.type ⟨0⟩ "int"]
    (∀ index ∈ pattern.parameterUses, short[index]? = long[index]?) ∧
      pattern.substitute long = .ok (member [int 1, int 2] (int 3)) := by
  intro member int pattern short long
  have hagree : ∀ index ∈ pattern.parameterUses, short[index]? = long[index]? := by
    intro index hindex
    have hindex : index ∈ [1, 0] := hindex
    rcases List.mem_pair.mp hindex with rfl | rfl <;> rfl
  refine ⟨hagree, ?_⟩
  exact ((agree_of_parameterUses pattern short long hagree).1 _).mp rfl

end Tree

end TemplateAnalysis
