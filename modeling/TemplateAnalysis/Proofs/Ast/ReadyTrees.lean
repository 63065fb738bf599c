import TemplateAnalysis.Proofs.Ast.Expansion
import TemplateAnalysis.Proofs.Ast.Nodes

/-!
# Ready trees

Where no name of a tree is bound to a pack, there is nothing that an expansion could be
repeated for. Substitution then succeeds exactly if the tree is ready for the arguments:
every name is bound to an argument of its kind, and nothing in the tree has to be expanded.
-/

namespace TemplateAnalysis

/-! ### What substitution asks of a tree -/

/-- Whether a node has to be repeated by the list that it stands in. -/
def Node.isRepeated : Node → Bool
  | packExpansion _ _ => true
  | base specifier => specifier.isExpansion
  | _ => false

/-- Whether a node may stand in a tree that is substituted with some arguments and repeated
for none of them. -/
structure Node.IsReady (args : Arguments) (node : Node) : Prop where
  isRepeated : node.isRepeated = false
  type : ∀ index, node.parameter? = some (.type, index) →
    ∃ id text, args[index]? = some (.type id text)
  value : ∀ index, node.parameter? = some (.nonType, index) →
    ∃ value, args[index]? = some (.value value)

def Arguments.HasNoPack (args : Arguments) (uses : List Nat) : Prop :=
  ∀ slot ∈ uses, args.elementsAt? slot = none

namespace Arguments.HasNoPack

variable {args : Arguments} {xs ys : List Nat}

theorem left (h : args.HasNoPack (xs ++ ys)) : args.HasNoPack xs := (List.forall_mem_append.mp h).1

theorem right (h : args.HasNoPack (xs ++ ys)) : args.HasNoPack ys :=
  (List.forall_mem_append.mp h).2

theorem not_succeeds_repetitions (h : args.HasNoPack xs) (span : Span) :
    ¬ Succeeds (args.repetitions xs span) := by
  rintro ⟨lists, hlists⟩
  obtain ⟨slot, hslot, hpack⟩ := (repeats_of_repetitions hlists).usesPack
  rw [h slot hslot] at hpack
  cases hpack

end Arguments.HasNoPack

/-- A computation succeeds exactly if some nodes are all ready. -/
def Asks {α : Type} (args : Arguments) (x : Except Diagnostic α) (nodes : List Node) : Prop :=
  Succeeds x ↔ ∀ node ∈ nodes, node.IsReady args

namespace Asks

variable {α β : Type} {args : Arguments} {x : Except Diagnostic α} {f : α → Except Diagnostic β}
  {node : Node} {xs ys zs : List Node}

theorem ok (a : α) : Asks args (.ok a) [] := iff_of_true (.ok a) nofun

theorem bind (hx : Asks args x xs) (hf : ∀ a, Asks args (f a) ys) :
    Asks args (x >>= f) (xs ++ ys) := by
  rw [Asks, List.forall_mem_append]
  constructor
  · rintro ⟨b, hb⟩
    obtain ⟨a, ha, hb⟩ := bind_eq_ok.mp hb
    exact ⟨hx.mp ⟨a, ha⟩, (hf a).mp ⟨b, hb⟩⟩
  · rintro ⟨hxs, hys⟩
    exact (hx.mpr hxs).bind fun a _ => (hf a).mpr hys

theorem last (hx : Asks args x xs) (g : α → β) : Asks args (x >>= fun a => pure (g a)) xs := by
  have h : Asks args _ (xs ++ []) := hx.bind fun a => .ok (g a)
  rwa [List.append_nil] at h

theorem cons (hnode : node.IsReady args) (hx : Asks args x xs) : Asks args x (node :: xs) := by
  rw [Asks, List.forall_mem_cons]
  exact hx.trans (and_iff_right hnode).symm

theorem assoc (h : Asks args x (xs ++ (ys ++ zs))) : Asks args x (xs ++ ys ++ zs) := by
  rwa [List.append_assoc]

theorem refuse (hx : ¬ Succeeds x) (hmem : node ∈ xs) (hnode : ¬ node.IsReady args) :
    Asks args x xs :=
  iff_of_false hx fun h => hnode (h node hmem)

end Asks

variable {args : Arguments}

theorem not_succeeds_error {α : Type} (d : Diagnostic) :
    ¬ Succeeds (.error d : Except Diagnostic α) :=
  nofun

theorem not_succeeds_bind {α β : Type} {x : Except Diagnostic α} (hx : ¬ Succeeds x)
    (f : α → Except Diagnostic β) : ¬ Succeeds (x >>= f) := by
  rintro ⟨b, hb⟩
  obtain ⟨a, ha, -⟩ := bind_eq_ok.mp hb
  exact hx ⟨a, ha⟩

namespace Node.IsReady

theorem plain {node : Node} (hrepeated : node.isRepeated = false)
    (hparameter : node.parameter? = none) : node.IsReady args :=
  ⟨hrepeated, fun _ h => by simp [hparameter] at h, fun _ h => by simp [hparameter] at h⟩

theorem typeParameter_iff {text : String} {index : Nat} {span : Span} :
    (Node.typeParameter text index span).IsReady args ↔
      ∃ id shown, args[index]? = some (.type id shown) := by
  constructor
  · exact fun h => h.type index rfl
  · rintro ⟨id, shown, h⟩
    exact ⟨rfl, by rintro _ ⟨⟩; exact ⟨id, shown, h⟩, nofun⟩

theorem valueParameter_iff {text : String} {index : Nat} {span : Span} :
    (Node.valueParameter text index span).IsReady args ↔
      ∃ value, args[index]? = some (.value value) := by
  constructor
  · exact fun h => h.value index rfl
  · rintro ⟨value, h⟩
    exact ⟨rfl, nofun, by rintro _ ⟨⟩; exact ⟨value, h⟩⟩

end Node.IsReady

theorem asks_typeParameter (args : Arguments) (text : String) (index : Nat) (span : Span) :
    Asks args ((Node.typeParameter text index span).substitute args)
      [.typeParameter text index span] := by
  rw [Asks, List.forall_mem_singleton, Node.IsReady.typeParameter_iff, Node.substitute,
    Arguments.lookup]
  cases args[index]? with
  | none => exact iff_of_false (not_succeeds_error _) (by simp)
  | some x =>
    cases x with
    | type id shown => exact iff_of_true (.ok _) ⟨id, shown, rfl⟩
    | value value => exact iff_of_false (not_succeeds_error _) (by simp)
    | pack kind elements => exact iff_of_false (not_succeeds_error _) (by simp)

theorem asks_valueParameter (args : Arguments) (text : String) (index : Nat) (span : Span) :
    Asks args ((Node.valueParameter text index span).substitute args)
      [.valueParameter text index span] := by
  rw [Asks, List.forall_mem_singleton, Node.IsReady.valueParameter_iff, Node.substitute,
    Arguments.lookup]
  cases args[index]? with
  | none => exact iff_of_false (not_succeeds_error _) (by simp)
  | some x =>
    cases x with
    | type id shown => exact iff_of_false (not_succeeds_error _) (by simp)
    | value value => exact iff_of_true (.ok _) ⟨value, rfl⟩
    | pack kind elements => exact iff_of_false (not_succeeds_error _) (by simp)

theorem asks_substituteArguments_cons {node : Node} {rest : List Node}
    (h : args.HasNoPack node.parameterUses) (hnode : Asks args (node.substitute args) node.nodes)
    (hrest : Asks args (substituteArguments args rest) (nodesOfNodes rest)) :
    Asks args (substituteArguments args (node :: rest)) (nodesOfNodes (node :: rest)) := by
  by_cases hexpansion : ∃ pattern span, node = .packExpansion pattern span
  · obtain ⟨pattern, span, rfl⟩ := hexpansion
    rw [substituteArguments]
    apply Asks.refuse (not_succeeds_bind (h.not_succeeds_repetitions span) _)
      (List.mem_append_left _ List.mem_cons_self)
    intro hready
    cases hready.isRepeated
  · rw [substituteArguments]
    · exact hnode.bind fun r => hrest.last fun others => r :: others
    · exact fun pattern span heq => hexpansion ⟨pattern, span, heq⟩

theorem asks_substituteBases_cons {base : BaseSpecifier} {rest : List BaseSpecifier}
    (h : args.HasNoPack base.name.parameterUses)
    (hname : Asks args (base.name.substitute args) base.name.nodes)
    (hrest : Asks args (substituteBases args rest) (nodesOfBases rest)) :
    Asks args (substituteBases args (base :: rest)) (nodesOfBases (base :: rest)) := by
  obtain ⟨access, isVirtual, name, isExpansion, span⟩ := base
  cases isExpansion with
  | true =>
    apply Asks.refuse (not_succeeds_bind (h.not_succeeds_repetitions span) _)
      (List.mem_append_left _ List.mem_cons_self)
    intro hready
    cases hready.isRepeated
  | false =>
    change Asks args ([args].mapM name.substitute >>= _)
      (.base _ :: name.nodes ++ nodesOfBases rest)
    rw [List.mapM_cons, List.cons_append]
    apply Asks.cons (.plain rfl rfl)
    exact (hname.last fun r => [r]).bind fun names => hrest.last _

mutual

/-- Where no name of a node is bound to a pack, substitution asks of the node that it is
ready. -/
theorem Node.asks_substitute : ∀ node : Node, args.HasNoPack node.parameterUses →
    Asks args (node.substitute args) node.nodes
  | .literal _ _, _ | .name _ _ _, _ | .resolvedType _ _ _, _ => .cons (.plain rfl rfl) (.ok _)
  | .typeParameter text index span, _ => asks_typeParameter args text index span
  | .valueParameter text index span, _ => asks_valueParameter args text index span
  | .unary _ operand _, h => .cons (.plain rfl rfl) ((operand.asks_substitute h).last _)
  | .binary _ left right _, h => .cons (.plain rfl rfl)
    ((left.asks_substitute h.left).bind fun _ => (right.asks_substitute h.right).last _)
  | .conditional condition whenTrue whenFalse _, h => .cons (.plain rfl rfl) (.assoc
    ((condition.asks_substitute h.left.left).bind fun _ =>
      (whenTrue.asks_substitute h.left.right).bind fun _ =>
        (whenFalse.asks_substitute h.right).last _))
  | .paren inner _, h => .cons (.plain rfl rfl) ((inner.asks_substitute h).last _)
  | .typeId specifiers declarator _, h => .cons (.plain rfl rfl)
    ((specifiers.asks_substitute h.left).bind fun _ =>
      (asks_substituteParts declarator h.right).last _)
  | .templateId _ _ arguments _, h => .cons (.plain rfl rfl)
    ((asks_substituteArguments arguments h).last _)
  | .packExpansion _ _, _ =>
    .refuse (not_succeeds_error _) List.mem_cons_self fun h => nomatch h.isRepeated
  | .base specifier, h => (specifier.asks_substitute h).last _
  | .member declaration, h => .cons (.plain rfl rfl) ((declaration.asks_substitute h).last _)
  | .staticAssert assertion, h => .cons (.plain rfl rfl) ((assertion.asks_substitute h).last _)
  | .classBody specifier, h => .cons (.plain rfl rfl) ((specifier.asks_substitute h).last _)
termination_by structural x => x

theorem Specifiers.asks_substitute : ∀ specifiers : Specifiers,
    args.HasNoPack specifiers.parameterUses →
    Asks args (specifiers.substitute args) specifiers.inner
  | ⟨_, named⟩, h => (asks_substituteNode? named h).last _
termination_by structural x => x

theorem asks_substituteNode? : ∀ node : Option Node, args.HasNoPack (usesOfNode? node) →
    Asks args (substituteNode? args node) (nodesOfNode? node)
  | none, _ => .ok _
  | some node, h => (node.asks_substitute h).last _
termination_by structural x => x

theorem asks_substituteNodes : ∀ nodes : List Node, args.HasNoPack (usesOfNodes nodes) →
    Asks args (substituteNodes args nodes) (nodesOfNodes nodes)
  | [], _ => .ok _
  | node :: rest, h =>
    (node.asks_substitute h.left).bind fun _ => (asks_substituteNodes rest h.right).last _
termination_by structural x => x

theorem asks_substituteArguments : ∀ nodes : List Node, args.HasNoPack (usesOfNodes nodes) →
    Asks args (substituteArguments args nodes) (nodesOfNodes nodes)
  | [], _ => .ok _
  | node :: rest, h =>
    asks_substituteArguments_cons h.left (node.asks_substitute h.left)
      (asks_substituteArguments rest h.right)
termination_by structural x => x

theorem DeclaratorPart.asks_substitute : ∀ part : DeclaratorPart,
    args.HasNoPack part.parameterUses → Asks args (part.substitute args) part.inner
  | .name _ _, _ | .pointer _ _, _ | .lvalueReference _, _ | .rvalueReference _, _ => .ok _
  | .array bound _, h => (asks_substituteNode? bound h).last _
  | .function parameters _ _ _, h => (asks_substituteParameters parameters h).last _
termination_by structural x => x

theorem asks_substituteParts : ∀ parts : List DeclaratorPart, args.HasNoPack (usesOfParts parts) →
    Asks args (substituteParts args parts) (nodesOfParts parts)
  | [], _ => .ok _
  | part :: rest, h =>
    (part.asks_substitute h.left).bind fun _ => (asks_substituteParts rest h.right).last _
termination_by structural x => x

theorem FunctionParameter.asks_substitute : ∀ parameter : FunctionParameter,
    args.HasNoPack parameter.parameterUses → Asks args (parameter.substitute args) parameter.inner
  | ⟨specifiers, declarator, initializer, _⟩, h => .assoc
    ((specifiers.asks_substitute h.left.left).bind fun _ =>
      (asks_substituteParts declarator h.left.right).bind fun _ =>
        (asks_substituteNode? initializer h.right).last _)
termination_by structural x => x

theorem asks_substituteParameters : ∀ parameters : List FunctionParameter,
    args.HasNoPack (usesOfParameters parameters) →
    Asks args (substituteParameters args parameters) (nodesOfParameters parameters)
  | [], _ => .ok _
  | parameter :: rest, h =>
    (parameter.asks_substitute h.left).bind fun _ => (asks_substituteParameters rest h.right).last _
termination_by structural x => x

theorem BaseSpecifier.asks_substitute : ∀ base : BaseSpecifier,
    args.HasNoPack base.parameterUses → Asks args (base.substitute args) (Node.base base).nodes
  | ⟨_, _, _, true, _⟩, _ =>
    .refuse (not_succeeds_error _) List.mem_cons_self fun h => nomatch h.isRepeated
  | ⟨_, _, name, false, _⟩, h => .cons (.plain rfl rfl) ((name.asks_substitute h).last _)
termination_by structural x => x

theorem asks_substituteBases : ∀ bases : List BaseSpecifier,
    args.HasNoPack (usesOfBases bases) → Asks args (substituteBases args bases) (nodesOfBases bases)
  | [], _ => .ok _
  | ⟨_, _, name, _, _⟩ :: rest, h =>
    asks_substituteBases_cons h.left (name.asks_substitute h.left)
      (asks_substituteBases rest h.right)
termination_by structural x => x

theorem Member.asks_substitute : ∀ declaration : Member,
    args.HasNoPack declaration.parameterUses →
    Asks args (declaration.substitute args) declaration.inner
  | ⟨_, specifiers, declarator, bitWidth, initializer, _⟩, h => .assoc (.assoc
    ((specifiers.asks_substitute h.left.left.left).bind fun _ =>
      (asks_substituteParts declarator h.left.left.right).bind fun _ =>
        (asks_substituteNode? bitWidth h.left.right).bind fun _ =>
          (asks_substituteNode? initializer h.right).last _))
termination_by structural x => x

theorem StaticAssert.asks_substitute : ∀ assertion : StaticAssert,
    args.HasNoPack assertion.parameterUses →
    Asks args (assertion.substitute args) assertion.inner
  | ⟨condition, _, _⟩, h => (condition.asks_substitute h).last _
termination_by structural x => x

theorem ClassSpecifier.asks_substitute : ∀ specifier : ClassSpecifier,
    args.HasNoPack specifier.parameterUses →
    Asks args (specifier.substitute args) specifier.inner
  | ⟨_, _, bases, members, _⟩, h =>
    (asks_substituteBases bases h.left).bind fun _ =>
      (asks_substituteNodes members h.right).last _
termination_by structural x => x

end

end TemplateAnalysis
