import TemplateAnalysis.Ast.Substitution
import TemplateAnalysis.Proofs.Outcome
import TemplateAnalysis.Template.Parameter

/-!
# Handles in trees

The symbols and types that a tree refers to by number. A tree with its template
parameters replaced refers to nothing but what the tree and the arguments refer to.
-/

namespace TemplateAnalysis

/-- A reference to something that a session has created. -/
inductive Handle where
  | symbol (id : SymbolId)
  | type (id : TypeId)
deriving DecidableEq

mutual

def Node.handles : Node → List Handle
  | .literal _ _ | .typeParameter _ _ _ | .valueParameter _ _ _ => []
  | .name _ symbol _ => [.symbol symbol]
  | .resolvedType type _ _ => [.type type]
  | .unary _ operand _ => operand.handles
  | .binary _ left right _ => left.handles ++ right.handles
  | .conditional condition whenTrue whenFalse _ =>
    condition.handles ++ whenTrue.handles ++ whenFalse.handles
  | .paren inner _ => inner.handles
  | .typeId specifiers declarator _ => specifiers.handles ++ handlesOfParts declarator
  | .templateId template _ arguments _ => .symbol template :: handlesOfNodes arguments
  | .packExpansion pattern _ => pattern.handles
  | .base specifier => specifier.handles
  | .member declaration => declaration.handles
  | .staticAssert assertion => assertion.handles
  | .classBody specifier => specifier.handles

def Specifiers.handles : Specifiers → List Handle
  | ⟨_, named⟩ => handlesOfNode? named

def handlesOfNode? : Option Node → List Handle
  | none => []
  | some node => node.handles

def handlesOfNodes : List Node → List Handle
  | [] => []
  | node :: rest => node.handles ++ handlesOfNodes rest

def DeclaratorPart.handles : DeclaratorPart → List Handle
  | .array bound _ => handlesOfNode? bound
  | .function parameters _ _ _ => handlesOfParameters parameters
  | _ => []

def handlesOfParts : List DeclaratorPart → List Handle
  | [] => []
  | part :: rest => part.handles ++ handlesOfParts rest

def FunctionParameter.handles : FunctionParameter → List Handle
  | ⟨specifiers, declarator, initializer, _⟩ =>
    specifiers.handles ++ handlesOfParts declarator ++ handlesOfNode? initializer

def handlesOfParameters : List FunctionParameter → List Handle
  | [] => []
  | parameter :: rest => parameter.handles ++ handlesOfParameters rest

def BaseSpecifier.handles : BaseSpecifier → List Handle
  | ⟨_, _, name, _, _⟩ => name.handles

def handlesOfBases : List BaseSpecifier → List Handle
  | [] => []
  | base :: rest => base.handles ++ handlesOfBases rest

def Member.handles : Member → List Handle
  | ⟨_, specifiers, declarator, bitWidth, initializer, _⟩ =>
    specifiers.handles ++ handlesOfParts declarator ++ handlesOfNode? bitWidth ++
      handlesOfNode? initializer

def StaticAssert.handles : StaticAssert → List Handle
  | ⟨condition, _, _⟩ => condition.handles

def ClassSpecifier.handles : ClassSpecifier → List Handle
  | ⟨_, _, bases, members, _⟩ => handlesOfBases bases ++ handlesOfNodes members

end

mutual

def TemplateArgument.handles : TemplateArgument → List Handle
  | .type id _ => [.type id]
  | .value _ => []
  | .pack _ elements => handlesOfArguments elements

def handlesOfArguments : List TemplateArgument → List Handle
  | [] => []
  | argument :: rest => argument.handles ++ handlesOfArguments rest

end

theorem mem_handlesOfNodes {h : Handle} {nodes : List Node} :
    h ∈ handlesOfNodes nodes ↔ ∃ node ∈ nodes, h ∈ node.handles := by
  induction nodes with
  | nil => simp [handlesOfNodes]
  | cons node rest ih => simp [handlesOfNodes, ih]

theorem mem_handlesOfBases {h : Handle} {bases : List BaseSpecifier} :
    h ∈ handlesOfBases bases ↔ ∃ base ∈ bases, h ∈ base.handles := by
  induction bases with
  | nil => simp [handlesOfBases]
  | cons base rest ih => simp [handlesOfBases, ih]

theorem mem_handlesOfArguments {h : Handle} {args : Arguments} :
    h ∈ handlesOfArguments args ↔ ∃ argument ∈ args, h ∈ argument.handles := by
  induction args with
  | nil => simp [handlesOfArguments]
  | cons argument rest ih => simp [handlesOfArguments, ih]

/-- The handles in a template parameter are those of its default. -/
def TemplateParameter.handles (p : TemplateParameter) : List Handle :=
  handlesOfNode? p.defaultArgument

/-! ### Substitution -/

section Substitution

variable {known : Handle → Prop}

abbrev AllKnown (known : Handle → Prop) (handles : List Handle) : Prop := ∀ h ∈ handles, known h

theorem AllKnown.append {xs ys : List Handle} (hx : AllKnown known xs) (hy : AllKnown known ys) :
    AllKnown known (xs ++ ys) := List.forall_mem_append.mpr ⟨hx, hy⟩

theorem AllKnown.left {xs ys : List Handle} (h : AllKnown known (xs ++ ys)) :
    AllKnown known xs := (List.forall_mem_append.mp h).1

theorem AllKnown.right {xs ys : List Handle} (h : AllKnown known (xs ++ ys)) :
    AllKnown known ys := (List.forall_mem_append.mp h).2

theorem AllKnown.cons {x : Handle} {xs : List Handle} (hxs : AllKnown known xs) (hx : known x) :
    AllKnown known (x :: xs) := List.forall_mem_cons.mpr ⟨hx, hxs⟩

theorem AllKnown.head {x : Handle} {xs : List Handle} (h : AllKnown known (x :: xs)) : known x :=
  (List.forall_mem_cons.mp h).1

theorem AllKnown.tail {x : Handle} {xs : List Handle} (h : AllKnown known (x :: xs)) :
    AllKnown known xs := (List.forall_mem_cons.mp h).2

theorem AllKnown.nil : AllKnown known [] := fun _ h => by cases h

theorem handles_lookup {args : Arguments} (hargs : AllKnown known (handlesOfArguments args))
    (index : Nat) (span : Span) :
    Yields (args.lookup index span) fun argument => AllKnown known argument.handles := by
  unfold Arguments.lookup
  split
  · rename_i argument hfound
    exact Yields.ok fun h hh => hargs h
      (mem_handlesOfArguments.mpr ⟨argument, List.mem_of_getElem? hfound, hh⟩)
  · exact Yields.error _

theorem handles_narrow {args : Arguments} (hargs : AllKnown known (handlesOfArguments args))
    (element slot : Nat) : AllKnown known (handlesOfArguments (args.narrow element slot)) := by
  unfold Arguments.narrow
  split
  · rename_i argument hargument
    obtain ⟨elements, hpack, helement⟩ := Option.bind_eq_some_iff.mp hargument
    obtain ⟨pack, hslot, helements⟩ := Option.bind_eq_some_iff.mp hpack
    intro h hh
    obtain ⟨a, ha, hha⟩ := mem_handlesOfArguments.mp hh
    rcases List.mem_or_eq_of_mem_set ha with ha | rfl
    · exact hargs h (mem_handlesOfArguments.mpr ⟨a, ha, hha⟩)
    · -- The element stands in a pack, and the pack among the arguments.
      refine hargs h (mem_handlesOfArguments.mpr ⟨pack, List.mem_of_getElem? hslot, ?_⟩)
      cases pack with
      | pack kind own =>
        cases helements
        exact mem_handlesOfArguments.mpr ⟨_, List.mem_of_getElem? helement, hha⟩
      | type _ _ | value _ => cases helements
  · exact hargs

theorem handles_withPackElement {args : Arguments}
    (hargs : AllKnown known (handlesOfArguments args)) (packs : List Nat) (element : Nat) :
    AllKnown known (handlesOfArguments (args.withPackElement packs element)) := by
  unfold Arguments.withPackElement
  induction packs generalizing args with
  | nil => exact hargs
  | cons slot rest ih => exact ih (handles_narrow hargs element slot)

theorem handles_repetitions {args : Arguments} (hargs : AllKnown known (handlesOfArguments args))
    (uses : List Nat) (span : Span) :
    Yields (args.repetitions uses span) fun repetitions =>
      ∀ narrowed ∈ repetitions, AllKnown known (handlesOfArguments narrowed) := by
  unfold Arguments.repetitions
  refine Yields.bind (Yields.any _) fun selection _ => ?_
  split
  · exact Yields.error _
  · refine Yields.ok fun narrowed hnarrowed => ?_
    obtain ⟨element, _, rfl⟩ := List.mem_map.mp hnarrowed
    exact handles_withPackElement hargs selection.packs element

theorem handlesOfNodes_append (xs ys : List Node) :
    handlesOfNodes (xs ++ ys) = handlesOfNodes xs ++ handlesOfNodes ys := by
  induction xs with
  | nil => rfl
  | cons x xs ih => rw [List.cons_append, handlesOfNodes, handlesOfNodes, ih, List.append_assoc]

theorem handlesOfBases_append (xs ys : List BaseSpecifier) :
    handlesOfBases (xs ++ ys) = handlesOfBases xs ++ handlesOfBases ys := by
  induction xs with
  | nil => rfl
  | cons x xs ih => rw [List.cons_append, handlesOfBases, handlesOfBases, ih, List.append_assoc]

/-- What is substituted for a node of an argument list: of an expansion the pattern. -/
def Node.pattern : Node → Node
  | .packExpansion pattern _ => pattern
  | node => node

/-- Substitution in a node, and in its pattern, gives known handles for known handles. -/
structure Node.Sound (known : Handle → Prop) (node : Node) : Prop where
  yields : ∀ args, AllKnown known (handlesOfArguments args) → AllKnown known node.handles →
    Yields (node.substitute args) fun result => AllKnown known result.handles
  expands : ∀ args, AllKnown known (handlesOfArguments args) → AllKnown known node.handles →
    Yields (node.pattern.substitute args) fun result => AllKnown known result.handles

theorem Node.Sound.plain {node : Node} (hpattern : node.pattern = node)
    (h : ∀ args, AllKnown known (handlesOfArguments args) → AllKnown known node.handles →
      Yields (node.substitute args) fun result => AllKnown known result.handles) :
    node.Sound known :=
  ⟨h, hpattern.symm ▸ h⟩

theorem handles_substituteArguments_cons {args : Arguments}
    (hargs : AllKnown known (handlesOfArguments args)) {node : Node} {rest : List Node}
    (hnode : node.Sound known)
    (hrest : Yields (substituteArguments args rest) fun result =>
      AllKnown known (handlesOfNodes result))
    (h : AllKnown known node.handles) :
    Yields (substituteArguments args (node :: rest)) fun result =>
      AllKnown known (handlesOfNodes result) := by
  by_cases hexpansion : ∃ pattern span, node = .packExpansion pattern span
  · obtain ⟨pattern, span, rfl⟩ := hexpansion
    rw [substituteArguments]
    refine (handles_repetitions hargs _ span).bind fun repetitions hrepetitions => ?_
    refine (Yields.mapM fun narrowed hnarrowed =>
      hnode.expands narrowed (hrepetitions narrowed hnarrowed) h).bind fun xs hxs => ?_
    refine hrest.bind fun ys hys => Yields.pure ?_
    rw [handlesOfNodes_append]
    refine AllKnown.append (fun h hh => ?_) hys
    obtain ⟨x, hx, hhx⟩ := mem_handlesOfNodes.mp hh
    exact hxs x hx h hhx
  · rw [substituteArguments]
    · exact (hnode.yields args hargs h).bind fun x hx =>
        hrest.bind fun y hy => Yields.pure (hx.append hy)
    · exact fun pattern span heq => hexpansion ⟨pattern, span, heq⟩

theorem handles_substituteBases_cons {args : Arguments}
    (hargs : AllKnown known (handlesOfArguments args)) {base : BaseSpecifier}
    {rest : List BaseSpecifier} (hname : base.name.Sound known)
    (hrest : Yields (substituteBases args rest) fun result =>
      AllKnown known (handlesOfBases result))
    (h : AllKnown known base.name.handles) :
    Yields (substituteBases args (base :: rest)) fun result =>
      AllKnown known (handlesOfBases result) := by
  obtain ⟨access, isVirtual, name, isExpansion, span⟩ := base
  have hnext : ∀ argumentLists : List Arguments,
      (∀ narrowed ∈ argumentLists, AllKnown known (handlesOfArguments narrowed)) →
      Yields (do
        let names ← argumentLists.mapM fun narrowed => name.substitute narrowed
        return names.map (⟨access, isVirtual, ·, false, span⟩) ++ (← substituteBases args rest))
        fun result => AllKnown known (handlesOfBases result) := by
    intro argumentLists hlists
    refine (Yields.mapM fun narrowed hnarrowed =>
      hname.yields narrowed (hlists narrowed hnarrowed) h).bind fun xs hxs => ?_
    refine hrest.bind fun ys hys => Yields.pure ?_
    rw [handlesOfBases_append]
    refine AllKnown.append (fun h hh => ?_) hys
    obtain ⟨base, hbase, hhbase⟩ := mem_handlesOfBases.mp hh
    obtain ⟨x, hx, rfl⟩ := List.mem_map.mp hbase
    exact hxs x hx h hhbase
  rw [substituteBases]
  split
  · exact (handles_repetitions hargs _ span).bind hnext
  · exact (Yields.ok (by simpa using hargs)).bind hnext

mutual

theorem Node.handles_substitute : ∀ node : Node, node.Sound known
  | .literal _ _ => .plain rfl fun _ _ h => Yields.ok h
  | .name _ _ _ => .plain rfl fun _ _ h => Yields.ok h
  | .resolvedType _ _ _ => .plain rfl fun _ _ h => Yields.ok h
  | .typeParameter _ index span => .plain rfl fun _ hargs _ =>
    (handles_lookup hargs index span).bind fun argument hargument =>
      match argument, hargument with
      | .type _ _, hargument => Yields.ok hargument
      | .value _, _ => Yields.error _
      | .pack _ _, _ => Yields.error _
  | .valueParameter _ index span => .plain rfl fun _ hargs _ =>
    (handles_lookup hargs index span).bind fun argument _ =>
      match argument with
      | .value _ => Yields.ok AllKnown.nil
      | .type _ _ => Yields.error _
      | .pack _ _ => Yields.error _
  | .unary _ operand _ => .plain rfl fun args hargs h =>
    (operand.handles_substitute.yields args hargs h).bind fun _ hx => Yields.pure hx
  | .binary _ left right _ => .plain rfl fun args hargs h =>
    (left.handles_substitute.yields args hargs h.left).bind fun _ hx =>
      (right.handles_substitute.yields args hargs h.right).bind fun _ hy =>
        Yields.pure (hx.append hy)
  | .conditional condition whenTrue whenFalse _ => .plain rfl fun args hargs h =>
    (condition.handles_substitute.yields args hargs h.left.left).bind fun _ hx =>
      (whenTrue.handles_substitute.yields args hargs h.left.right).bind fun _ hy =>
        (whenFalse.handles_substitute.yields args hargs h.right).bind fun _ hz =>
          Yields.pure ((hx.append hy).append hz)
  | .paren inner _ => .plain rfl fun args hargs h =>
    (inner.handles_substitute.yields args hargs h).bind fun _ hx => Yields.pure hx
  | .typeId specifiers declarator _ => .plain rfl fun args hargs h =>
    (specifiers.handles_substitute args hargs h.left).bind fun _ hx =>
      (handles_substituteParts declarator args hargs h.right).bind fun _ hy =>
        Yields.pure (hx.append hy)
  | .templateId _ _ arguments _ => .plain rfl fun args hargs h =>
    (handles_substituteArguments arguments args hargs h.tail).bind fun _ hy =>
      Yields.pure (hy.cons h.head)
  | .packExpansion pattern _ =>
    ⟨fun _ _ _ => Yields.error _, fun args hargs h =>
      pattern.handles_substitute.yields args hargs h⟩
  | .base specifier => .plain rfl fun args hargs h =>
    (specifier.handles_substitute args hargs h).bind fun _ hx => Yields.pure hx
  | .member declaration => .plain rfl fun args hargs h =>
    (declaration.handles_substitute args hargs h).bind fun _ hx => Yields.pure hx
  | .staticAssert assertion => .plain rfl fun args hargs h =>
    (assertion.handles_substitute args hargs h).bind fun _ hx => Yields.pure hx
  | .classBody specifier => .plain rfl fun args hargs h =>
    (specifier.handles_substitute args hargs h).bind fun _ hx => Yields.pure hx
termination_by structural x => x

theorem Specifiers.handles_substitute : ∀ (specifiers : Specifiers) (args : Arguments),
    AllKnown known (handlesOfArguments args) → AllKnown known specifiers.handles →
    Yields (specifiers.substitute args) fun result => AllKnown known result.handles
  | ⟨_, named⟩, args, hargs, h =>
    (handles_substituteNode? named args hargs h).bind fun _ hx => Yields.pure hx
termination_by structural x => x

theorem handles_substituteNode? : ∀ (node : Option Node) (args : Arguments),
    AllKnown known (handlesOfArguments args) → AllKnown known (handlesOfNode? node) →
    Yields (substituteNode? args node) fun result => AllKnown known (handlesOfNode? result)
  | none, _, _, h => Yields.ok h
  | some node, args, hargs, h =>
    (node.handles_substitute.yields args hargs h).bind fun _ hx => Yields.pure hx
termination_by structural x => x

theorem handles_substituteNodes : ∀ (nodes : List Node) (args : Arguments),
    AllKnown known (handlesOfArguments args) → AllKnown known (handlesOfNodes nodes) →
    Yields (substituteNodes args nodes) fun result => AllKnown known (handlesOfNodes result)
  | [], _, _, h => Yields.ok h
  | node :: rest, args, hargs, h =>
    (node.handles_substitute.yields args hargs h.left).bind fun _ hx =>
      (handles_substituteNodes rest args hargs h.right).bind fun _ hy =>
        Yields.pure (hx.append hy)
termination_by structural x => x

theorem handles_substituteArguments : ∀ (nodes : List Node) (args : Arguments),
    AllKnown known (handlesOfArguments args) → AllKnown known (handlesOfNodes nodes) →
    Yields (substituteArguments args nodes) fun result => AllKnown known (handlesOfNodes result)
  | [], _, _, h => Yields.ok h
  | node :: rest, args, hargs, h =>
    handles_substituteArguments_cons hargs node.handles_substitute
      (handles_substituteArguments rest args hargs h.right) h.left
termination_by structural x => x

theorem DeclaratorPart.handles_substitute : ∀ (part : DeclaratorPart) (args : Arguments),
    AllKnown known (handlesOfArguments args) → AllKnown known part.handles →
    Yields (part.substitute args) fun result => AllKnown known result.handles
  | .name _ _, _, _, h => Yields.ok h
  | .pointer _ _, _, _, h => Yields.ok h
  | .lvalueReference _, _, _, h => Yields.ok h
  | .rvalueReference _, _, _, h => Yields.ok h
  | .array bound _, args, hargs, h =>
    (handles_substituteNode? bound args hargs h).bind fun _ hx => Yields.pure hx
  | .function parameters _ _ _, args, hargs, h =>
    (handles_substituteParameters parameters args hargs h).bind fun _ hx => Yields.pure hx
termination_by structural x => x

theorem handles_substituteParts : ∀ (parts : List DeclaratorPart) (args : Arguments),
    AllKnown known (handlesOfArguments args) → AllKnown known (handlesOfParts parts) →
    Yields (substituteParts args parts) fun result => AllKnown known (handlesOfParts result)
  | [], _, _, h => Yields.ok h
  | part :: rest, args, hargs, h =>
    (part.handles_substitute args hargs h.left).bind fun _ hx =>
      (handles_substituteParts rest args hargs h.right).bind fun _ hy =>
        Yields.pure (hx.append hy)
termination_by structural x => x

theorem FunctionParameter.handles_substitute :
    ∀ (parameter : FunctionParameter) (args : Arguments),
    AllKnown known (handlesOfArguments args) → AllKnown known parameter.handles →
    Yields (parameter.substitute args) fun result => AllKnown known result.handles
  | ⟨specifiers, declarator, initializer, _⟩, args, hargs, h =>
    (specifiers.handles_substitute args hargs h.left.left).bind fun _ hx =>
      (handles_substituteParts declarator args hargs h.left.right).bind fun _ hy =>
        (handles_substituteNode? initializer args hargs h.right).bind fun _ hz =>
          Yields.pure ((hx.append hy).append hz)
termination_by structural x => x

theorem handles_substituteParameters :
    ∀ (parameters : List FunctionParameter) (args : Arguments),
    AllKnown known (handlesOfArguments args) → AllKnown known (handlesOfParameters parameters) →
    Yields (substituteParameters args parameters) fun result =>
      AllKnown known (handlesOfParameters result)
  | [], _, _, h => Yields.ok h
  | parameter :: rest, args, hargs, h =>
    (parameter.handles_substitute args hargs h.left).bind fun _ hx =>
      (handles_substituteParameters rest args hargs h.right).bind fun _ hy =>
        Yields.pure (hx.append hy)
termination_by structural x => x

theorem BaseSpecifier.handles_substitute : ∀ (base : BaseSpecifier) (args : Arguments),
    AllKnown known (handlesOfArguments args) → AllKnown known base.handles →
    Yields (base.substitute args) fun result => AllKnown known result.handles
  | ⟨_, _, _, true, _⟩, _, _, _ => Yields.error _
  | ⟨_, _, name, false, _⟩, args, hargs, h =>
    (name.handles_substitute.yields args hargs h).bind fun _ hx => Yields.pure hx
termination_by structural x => x

theorem handles_substituteBases : ∀ (bases : List BaseSpecifier) (args : Arguments),
    AllKnown known (handlesOfArguments args) → AllKnown known (handlesOfBases bases) →
    Yields (substituteBases args bases) fun result => AllKnown known (handlesOfBases result)
  | [], _, _, h => Yields.ok h
  | ⟨_, _, name, _, _⟩ :: rest, args, hargs, h =>
    handles_substituteBases_cons hargs name.handles_substitute
      (handles_substituteBases rest args hargs h.right) h.left
termination_by structural x => x

theorem Member.handles_substitute : ∀ (declaration : Member) (args : Arguments),
    AllKnown known (handlesOfArguments args) → AllKnown known declaration.handles →
    Yields (declaration.substitute args) fun result => AllKnown known result.handles
  | ⟨_, specifiers, declarator, bitWidth, initializer, _⟩, args, hargs, h =>
    (specifiers.handles_substitute args hargs h.left.left.left).bind fun _ hx =>
      (handles_substituteParts declarator args hargs h.left.left.right).bind fun _ hy =>
        (handles_substituteNode? bitWidth args hargs h.left.right).bind fun _ hz =>
          (handles_substituteNode? initializer args hargs h.right).bind fun _ hw =>
            Yields.pure (((hx.append hy).append hz).append hw)
termination_by structural x => x

theorem StaticAssert.handles_substitute : ∀ (assertion : StaticAssert) (args : Arguments),
    AllKnown known (handlesOfArguments args) → AllKnown known assertion.handles →
    Yields (assertion.substitute args) fun result => AllKnown known result.handles
  | ⟨condition, _, _⟩, args, hargs, h =>
    (condition.handles_substitute.yields args hargs h).bind fun _ hx => Yields.pure hx
termination_by structural x => x

theorem ClassSpecifier.handles_substitute : ∀ (specifier : ClassSpecifier) (args : Arguments),
    AllKnown known (handlesOfArguments args) → AllKnown known specifier.handles →
    Yields (specifier.substitute args) fun result => AllKnown known result.handles
  | ⟨_, _, bases, members, _⟩, args, hargs, h =>
    (handles_substituteBases bases args hargs h.left).bind fun _ hx =>
      (handles_substituteNodes members args hargs h.right).bind fun _ hy =>
        Yields.pure (hx.append hy)
termination_by structural x => x

end

end Substitution

end TemplateAnalysis
