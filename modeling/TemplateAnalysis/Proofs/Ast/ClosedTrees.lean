import TemplateAnalysis.Proofs.Ast.Handles
import TemplateAnalysis.Proofs.Ast.Nodes
import TemplateAnalysis.Proofs.Diagnostic

/-!
# Closed trees

A tree is closed if no node in it is a dependent name, a pack expansion or a base that is
expanded. Whatever substitution gives is closed, and it gives a closed tree back as it is, for
any arguments and for none. Where it fails, the arguments or the tree are at fault.
-/

namespace TemplateAnalysis

/-- Whether a node has to be replaced before it means something by itself. -/
def Node.isOpen : Node → Bool
  | typeParameter _ _ _ | valueParameter _ _ _ | packExpansion _ _ => true
  | base specifier => specifier.isExpansion
  | _ => false

abbrev AreSettled (nodes : List Node) : Prop := ∀ node ∈ nodes, node.isOpen = false

/-- Whether a tree mentions no parameter and expands no pack, wherever one might. -/
def Node.IsClosed (node : Node) : Prop := AreSettled node.nodes

instance (node : Node) : Decidable node.IsClosed :=
  inferInstanceAs (Decidable (∀ inner ∈ node.nodes, inner.isOpen = false))

namespace AreSettled

variable {node : Node} {xs ys : List Node}

theorem nil : AreSettled [] := fun _ h => by cases h

theorem cons (hnode : node.isOpen = false) (hxs : AreSettled xs) : AreSettled (node :: xs) :=
  List.forall_mem_cons.mpr ⟨hnode, hxs⟩

theorem append (hxs : AreSettled xs) (hys : AreSettled ys) : AreSettled (xs ++ ys) :=
  List.forall_mem_append.mpr ⟨hxs, hys⟩

theorem head (h : AreSettled (node :: xs)) : node.isOpen = false := (List.forall_mem_cons.mp h).1

theorem tail (h : AreSettled (node :: xs)) : AreSettled xs := (List.forall_mem_cons.mp h).2

theorem left (h : AreSettled (xs ++ ys)) : AreSettled xs := (List.forall_mem_append.mp h).1

theorem right (h : AreSettled (xs ++ ys)) : AreSettled ys := (List.forall_mem_append.mp h).2

end AreSettled

/-! ### Substitution closes a tree -/

variable {args : Arguments}

/-- A computation gives what is closed, or fails as a substitution does. -/
structure Closes {α : Type} (nodes : α → List Node) (x : Except Diagnostic α) : Prop where
  yields : Yields x fun a => AreSettled (nodes a)
  failsOnly : FailsOnly x Diagnostic.IsOfSubstitution

namespace Closes

variable {α β : Type} {nodes : α → List Node} {nodes' : β → List Node}

theorem ok {a : α} (h : AreSettled (nodes a)) : Closes nodes (.ok a) := ⟨.ok h, .ok a⟩

theorem pure {a : α} (h : AreSettled (nodes a)) : Closes nodes (Pure.pure a) := ok h

theorem error {d : Diagnostic} (h : d.IsOfSubstitution) : Closes nodes (.error d) :=
  ⟨.error d, .error h⟩

theorem bind {x : Except Diagnostic α} {f : α → Except Diagnostic β} (hx : Closes nodes x)
    (hf : ∀ a, AreSettled (nodes a) → Closes nodes' (f a)) : Closes nodes' (x >>= f) := by
  constructor
  · exact hx.yields.bind fun a ha => (hf a ha).yields
  · exact hx.failsOnly.bind fun a ha => (hf a (hx.yields a ha)).failsOnly

theorem bind_any {x : Except Diagnostic α} {f : α → Except Diagnostic β}
    (hx : FailsOnly x Diagnostic.IsOfSubstitution) (hf : ∀ a, Closes nodes' (f a)) :
    Closes nodes' (x >>= f) := by
  constructor
  · exact (Yields.any x).bind fun a _ => (hf a).yields
  · exact hx.bind fun a _ => (hf a).failsOnly

theorem mapM {f : α → Except Diagnostic β} {xs : List α} (h : ∀ x ∈ xs, Closes nodes' (f x)) :
    Closes (fun ys => ys.flatMap nodes') (xs.mapM f) := by
  constructor
  · intro ys hys node hnode
    obtain ⟨y, hy, hnode⟩ := List.mem_flatMap.mp hnode
    exact Yields.mapM (fun x hx => (h x hx).yields) ys hys y hy node hnode
  · exact .mapM fun x hx => (h x hx).failsOnly

theorem bind_lookup {args : Arguments} {index : Nat} {span : Span}
    {f : TemplateArgument → Except Diagnostic β} (hf : ∀ a, Closes nodes' (f a)) :
    Closes nodes' (args.lookup index span >>= f) :=
  bind_any (failsOnly_lookup_of (fun _ _ _ => trivial) args index span) hf

theorem bind_repetitions {args : Arguments} {uses : List Nat} {span : Span}
    {f : List Arguments → Except Diagnostic β} (hf : ∀ lists, Closes nodes' (f lists)) :
    Closes nodes' (args.repetitions uses span >>= f) :=
  bind_any (failsOnly_repetitions_of (fun _ _ _ => trivial) (fun _ _ => trivial) args uses span) hf

end Closes

/-- Whatever is substituted for a node, or for the pattern of an expansion, is closed. -/
structure Node.ClosesAlways (node : Node) : Prop where
  substitute : ∀ args, Closes Node.nodes (node.substitute args)
  pattern : ∀ args, Closes Node.nodes (node.pattern.substitute args)

theorem Node.ClosesAlways.plain {node : Node} (hpattern : node.pattern = node)
    (h : ∀ args, Closes Node.nodes (node.substitute args)) : node.ClosesAlways :=
  ⟨h, hpattern.symm ▸ h⟩

theorem closes_substituteArguments_cons {node : Node} {rest : List Node}
    (hnode : node.ClosesAlways) (hrest : Closes nodesOfNodes (substituteArguments args rest)) :
    Closes nodesOfNodes (substituteArguments args (node :: rest)) := by
  by_cases hexpansion : ∃ pattern span, node = .packExpansion pattern span
  · obtain ⟨pattern, span, rfl⟩ := hexpansion
    rw [substituteArguments]
    refine .bind_repetitions fun repetitions => ?_
    refine (Closes.mapM fun narrowed _ => hnode.pattern narrowed).bind fun expanded hexpanded => ?_
    refine hrest.bind fun others hothers => .pure ?_
    rw [nodesOfNodes_eq] at hothers ⊢
    rw [List.flatMap_append]
    exact hexpanded.append hothers
  · rw [substituteArguments]
    · refine (hnode.substitute args).bind fun r hr => ?_
      exact hrest.bind fun others hothers => .pure (AreSettled.append hr hothers)
    · exact fun pattern span heq => hexpansion ⟨pattern, span, heq⟩

theorem closes_substituteBases_cons {base : BaseSpecifier} {rest : List BaseSpecifier}
    (hname : base.name.ClosesAlways) (hrest : Closes nodesOfBases (substituteBases args rest)) :
    Closes nodesOfBases (substituteBases args (base :: rest)) := by
  obtain ⟨access, isVirtual, name, isExpansion, span⟩ := base
  have hnext : ∀ argumentLists : List Arguments, Closes nodesOfBases (do
      let names ← argumentLists.mapM fun narrowed => name.substitute narrowed
      return names.map (⟨access, isVirtual, ·, false, span⟩) ++ (← substituteBases args rest)) := by
    intro argumentLists
    refine (Closes.mapM fun narrowed _ => hname.substitute narrowed).bind fun names hnames => ?_
    refine hrest.bind fun others hothers => .pure ?_
    rw [nodesOfBases_eq] at hothers ⊢
    rw [List.flatMap_append, List.flatMap_map]
    refine AreSettled.append (fun node hnode => ?_) hothers
    obtain ⟨name, hname, hnode⟩ := List.mem_flatMap.mp hnode
    refine AreSettled.cons rfl (fun inner hinner => ?_) node hnode
    exact hnames inner (List.mem_flatMap.mpr ⟨name, hname, hinner⟩)
  rw [substituteBases]
  split
  · exact .bind_repetitions hnext
  · exact hnext [args]

mutual

/-- Substitution closes every node. -/
theorem Node.closes_substitute : ∀ node : Node, node.ClosesAlways
  | .literal _ _ | .name _ _ _ | .resolvedType _ _ _ => .plain rfl fun _ => .ok (.cons rfl .nil)
  | .typeParameter _ _ _ => .plain rfl fun _ =>
    .bind_lookup fun argument =>
      match argument with
      | .type _ _ => .ok (.cons rfl .nil)
      | .value _ => .error trivial
      | .pack _ _ => .error trivial
  | .valueParameter _ _ _ => .plain rfl fun _ =>
    .bind_lookup fun argument =>
      match argument with
      | .value _ => .ok (.cons rfl .nil)
      | .type _ _ => .error trivial
      | .pack _ _ => .error trivial
  | .unary _ operand _ => .plain rfl fun args =>
    (operand.closes_substitute.substitute args).bind fun _ hx => .pure (.cons rfl hx)
  | .binary _ left right _ => .plain rfl fun args =>
    (left.closes_substitute.substitute args).bind fun _ hx =>
      (right.closes_substitute.substitute args).bind fun _ hy => .pure (.cons rfl (hx.append hy))
  | .conditional condition whenTrue whenFalse _ => .plain rfl fun args =>
    (condition.closes_substitute.substitute args).bind fun _ hx =>
      (whenTrue.closes_substitute.substitute args).bind fun _ hy =>
        (whenFalse.closes_substitute.substitute args).bind fun _ hz =>
          .pure (.cons rfl ((hx.append hy).append hz))
  | .paren inner _ => .plain rfl fun args =>
    (inner.closes_substitute.substitute args).bind fun _ hx => .pure (.cons rfl hx)
  | .typeId specifiers declarator _ => .plain rfl fun args =>
    (specifiers.closes_substitute args).bind fun _ hx =>
      (closes_substituteParts declarator args).bind fun _ hy => .pure (.cons rfl (hx.append hy))
  | .templateId _ _ arguments _ => .plain rfl fun args =>
    (closes_substituteArguments arguments args).bind fun _ hx => .pure (.cons rfl hx)
  | .packExpansion pattern _ =>
    ⟨fun _ => .error trivial, fun args => pattern.closes_substitute.substitute args⟩
  | .base specifier => .plain rfl fun args =>
    (specifier.closes_substitute args).bind fun _ hx => .pure hx
  | .member declaration => .plain rfl fun args =>
    (declaration.closes_substitute args).bind fun _ hx => .pure (.cons rfl hx)
  | .staticAssert assertion => .plain rfl fun args =>
    (assertion.closes_substitute args).bind fun _ hx => .pure (.cons rfl hx)
  | .classBody specifier => .plain rfl fun args =>
    (specifier.closes_substitute args).bind fun _ hx => .pure (.cons rfl hx)
termination_by structural x => x

theorem Specifiers.closes_substitute : ∀ (specifiers : Specifiers) (args : Arguments),
    Closes Specifiers.inner (specifiers.substitute args)
  | ⟨_, named⟩, args => (closes_substituteNode? named args).bind fun _ hx => .pure hx
termination_by structural x => x

theorem closes_substituteNode? : ∀ (node : Option Node) (args : Arguments),
    Closes nodesOfNode? (substituteNode? args node)
  | none, _ => .ok .nil
  | some node, args => (node.closes_substitute.substitute args).bind fun _ hx => .pure hx
termination_by structural x => x

theorem closes_substituteNodes : ∀ (nodes : List Node) (args : Arguments),
    Closes nodesOfNodes (substituteNodes args nodes)
  | [], _ => .ok .nil
  | node :: rest, args =>
    (node.closes_substitute.substitute args).bind fun _ hx =>
      (closes_substituteNodes rest args).bind fun _ hy => .pure (AreSettled.append hx hy)
termination_by structural x => x

theorem closes_substituteArguments : ∀ (nodes : List Node) (args : Arguments),
    Closes nodesOfNodes (substituteArguments args nodes)
  | [], _ => .ok .nil
  | node :: rest, args =>
    closes_substituteArguments_cons node.closes_substitute (closes_substituteArguments rest args)
termination_by structural x => x

theorem DeclaratorPart.closes_substitute : ∀ (part : DeclaratorPart) (args : Arguments),
    Closes DeclaratorPart.inner (part.substitute args)
  | .name _ _, _ | .pointer _ _, _ | .lvalueReference _, _ | .rvalueReference _, _ => .ok .nil
  | .array bound _, args => (closes_substituteNode? bound args).bind fun _ hx => .pure hx
  | .function parameters _ _ _, args =>
    (closes_substituteParameters parameters args).bind fun _ hx => .pure hx
termination_by structural x => x

theorem closes_substituteParts : ∀ (parts : List DeclaratorPart) (args : Arguments),
    Closes nodesOfParts (substituteParts args parts)
  | [], _ => .ok .nil
  | part :: rest, args =>
    (part.closes_substitute args).bind fun _ hx =>
      (closes_substituteParts rest args).bind fun _ hy => .pure (AreSettled.append hx hy)
termination_by structural x => x

theorem FunctionParameter.closes_substitute :
    ∀ (parameter : FunctionParameter) (args : Arguments),
    Closes FunctionParameter.inner (parameter.substitute args)
  | ⟨specifiers, declarator, initializer, _⟩, args =>
    (specifiers.closes_substitute args).bind fun _ hx =>
      (closes_substituteParts declarator args).bind fun _ hy =>
        (closes_substituteNode? initializer args).bind fun _ hz =>
          .pure ((AreSettled.append hx hy).append hz)
termination_by structural x => x

theorem closes_substituteParameters :
    ∀ (parameters : List FunctionParameter) (args : Arguments),
    Closes nodesOfParameters (substituteParameters args parameters)
  | [], _ => .ok .nil
  | parameter :: rest, args =>
    (parameter.closes_substitute args).bind fun _ hx =>
      (closes_substituteParameters rest args).bind fun _ hy => .pure (AreSettled.append hx hy)
termination_by structural x => x

theorem BaseSpecifier.closes_substitute : ∀ (base : BaseSpecifier) (args : Arguments),
    Closes (fun r => (Node.base r).nodes) (base.substitute args)
  | ⟨_, _, _, true, _⟩, _ => .error trivial
  | ⟨_, _, name, false, _⟩, args =>
    (name.closes_substitute.substitute args).bind fun _ hx => .pure (.cons rfl hx)
termination_by structural x => x

theorem closes_substituteBases : ∀ (bases : List BaseSpecifier) (args : Arguments),
    Closes nodesOfBases (substituteBases args bases)
  | [], _ => .ok .nil
  | ⟨_, _, name, _, _⟩ :: rest, args =>
    closes_substituteBases_cons name.closes_substitute (closes_substituteBases rest args)
termination_by structural x => x

theorem Member.closes_substitute : ∀ (declaration : Member) (args : Arguments),
    Closes Member.inner (declaration.substitute args)
  | ⟨_, specifiers, declarator, bitWidth, initializer, _⟩, args =>
    (specifiers.closes_substitute args).bind fun _ hx =>
      (closes_substituteParts declarator args).bind fun _ hy =>
        (closes_substituteNode? bitWidth args).bind fun _ hz =>
          (closes_substituteNode? initializer args).bind fun _ hw =>
            .pure (((AreSettled.append hx hy).append hz).append hw)
termination_by structural x => x

theorem StaticAssert.closes_substitute : ∀ (assertion : StaticAssert) (args : Arguments),
    Closes StaticAssert.inner (assertion.substitute args)
  | ⟨condition, _, _⟩, args =>
    (condition.closes_substitute.substitute args).bind fun _ hx => .pure hx
termination_by structural x => x

theorem ClassSpecifier.closes_substitute : ∀ (specifier : ClassSpecifier) (args : Arguments),
    Closes ClassSpecifier.inner (specifier.substitute args)
  | ⟨_, _, bases, members, _⟩, args =>
    (closes_substituteBases bases args).bind fun _ hx =>
      (closes_substituteNodes members args).bind fun _ hy => .pure (AreSettled.append hx hy)
termination_by structural x => x

end

/-! ### A closed tree stays as it is -/

theorem substituteArguments_of_areSettled_cons {node : Node} {rest : List Node}
    (hnode : node.substitute args = .ok node) (hrest : substituteArguments args rest = .ok rest)
    (hopen : node.isOpen = false) :
    substituteArguments args (node :: rest) = .ok (node :: rest) := by
  rw [substituteArguments, hnode, hrest]
  · rfl
  · rintro pattern span rfl
    cases hopen

theorem substituteBases_of_areSettled_cons {base : BaseSpecifier} {rest : List BaseSpecifier}
    (hname : base.name.substitute args = .ok base.name)
    (hrest : substituteBases args rest = .ok rest) (hopen : base.isExpansion = false) :
    substituteBases args (base :: rest) = .ok (base :: rest) := by
  obtain ⟨access, isVirtual, name, isExpansion, span⟩ := base
  have hnames : [args].mapM (fun narrowed => name.substitute narrowed) = .ok [name] := by
    rw [List.mapM_cons, hname]
    rfl
  subst hopen
  refine bind_eq_ok.mpr ⟨[args], rfl, bind_eq_ok.mpr ⟨[name], hnames, ?_⟩⟩
  rw [hrest]
  rfl

mutual

theorem Node.substitute_of_areSettled : ∀ node : Node, AreSettled node.nodes →
    node.substitute args = .ok node
  | .literal _ _, _ | .name _ _ _, _ | .resolvedType _ _ _, _ => rfl
  | .typeParameter _ _ _, h | .valueParameter _ _ _, h | .packExpansion _ _, h => nomatch h.head
  | .unary _ operand _, h => by
    rw [Node.substitute, operand.substitute_of_areSettled h.tail]
    rfl
  | .binary _ left right _, h => by
    rw [Node.substitute, left.substitute_of_areSettled h.tail.left,
      right.substitute_of_areSettled h.tail.right]
    rfl
  | .conditional condition whenTrue whenFalse _, h => by
    rw [Node.substitute, condition.substitute_of_areSettled h.tail.left.left,
      whenTrue.substitute_of_areSettled h.tail.left.right,
      whenFalse.substitute_of_areSettled h.tail.right]
    rfl
  | .paren inner _, h => by
    rw [Node.substitute, inner.substitute_of_areSettled h.tail]
    rfl
  | .typeId specifiers declarator _, h => by
    rw [Node.substitute, specifiers.substitute_of_areSettled h.tail.left,
      substituteParts_of_areSettled declarator h.tail.right]
    rfl
  | .templateId _ _ arguments _, h => by
    rw [Node.substitute, substituteArguments_of_areSettled arguments h.tail]
    rfl
  | .base specifier, h => by
    rw [Node.substitute, specifier.substitute_of_areSettled h]
    rfl
  | .member declaration, h => by
    rw [Node.substitute, declaration.substitute_of_areSettled h.tail]
    rfl
  | .staticAssert assertion, h => by
    rw [Node.substitute, assertion.substitute_of_areSettled h.tail]
    rfl
  | .classBody specifier, h => by
    rw [Node.substitute, specifier.substitute_of_areSettled h.tail]
    rfl
termination_by structural x => x

theorem Specifiers.substitute_of_areSettled : ∀ specifiers : Specifiers,
    AreSettled specifiers.inner → specifiers.substitute args = .ok specifiers
  | ⟨_, named⟩, h => by
    rw [Specifiers.substitute, substituteNode?_of_areSettled named h]
    rfl
termination_by structural x => x

theorem substituteNode?_of_areSettled : ∀ node : Option Node, AreSettled (nodesOfNode? node) →
    substituteNode? args node = .ok node
  | none, _ => rfl
  | some node, h => by
    rw [substituteNode?, node.substitute_of_areSettled h]
    rfl
termination_by structural x => x

theorem substituteNodes_of_areSettled : ∀ nodes : List Node, AreSettled (nodesOfNodes nodes) →
    substituteNodes args nodes = .ok nodes
  | [], _ => rfl
  | node :: rest, h => by
    rw [substituteNodes, node.substitute_of_areSettled h.left,
      substituteNodes_of_areSettled rest h.right]
    rfl
termination_by structural x => x

theorem substituteArguments_of_areSettled : ∀ nodes : List Node,
    AreSettled (nodesOfNodes nodes) → substituteArguments args nodes = .ok nodes
  | [], _ => rfl
  | node :: rest, h =>
    substituteArguments_of_areSettled_cons (node.substitute_of_areSettled h.left)
      (substituteArguments_of_areSettled rest h.right) h.left.head
termination_by structural x => x

theorem DeclaratorPart.substitute_of_areSettled : ∀ part : DeclaratorPart,
    AreSettled part.inner → part.substitute args = .ok part
  | .name _ _, _ | .pointer _ _, _ | .lvalueReference _, _ | .rvalueReference _, _ => rfl
  | .array bound _, h => by
    rw [DeclaratorPart.substitute, substituteNode?_of_areSettled bound h]
    rfl
  | .function parameters _ _ _, h => by
    rw [DeclaratorPart.substitute, substituteParameters_of_areSettled parameters h]
    rfl
termination_by structural x => x

theorem substituteParts_of_areSettled : ∀ parts : List DeclaratorPart,
    AreSettled (nodesOfParts parts) → substituteParts args parts = .ok parts
  | [], _ => rfl
  | part :: rest, h => by
    rw [substituteParts, part.substitute_of_areSettled h.left,
      substituteParts_of_areSettled rest h.right]
    rfl
termination_by structural x => x

theorem FunctionParameter.substitute_of_areSettled : ∀ parameter : FunctionParameter,
    AreSettled parameter.inner → parameter.substitute args = .ok parameter
  | ⟨specifiers, declarator, initializer, _⟩, h => by
    rw [FunctionParameter.substitute, specifiers.substitute_of_areSettled h.left.left,
      substituteParts_of_areSettled declarator h.left.right,
      substituteNode?_of_areSettled initializer h.right]
    rfl
termination_by structural x => x

theorem substituteParameters_of_areSettled : ∀ parameters : List FunctionParameter,
    AreSettled (nodesOfParameters parameters) →
      substituteParameters args parameters = .ok parameters
  | [], _ => rfl
  | parameter :: rest, h => by
    rw [substituteParameters, parameter.substitute_of_areSettled h.left,
      substituteParameters_of_areSettled rest h.right]
    rfl
termination_by structural x => x

theorem BaseSpecifier.substitute_of_areSettled : ∀ base : BaseSpecifier,
    AreSettled (Node.base base).nodes → base.substitute args = .ok base
  | ⟨_, _, _, true, _⟩, h => nomatch h.head
  | ⟨_, _, name, false, _⟩, h => by
    rw [BaseSpecifier.substitute, name.substitute_of_areSettled h.tail]
    rfl
termination_by structural x => x

theorem substituteBases_of_areSettled : ∀ bases : List BaseSpecifier,
    AreSettled (nodesOfBases bases) → substituteBases args bases = .ok bases
  | [], _ => rfl
  | ⟨_, _, name, _, _⟩ :: rest, h =>
    substituteBases_of_areSettled_cons (name.substitute_of_areSettled h.left.tail)
      (substituteBases_of_areSettled rest h.right) h.left.head
termination_by structural x => x

theorem Member.substitute_of_areSettled : ∀ declaration : Member,
    AreSettled declaration.inner → declaration.substitute args = .ok declaration
  | ⟨_, specifiers, declarator, bitWidth, initializer, _⟩, h => by
    rw [Member.substitute, specifiers.substitute_of_areSettled h.left.left.left,
      substituteParts_of_areSettled declarator h.left.left.right,
      substituteNode?_of_areSettled bitWidth h.left.right,
      substituteNode?_of_areSettled initializer h.right]
    rfl
termination_by structural x => x

theorem StaticAssert.substitute_of_areSettled : ∀ assertion : StaticAssert,
    AreSettled assertion.inner → assertion.substitute args = .ok assertion
  | ⟨condition, _, _⟩, h => by
    rw [StaticAssert.substitute, condition.substitute_of_areSettled h]
    rfl
termination_by structural x => x

theorem ClassSpecifier.substitute_of_areSettled : ∀ specifier : ClassSpecifier,
    AreSettled specifier.inner → specifier.substitute args = .ok specifier
  | ⟨_, _, bases, members, _⟩, h => by
    rw [ClassSpecifier.substitute, substituteBases_of_areSettled bases h.left,
      substituteNodes_of_areSettled members h.right]
    rfl
termination_by structural x => x

end

/-- Whatever the arguments are, what substitution gives is closed, and substituting into it
once more, for any other arguments, changes nothing. A tree that is closed to begin with is
given back as it is. -/
theorem substitute_closes (node : Node) :
    (∀ args r, node.substitute args = .ok r →
      r.IsClosed ∧ ∀ args', r.substitute args' = .ok r) ∧
    (node.IsClosed → ∀ args', node.substitute args' = .ok node) := by
  constructor
  · intro args r hr
    have hclosed : r.IsClosed := (node.closes_substitute.substitute args).yields r hr
    exact ⟨hclosed, fun args' => r.substitute_of_areSettled hclosed⟩
  · intro hclosed args'
    exact node.substitute_of_areSettled hclosed

/-- A member `Box<Ns...> a[N];` for the arguments `3` and `1, 2`. Without any arguments, what
it has become is given back as it is. -/
theorem substitute_closes_member :
    let member (arguments : List Node) (bound : Node) : Node :=
      .member ⟨.publicly, ⟨.empty, some (.templateId ⟨0⟩ "Box" arguments .synthesized)⟩,
        [.name "a" .synthesized, .array (some bound) .synthesized], none, none, .synthesized⟩
    let int (n : Int64) : Node := .literal (.int n) .synthesized
    let pattern := member [.packExpansion (.valueParameter "Ns" 1 .synthesized) .synthesized]
      (.valueParameter "N" 0 .synthesized)
    let result := member [int 1, int 2] (int 3)
    pattern.substitute [.value (.int 3), .pack .nonType [.value (.int 1), .value (.int 2)]] =
        .ok result ∧
      result.IsClosed ∧ result.substitute [] = .ok result := by
  intro member int pattern result
  have hresult : pattern.substitute
      [.value (.int 3), .pack .nonType [.value (.int 1), .value (.int 2)]] = .ok result := rfl
  obtain ⟨hclosed, hagain⟩ := (substitute_closes pattern).1 _ _ hresult
  exact ⟨hresult, hclosed, (substitute_closes result).2 hclosed []⟩

end TemplateAnalysis
