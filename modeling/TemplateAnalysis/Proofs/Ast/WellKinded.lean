import TemplateAnalysis.Ast.ParameterUse
import TemplateAnalysis.Template.Parameter

/-!
# Well-kinded trees

A tree is well-kinded for a parameter list if every dependent name in it stands for a
parameter of its kind, packs are named inside of pack expansions only, and expansions
stand in argument lists and base lists only. An expansion holds no other expansion, and
it mentions a pack: its pattern would not be well-kinded outside of it.
-/

namespace TemplateAnalysis

/-- Whether a dependent name of a kind may have an index. Inside of an expansion it may
be that of a pack. -/
def ParameterList.admits (ps : ParameterList) (inside : Bool) (kind : ParameterKind)
    (index : Nat) : Bool :=
  match ps[index]? with
  | some p => p.kind == kind && (inside || !p.isPack)
  | none => false

mutual

/-- Whether a node is well-kinded, inside or outside of an expansion. -/
def Node.isWellKinded (ps : ParameterList) (inside : Bool) : Node → Bool
  | .literal _ _ | .name _ _ _ | .resolvedType _ _ _ => true
  | .typeParameter _ index _ => ps.admits inside .type index
  | .valueParameter _ index _ => ps.admits inside .nonType index
  | .unary _ operand _ => operand.isWellKinded ps inside
  | .binary _ left right _ => left.isWellKinded ps inside && right.isWellKinded ps inside
  | .conditional condition whenTrue whenFalse _ =>
    condition.isWellKinded ps inside && whenTrue.isWellKinded ps inside &&
      whenFalse.isWellKinded ps inside
  | .paren inner _ => inner.isWellKinded ps inside
  | .typeId specifiers declarator _ =>
    specifiers.isWellKinded ps inside && partsWellKinded ps inside declarator
  | .templateId _ _ arguments _ => argumentsWellKinded ps inside arguments
  | .packExpansion _ _ => false
  | .base specifier => specifier.isWellKinded ps inside
  | .member declaration => declaration.isWellKinded ps inside
  | .staticAssert assertion => assertion.isWellKinded ps inside
  | .classBody specifier => specifier.isWellKinded ps inside

def Specifiers.isWellKinded (ps : ParameterList) (inside : Bool) : Specifiers → Bool
  | ⟨_, named⟩ => nodeWellKinded? ps inside named

def nodeWellKinded? (ps : ParameterList) (inside : Bool) : Option Node → Bool
  | none => true
  | some node => node.isWellKinded ps inside

def nodesWellKinded (ps : ParameterList) (inside : Bool) : List Node → Bool
  | [] => true
  | node :: rest => node.isWellKinded ps inside && nodesWellKinded ps inside rest

def argumentsWellKinded (ps : ParameterList) (inside : Bool) : List Node → Bool
  | [] => true
  | .packExpansion pattern _ :: rest =>
    !inside && pattern.isWellKinded ps true && !pattern.isWellKinded ps false &&
      argumentsWellKinded ps inside rest
  | node :: rest => node.isWellKinded ps inside && argumentsWellKinded ps inside rest

def DeclaratorPart.isWellKinded (ps : ParameterList) (inside : Bool) : DeclaratorPart → Bool
  | .name _ _ | .pointer _ _ | .lvalueReference _ | .rvalueReference _ => true
  | .array bound _ => nodeWellKinded? ps inside bound
  | .function parameters _ _ _ => parametersWellKinded ps inside parameters

def partsWellKinded (ps : ParameterList) (inside : Bool) : List DeclaratorPart → Bool
  | [] => true
  | part :: rest => part.isWellKinded ps inside && partsWellKinded ps inside rest

def FunctionParameter.isWellKinded (ps : ParameterList) (inside : Bool) :
    FunctionParameter → Bool
  | ⟨specifiers, declarator, initializer, _⟩ =>
    specifiers.isWellKinded ps inside && partsWellKinded ps inside declarator &&
      nodeWellKinded? ps inside initializer

def parametersWellKinded (ps : ParameterList) (inside : Bool) : List FunctionParameter → Bool
  | [] => true
  | parameter :: rest => parameter.isWellKinded ps inside && parametersWellKinded ps inside rest

def BaseSpecifier.isWellKinded (ps : ParameterList) (inside : Bool) : BaseSpecifier → Bool
  | ⟨_, _, name, isExpansion, _⟩ => !isExpansion && name.isWellKinded ps inside

def basesWellKinded (ps : ParameterList) (inside : Bool) : List BaseSpecifier → Bool
  | [] => true
  | ⟨_, _, name, isExpansion, _⟩ :: rest =>
    (if isExpansion then
      !inside && name.isWellKinded ps true && !name.isWellKinded ps false
    else name.isWellKinded ps inside) && basesWellKinded ps inside rest

def Member.isWellKinded (ps : ParameterList) (inside : Bool) : Member → Bool
  | ⟨_, specifiers, declarator, bitWidth, initializer, _⟩ =>
    specifiers.isWellKinded ps inside && partsWellKinded ps inside declarator &&
      nodeWellKinded? ps inside bitWidth && nodeWellKinded? ps inside initializer

def StaticAssert.isWellKinded (ps : ParameterList) (inside : Bool) : StaticAssert → Bool
  | ⟨condition, _, _⟩ => condition.isWellKinded ps inside

def ClassSpecifier.isWellKinded (ps : ParameterList) (inside : Bool) : ClassSpecifier → Bool
  | ⟨_, _, bases, members, _⟩ =>
    basesWellKinded ps inside bases && nodesWellKinded ps inside members

end

variable {ps : ParameterList}

theorem nodesWellKinded_iff {inside : Bool} {nodes : List Node} :
    nodesWellKinded ps inside nodes = true ↔
      ∀ node ∈ nodes, node.isWellKinded ps inside = true := by
  induction nodes with
  | nil => simp [nodesWellKinded]
  | cons node rest ih => rw [nodesWellKinded, Bool.and_eq_true, ih, List.forall_mem_cons]

def ParameterList.HasPackAt (ps : ParameterList) (index : Nat) : Prop :=
  ∃ p, ps[index]? = some p ∧ p.isPack = true

/-- What a part of a tree mentions, given whether it is well-kinded inside and outside of
an expansion: only parameters of the list, and a pack if it is well-kinded inside only. -/
def ParameterList.Accounts (ps : ParameterList) (uses : List Nat) (inside outside : Bool) : Prop :=
  inside = true → (∀ index ∈ uses, index < ps.length) ∧
    (outside = true ∨ ∃ index ∈ uses, ps.HasPackAt index)

namespace ParameterList.Accounts

theorem nil : ps.Accounts [] true true := fun _ => ⟨by simp, .inl rfl⟩

theorem leaf (kind : ParameterKind) (index : Nat) :
    ps.Accounts [index] (ps.admits true kind index) (ps.admits false kind index) := by
  intro h
  unfold ParameterList.admits at h ⊢
  cases hp : ps[index]? with
  | none => simp [hp] at h
  | some p =>
    rw [hp] at h
    refine ⟨by simpa using (List.getElem?_eq_some_iff.mp hp).1, ?_⟩
    cases hpack : p.isPack with
    | false => exact .inl (by simpa [hpack] using h)
    | true => exact .inr ⟨index, List.mem_singleton_self index, p, hp, hpack⟩

theorem append {uses uses' : List Nat} {inside outside inside' outside' : Bool}
    (h : ps.Accounts uses inside outside) (h' : ps.Accounts uses' inside' outside') :
    ps.Accounts (uses ++ uses') (inside && inside') (outside && outside') := by
  intro hboth
  rw [Bool.and_eq_true] at hboth
  obtain ⟨hlt, hpack⟩ := h hboth.1
  obtain ⟨hlt', hpack'⟩ := h' hboth.2
  refine ⟨fun index hindex => (List.mem_append.mp hindex).elim (hlt index) (hlt' index), ?_⟩
  rcases hpack with hpack | ⟨index, hindex, hpack⟩
  · rcases hpack' with hpack' | ⟨index, hindex, hpack'⟩
    · exact .inl (by simp [hpack, hpack'])
    · exact .inr ⟨index, List.mem_append_right _ hindex, hpack'⟩
  · exact .inr ⟨index, List.mem_append_left _ hindex, hpack⟩

theorem absurd {uses : List Nat} {outside : Bool} : ps.Accounts uses false outside := nofun

end ParameterList.Accounts

open ParameterList

theorem accounts_arguments_cons {node : Node} {rest : List Node}
    (hnode : ps.Accounts node.parameterUses (node.isWellKinded ps true)
      (node.isWellKinded ps false))
    (hrest : ps.Accounts (usesOfNodes rest) (argumentsWellKinded ps true rest)
      (argumentsWellKinded ps false rest)) :
    ps.Accounts (usesOfNodes (node :: rest)) (argumentsWellKinded ps true (node :: rest))
      (argumentsWellKinded ps false (node :: rest)) := by
  by_cases hexpansion : ∃ pattern span, node = .packExpansion pattern span
  · obtain ⟨pattern, span, rfl⟩ := hexpansion
    exact .absurd
  · rw [argumentsWellKinded, argumentsWellKinded]
    · exact hnode.append hrest
    · exact fun pattern span heq => hexpansion ⟨pattern, span, heq⟩
    · exact fun pattern span heq => hexpansion ⟨pattern, span, heq⟩

mutual

theorem Node.accounts : ∀ node : Node,
    ps.Accounts node.parameterUses (node.isWellKinded ps true) (node.isWellKinded ps false)
  | .literal _ _ | .name _ _ _ | .resolvedType _ _ _ => .nil
  | .typeParameter _ index _ => .leaf .type index
  | .valueParameter _ index _ => .leaf .nonType index
  | .unary _ operand _ => operand.accounts
  | .binary _ left right _ => left.accounts.append right.accounts
  | .conditional condition whenTrue whenFalse _ =>
    (condition.accounts.append whenTrue.accounts).append whenFalse.accounts
  | .paren inner _ => inner.accounts
  | .typeId specifiers declarator _ => specifiers.accounts.append (accounts_parts declarator)
  | .templateId _ _ arguments _ => accounts_arguments arguments
  | .packExpansion _ _ => .absurd
  | .base specifier => specifier.accounts
  | .member declaration => declaration.accounts
  | .staticAssert assertion => assertion.accounts
  | .classBody specifier => specifier.accounts
termination_by structural x => x

theorem Specifiers.accounts : ∀ specifiers : Specifiers,
    ps.Accounts specifiers.parameterUses (specifiers.isWellKinded ps true)
      (specifiers.isWellKinded ps false)
  | ⟨_, named⟩ => accounts_node? named
termination_by structural x => x

theorem accounts_node? : ∀ node : Option Node,
    ps.Accounts (usesOfNode? node) (nodeWellKinded? ps true node) (nodeWellKinded? ps false node)
  | none => .nil
  | some node => node.accounts
termination_by structural x => x

theorem accounts_nodes : ∀ nodes : List Node,
    ps.Accounts (usesOfNodes nodes) (nodesWellKinded ps true nodes) (nodesWellKinded ps false nodes)
  | [] => .nil
  | node :: rest => node.accounts.append (accounts_nodes rest)
termination_by structural x => x

theorem accounts_arguments : ∀ nodes : List Node,
    ps.Accounts (usesOfNodes nodes) (argumentsWellKinded ps true nodes)
      (argumentsWellKinded ps false nodes)
  | [] => .nil
  | node :: rest => accounts_arguments_cons node.accounts (accounts_arguments rest)
termination_by structural x => x

theorem DeclaratorPart.accounts : ∀ part : DeclaratorPart,
    ps.Accounts part.parameterUses (part.isWellKinded ps true) (part.isWellKinded ps false)
  | .name _ _ | .pointer _ _ | .lvalueReference _ | .rvalueReference _ => .nil
  | .array bound _ => accounts_node? bound
  | .function parameters _ _ _ => accounts_parameters parameters
termination_by structural x => x

theorem accounts_parts : ∀ parts : List DeclaratorPart,
    ps.Accounts (usesOfParts parts) (partsWellKinded ps true parts) (partsWellKinded ps false parts)
  | [] => .nil
  | part :: rest => part.accounts.append (accounts_parts rest)
termination_by structural x => x

theorem FunctionParameter.accounts : ∀ parameter : FunctionParameter,
    ps.Accounts parameter.parameterUses (parameter.isWellKinded ps true)
      (parameter.isWellKinded ps false)
  | ⟨specifiers, declarator, initializer, _⟩ =>
    (specifiers.accounts.append (accounts_parts declarator)).append (accounts_node? initializer)
termination_by structural x => x

theorem accounts_parameters : ∀ parameters : List FunctionParameter,
    ps.Accounts (usesOfParameters parameters) (parametersWellKinded ps true parameters)
      (parametersWellKinded ps false parameters)
  | [] => .nil
  | parameter :: rest => parameter.accounts.append (accounts_parameters rest)
termination_by structural x => x

theorem BaseSpecifier.accounts : ∀ base : BaseSpecifier,
    ps.Accounts base.parameterUses (base.isWellKinded ps true) (base.isWellKinded ps false)
  | ⟨_, _, _, true, _⟩ => .absurd
  | ⟨_, _, name, false, _⟩ => name.accounts
termination_by structural x => x

theorem accounts_bases : ∀ bases : List BaseSpecifier,
    ps.Accounts (usesOfBases bases) (basesWellKinded ps true bases) (basesWellKinded ps false bases)
  | [] => .nil
  | ⟨_, _, _, true, _⟩ :: _ => .absurd
  | ⟨_, _, name, false, _⟩ :: rest => name.accounts.append (accounts_bases rest)
termination_by structural x => x

theorem Member.accounts : ∀ declaration : Member,
    ps.Accounts declaration.parameterUses (declaration.isWellKinded ps true)
      (declaration.isWellKinded ps false)
  | ⟨_, specifiers, declarator, bitWidth, initializer, _⟩ =>
    ((specifiers.accounts.append (accounts_parts declarator)).append
      (accounts_node? bitWidth)).append (accounts_node? initializer)
termination_by structural x => x

theorem StaticAssert.accounts : ∀ assertion : StaticAssert,
    ps.Accounts assertion.parameterUses (assertion.isWellKinded ps true)
      (assertion.isWellKinded ps false)
  | ⟨condition, _, _⟩ => condition.accounts
termination_by structural x => x

theorem ClassSpecifier.accounts : ∀ specifier : ClassSpecifier,
    ps.Accounts specifier.parameterUses (specifier.isWellKinded ps true)
      (specifier.isWellKinded ps false)
  | ⟨_, _, bases, members, _⟩ => (accounts_bases bases).append (accounts_nodes members)
termination_by structural x => x

end

end TemplateAnalysis
