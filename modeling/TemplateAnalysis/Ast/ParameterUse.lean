import TemplateAnalysis.Ast.Basic

/-!
# Uses of template parameters

The positions of the parameters that a tree mentions, in reading order and with
repeats. A tree that mentions none does not depend on template parameters.
-/

namespace TemplateAnalysis

mutual

/-- The parameters that a node mentions. -/
def Node.parameterUses : Node → List Nat
  | .literal _ _ | .name _ _ _ | .resolvedType _ _ _ => []
  | .typeParameter _ index _ | .valueParameter _ index _ => [index]
  | .unary _ operand _ => operand.parameterUses
  | .binary _ left right _ => left.parameterUses ++ right.parameterUses
  | .conditional condition whenTrue whenFalse _ =>
    condition.parameterUses ++ whenTrue.parameterUses ++ whenFalse.parameterUses
  | .paren inner _ => inner.parameterUses
  | .typeId specifiers declarator _ => specifiers.parameterUses ++ usesOfParts declarator
  | .templateId _ _ arguments _ => usesOfNodes arguments
  | .packExpansion pattern _ => pattern.parameterUses
  | .base specifier => specifier.parameterUses
  | .member declaration => declaration.parameterUses
  | .staticAssert assertion => assertion.parameterUses
  | .classBody specifier => specifier.parameterUses

def Specifiers.parameterUses : Specifiers → List Nat
  | ⟨_, named⟩ => usesOfNode? named

def usesOfNode? : Option Node → List Nat
  | none => []
  | some node => node.parameterUses

def usesOfNodes : List Node → List Nat
  | [] => []
  | node :: rest => node.parameterUses ++ usesOfNodes rest

def DeclaratorPart.parameterUses : DeclaratorPart → List Nat
  | .array bound _ => usesOfNode? bound
  | .function parameters _ _ _ => usesOfParameters parameters
  | _ => []

def usesOfParts : List DeclaratorPart → List Nat
  | [] => []
  | part :: rest => part.parameterUses ++ usesOfParts rest

def FunctionParameter.parameterUses : FunctionParameter → List Nat
  | ⟨specifiers, declarator, initializer, _⟩ =>
    specifiers.parameterUses ++ usesOfParts declarator ++ usesOfNode? initializer

def usesOfParameters : List FunctionParameter → List Nat
  | [] => []
  | parameter :: rest => parameter.parameterUses ++ usesOfParameters rest

def BaseSpecifier.parameterUses : BaseSpecifier → List Nat
  | ⟨_, _, name, _, _⟩ => name.parameterUses

def usesOfBases : List BaseSpecifier → List Nat
  | [] => []
  | base :: rest => base.parameterUses ++ usesOfBases rest

def Member.parameterUses : Member → List Nat
  | ⟨_, specifiers, declarator, bitWidth, initializer, _⟩ =>
    specifiers.parameterUses ++ usesOfParts declarator ++ usesOfNode? bitWidth ++
      usesOfNode? initializer

def StaticAssert.parameterUses : StaticAssert → List Nat
  | ⟨condition, _, _⟩ => condition.parameterUses

def ClassSpecifier.parameterUses : ClassSpecifier → List Nat
  | ⟨_, _, bases, members, _⟩ => usesOfBases bases ++ usesOfNodes members

end

def Node.isDependent (node : Node) : Bool := !node.parameterUses.isEmpty

def insertIncreasing (n : Nat) : List Nat → List Nat
  | [] => [n]
  | m :: rest =>
    if n < m then n :: m :: rest
    else if n = m then m :: rest
    else m :: insertIncreasing n rest

/-- The numbers of a list, each once and in increasing order. -/
def increasing (ns : List Nat) : List Nat := ns.foldr insertIncreasing []

theorem mem_insertIncreasing {n k : Nat} {ns : List Nat} :
    k ∈ insertIncreasing n ns ↔ k = n ∨ k ∈ ns := by
  induction ns with
  | nil => simp [insertIncreasing]
  | cons m rest ih => grind [insertIncreasing]

@[simp] theorem mem_increasing {k : Nat} {ns : List Nat} : k ∈ increasing ns ↔ k ∈ ns := by
  induction ns with
  | nil => simp [increasing]
  | cons m rest ih =>
    rw [increasing, List.foldr_cons, mem_insertIncreasing]
    simp [← ih, increasing]

end TemplateAnalysis
