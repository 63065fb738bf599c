import TemplateAnalysis.Ast.ParameterUse
import TemplateAnalysis.Template.Kind

/-!
# The nodes of a tree

`Node.nodes` lists every node that stands anywhere in a tree, entries of base lists among
them. What holds of every part of a tree is said of the members of this list. The parameters
that a tree mentions are those of the names in it.
-/

namespace TemplateAnalysis

mutual

/-- The nodes inside of a node, in reading order. -/
def Node.inner : Node → List Node
  | .literal _ _ | .name _ _ _ | .resolvedType _ _ _ | .typeParameter _ _ _
  | .valueParameter _ _ _ => []
  | .unary _ operand _ => operand :: operand.inner
  | .binary _ left right _ => left :: left.inner ++ right :: right.inner
  | .conditional condition whenTrue whenFalse _ =>
    condition :: condition.inner ++ whenTrue :: whenTrue.inner ++ whenFalse :: whenFalse.inner
  | .paren inner _ => inner :: inner.inner
  | .typeId specifiers declarator _ => specifiers.inner ++ nodesOfParts declarator
  | .templateId _ _ arguments _ => nodesOfNodes arguments
  | .packExpansion pattern _ => pattern :: pattern.inner
  | .base specifier => specifier.inner
  | .member declaration => declaration.inner
  | .staticAssert assertion => assertion.inner
  | .classBody specifier => specifier.inner

def Specifiers.inner : Specifiers → List Node
  | ⟨_, named⟩ => nodesOfNode? named

def nodesOfNode? : Option Node → List Node
  | none => []
  | some node => node :: node.inner

def nodesOfNodes : List Node → List Node
  | [] => []
  | node :: rest => node :: node.inner ++ nodesOfNodes rest

def DeclaratorPart.inner : DeclaratorPart → List Node
  | .name _ _ | .pointer _ _ | .lvalueReference _ | .rvalueReference _ => []
  | .array bound _ => nodesOfNode? bound
  | .function parameters _ _ _ => nodesOfParameters parameters

def nodesOfParts : List DeclaratorPart → List Node
  | [] => []
  | part :: rest => part.inner ++ nodesOfParts rest

def FunctionParameter.inner : FunctionParameter → List Node
  | ⟨specifiers, declarator, initializer, _⟩ =>
    specifiers.inner ++ nodesOfParts declarator ++ nodesOfNode? initializer

def nodesOfParameters : List FunctionParameter → List Node
  | [] => []
  | parameter :: rest => parameter.inner ++ nodesOfParameters rest

def BaseSpecifier.inner : BaseSpecifier → List Node
  | ⟨_, _, name, _, _⟩ => name :: name.inner

def nodesOfBases : List BaseSpecifier → List Node
  | [] => []
  | base :: rest => .base base :: base.inner ++ nodesOfBases rest

def Member.inner : Member → List Node
  | ⟨_, specifiers, declarator, bitWidth, initializer, _⟩ =>
    specifiers.inner ++ nodesOfParts declarator ++ nodesOfNode? bitWidth ++
      nodesOfNode? initializer

def StaticAssert.inner : StaticAssert → List Node
  | ⟨condition, _, _⟩ => condition :: condition.inner

def ClassSpecifier.inner : ClassSpecifier → List Node
  | ⟨_, _, bases, members, _⟩ => nodesOfBases bases ++ nodesOfNodes members

end

def Node.nodes (node : Node) : List Node := node :: node.inner

theorem nodesOfNodes_eq (nodes : List Node) : nodesOfNodes nodes = nodes.flatMap (·.nodes) := by
  induction nodes with
  | nil => rfl
  | cons node rest ih => rw [nodesOfNodes, ih, List.flatMap_cons, Node.nodes]

theorem nodesOfBases_eq (bases : List BaseSpecifier) :
    nodesOfBases bases = bases.flatMap fun base => (Node.base base).nodes := by
  induction bases with
  | nil => rfl
  | cons base rest ih => rw [nodesOfBases, ih, List.flatMap_cons, Node.nodes, Node.inner]

/-! ### The names of a tree -/

def Node.parameter? : Node → Option (ParameterKind × Nat)
  | typeParameter _ index _ => some (.type, index)
  | valueParameter _ index _ => some (.nonType, index)
  | _ => none

/-- The positions of the parameters that some nodes stand for themselves. -/
def indicesOf (nodes : List Node) : List Nat :=
  nodes.filterMap fun node => node.parameter?.map (·.2)

theorem indicesOf_append (xs ys : List Node) :
    indicesOf (xs ++ ys) = indicesOf xs ++ indicesOf ys :=
  List.filterMap_append

mutual

/-- The parameters that a node mentions are those of the names that stand in it. -/
theorem Node.parameterUses_eq : ∀ node : Node, node.parameterUses = indicesOf node.nodes
  | .literal _ _ | .name _ _ _ | .resolvedType _ _ _ | .typeParameter _ _ _
  | .valueParameter _ _ _ => rfl
  | .unary _ operand _ => operand.parameterUses_eq
  | .binary _ left right _ => by
    rw [Node.parameterUses, left.parameterUses_eq, right.parameterUses_eq, ← indicesOf_append]
    rfl
  | .conditional condition whenTrue whenFalse _ => by
    rw [Node.parameterUses, condition.parameterUses_eq, whenTrue.parameterUses_eq,
      whenFalse.parameterUses_eq, ← indicesOf_append, ← indicesOf_append]
    rfl
  | .paren inner _ => inner.parameterUses_eq
  | .typeId specifiers declarator _ => by
    rw [Node.parameterUses, specifiers.parameterUses_eq, usesOfParts_eq declarator,
      ← indicesOf_append]
    rfl
  | .templateId _ _ arguments _ => usesOfNodes_eq_indicesOf arguments
  | .packExpansion pattern _ => pattern.parameterUses_eq
  | .base specifier => specifier.parameterUses_eq
  | .member declaration => declaration.parameterUses_eq
  | .staticAssert assertion => assertion.parameterUses_eq
  | .classBody specifier => specifier.parameterUses_eq
termination_by structural x => x

theorem Specifiers.parameterUses_eq : ∀ specifiers : Specifiers,
    specifiers.parameterUses = indicesOf specifiers.inner
  | ⟨_, named⟩ => usesOfNode?_eq named
termination_by structural x => x

theorem usesOfNode?_eq : ∀ node : Option Node, usesOfNode? node = indicesOf (nodesOfNode? node)
  | none => rfl
  | some node => node.parameterUses_eq
termination_by structural x => x

theorem usesOfNodes_eq_indicesOf : ∀ nodes : List Node,
    usesOfNodes nodes = indicesOf (nodesOfNodes nodes)
  | [] => rfl
  | node :: rest => by
    rw [usesOfNodes, node.parameterUses_eq, usesOfNodes_eq_indicesOf rest, ← indicesOf_append]
    rfl
termination_by structural x => x

theorem DeclaratorPart.parameterUses_eq : ∀ part : DeclaratorPart,
    part.parameterUses = indicesOf part.inner
  | .name _ _ | .pointer _ _ | .lvalueReference _ | .rvalueReference _ => rfl
  | .array bound _ => usesOfNode?_eq bound
  | .function parameters _ _ _ => usesOfParameters_eq parameters
termination_by structural x => x

theorem usesOfParts_eq : ∀ parts : List DeclaratorPart,
    usesOfParts parts = indicesOf (nodesOfParts parts)
  | [] => rfl
  | part :: rest => by
    rw [usesOfParts, part.parameterUses_eq, usesOfParts_eq rest, ← indicesOf_append]
    rfl
termination_by structural x => x

theorem FunctionParameter.parameterUses_eq : ∀ parameter : FunctionParameter,
    parameter.parameterUses = indicesOf parameter.inner
  | ⟨specifiers, declarator, initializer, _⟩ => by
    rw [FunctionParameter.parameterUses, specifiers.parameterUses_eq, usesOfParts_eq declarator,
      usesOfNode?_eq initializer, ← indicesOf_append, ← indicesOf_append]
    rfl
termination_by structural x => x

theorem usesOfParameters_eq : ∀ parameters : List FunctionParameter,
    usesOfParameters parameters = indicesOf (nodesOfParameters parameters)
  | [] => rfl
  | parameter :: rest => by
    rw [usesOfParameters, parameter.parameterUses_eq, usesOfParameters_eq rest, ← indicesOf_append]
    rfl
termination_by structural x => x

theorem BaseSpecifier.parameterUses_eq : ∀ base : BaseSpecifier,
    base.parameterUses = indicesOf base.inner
  | ⟨_, _, name, _, _⟩ => name.parameterUses_eq
termination_by structural x => x

theorem usesOfBases_eq_indicesOf : ∀ bases : List BaseSpecifier,
    usesOfBases bases = indicesOf (nodesOfBases bases)
  | [] => rfl
  | base :: rest => by
    rw [usesOfBases, base.parameterUses_eq, usesOfBases_eq_indicesOf rest, ← indicesOf_append]
    rfl
termination_by structural x => x

theorem Member.parameterUses_eq : ∀ declaration : Member,
    declaration.parameterUses = indicesOf declaration.inner
  | ⟨_, specifiers, declarator, bitWidth, initializer, _⟩ => by
    rw [Member.parameterUses, specifiers.parameterUses_eq, usesOfParts_eq declarator,
      usesOfNode?_eq bitWidth, usesOfNode?_eq initializer, ← indicesOf_append, ← indicesOf_append,
      ← indicesOf_append]
    rfl
termination_by structural x => x

theorem StaticAssert.parameterUses_eq : ∀ assertion : StaticAssert,
    assertion.parameterUses = indicesOf assertion.inner
  | ⟨condition, _, _⟩ => condition.parameterUses_eq
termination_by structural x => x

theorem ClassSpecifier.parameterUses_eq : ∀ specifier : ClassSpecifier,
    specifier.parameterUses = indicesOf specifier.inner
  | ⟨_, _, bases, members, _⟩ => by
    rw [ClassSpecifier.parameterUses, usesOfBases_eq_indicesOf bases,
      usesOfNodes_eq_indicesOf members, ← indicesOf_append]
    rfl
termination_by structural x => x

end

theorem Node.mem_parameterUses {node : Node} {index : Nat} :
    index ∈ node.parameterUses ↔
      ∃ name ∈ node.nodes, ∃ kind, name.parameter? = some (kind, index) := by
  rw [node.parameterUses_eq, indicesOf, List.mem_filterMap]
  simp

end TemplateAnalysis
