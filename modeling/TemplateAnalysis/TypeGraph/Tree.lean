import TemplateAnalysis.TypeGraph.Basic

/-!
# Types as trees

A type of a graph unfolds to a tree of operators over a base. What only reads a
type is a function on trees: its base, its qualifiers, its texts.
-/

namespace TemplateAnalysis

/-- A type, unfolded. -/
inductive TypeTree where
  | base (key : BaseKey)
  | pointer (target : TypeTree) (qualifiers : Qualifiers)
  | lvalueReference (referee : TypeTree)
  | rvalueReference (referee : TypeTree)
  | array (element : TypeTree) (bound : Option UInt64)
  | function (result : TypeTree) (parameters : List TypeTree) (variadic : Bool)
      (qualifiers : Qualifiers)
deriving Inhabited

/-- An operator applied to a tree, given the trees of its parameters. -/
def TypeOp.apply (tree : TypeId → TypeTree) (operand : TypeTree) : TypeOp → TypeTree
  | pointer q => .pointer operand q
  | lvalueReference => .lvalueReference operand
  | rvalueReference => .rvalueReference operand
  | array bound => .array operand bound
  | function parameters variadic q => .function operand (parameters.map tree) variadic q

namespace TypeGraph

/-- A type unfolded along at most `depth` labels. -/
def treeWithin (g : TypeGraph) : Nat → TypeId → TypeTree
  | 0, _ => .base (.primitive .void .none)
  | depth + 1, id =>
    match g.label id with
    | .base key => .base key
    | .derived operand op => op.apply (g.treeWithin depth) (g.treeWithin depth operand)

/-- A type, unfolded. Labels refer to earlier types, so the number of a type
bounds the labels below it. -/
def tree (g : TypeGraph) (id : TypeId) : TypeTree := g.treeWithin (id.index + 1) id

end TypeGraph

namespace TypeTree

def baseKey : TypeTree → BaseKey
  | base key => key
  | pointer t _ | lvalueReference t | rvalueReference t | array t _ | function t _ _ _ =>
    t.baseKey

/-- The qualifiers of the type; those of an array are its elements'. -/
def qualifiers : TypeTree → Qualifiers
  | base key => key.qualifiers
  | pointer _ q => q
  | array element _ => element.qualifiers
  | _ => .none

end TypeTree

end TemplateAnalysis
