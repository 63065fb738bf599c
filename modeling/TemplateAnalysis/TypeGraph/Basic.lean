import TemplateAnalysis.Handle
import TemplateAnalysis.Primitive

/-!
# The graph of types

Every type has a label: a fundamental or user-defined type with its qualifiers,
or a declarator operator applied to an earlier type. The base types are found by
an index, the derived types by the edges that leave their operand: `base` and
`derive` return the type that is there already, and create one only if there is
none, so that equal labels are one type. References collapse when they are
formed. A type, once created, keeps its label; all operations only add types at
the end.
-/

namespace TemplateAnalysis

/-- What a type is derived from in the end. -/
inductive BaseKey where
  | primitive (type : Primitive) (qualifiers : Qualifiers)
  | symbol (symbol : SymbolId) (qualifiers : Qualifiers)
deriving DecidableEq, Inhabited, Repr

namespace BaseKey

def qualifiers : BaseKey → Qualifiers
  | primitive _ q | symbol _ q => q

def withQualifiers (key : BaseKey) (q : Qualifiers) : BaseKey :=
  match key with
  | primitive p _ => primitive p q
  | symbol s _ => symbol s q

end BaseKey

/-- A declarator operator. For a function the operand is the returned type. -/
inductive TypeOp where
  | pointer (qualifiers : Qualifiers)
  | lvalueReference
  | rvalueReference
  | array (bound : Option UInt64)
  | function (parameters : List TypeId) (variadic : Bool) (qualifiers : Qualifiers)
deriving DecidableEq, Inhabited, Repr

inductive TypeLabel where
  | base (key : BaseKey)
  | derived (operand : TypeId) (op : TypeOp)
deriving DecidableEq, Inhabited, Repr

/-- An operator applied to a type, with the type that this gives. -/
structure TypeEdge where
  operand : TypeId
  op : TypeOp
  result : TypeId
deriving DecidableEq, Inhabited, Repr

/-- Types by number, with their labels. -/
structure TypeGraph where
  labels : Array TypeLabel
  /-- The base types by what they stand for. -/
  bases : List (BaseKey × TypeId)
  /-- The derived types by what they are derived from, the newest first. -/
  edges : List TypeEdge
deriving Inhabited, Repr

namespace TypeGraph

def empty : TypeGraph := ⟨#[], [], []⟩

def size (g : TypeGraph) : Nat := g.labels.size

/-- The label of a type; a number that is no type reads as unqualified `void`. -/
def label (g : TypeGraph) (id : TypeId) : TypeLabel :=
  g.labels[id.index]?.getD (.base (.primitive .void .none))

/-- The type of a base, created on first use. -/
def base (g : TypeGraph) (key : BaseKey) : TypeId × TypeGraph :=
  match g.bases.lookup key with
  | some id => (id, g)
  | none =>
    (⟨g.size⟩,
      { g with labels := g.labels.push (.base key), bases := (key, ⟨g.size⟩) :: g.bases })

def edge? (g : TypeGraph) (operand : TypeId) (op : TypeOp) : Option TypeEdge :=
  g.edges.find? fun e => e.operand == operand && e.op == op

/-- The type of an operator applied to a type, created on first use. -/
def derive (g : TypeGraph) (operand : TypeId) (op : TypeOp) : TypeId × TypeGraph :=
  match g.edge? operand op with
  | some e => (e.result, g)
  | none =>
    (⟨g.size⟩,
      { g with
        labels := g.labels.push (.derived operand op)
        edges := ⟨operand, op, ⟨g.size⟩⟩ :: g.edges })

def primitive (g : TypeGraph) (p : Primitive) (q : Qualifiers) : TypeId × TypeGraph :=
  g.base (.primitive p q)

def symbolType (g : TypeGraph) (s : SymbolId) (q : Qualifiers) : TypeId × TypeGraph :=
  g.base (.symbol s q)

/-- The fundamental type of a set of keywords, with its qualifiers. -/
def ofKeywords (g : TypeGraph) (keywords : KeywordSet) :
    Except KeywordFault (TypeId × TypeGraph) :=
  (Primitive.ofKeywords keywords).map fun p => g.primitive p keywords.qualifiers

def op? (g : TypeGraph) (id : TypeId) : Option TypeOp :=
  match g.label id with
  | .derived _ op => some op
  | .base _ => none

def isReference (g : TypeGraph) (id : TypeId) : Bool :=
  match g.op? id with
  | some .lvalueReference | some .rvalueReference => true
  | _ => false

def isFunction (g : TypeGraph) (id : TypeId) : Bool :=
  match g.op? id with
  | some (.function _ _ _) => true
  | _ => false

def isArray (g : TypeGraph) (id : TypeId) : Bool :=
  match g.op? id with
  | some (.array _) => true
  | _ => false

/-- The fundamental type that a type is, whatever its qualifiers. -/
def primitive? (g : TypeGraph) (id : TypeId) : Option Primitive :=
  match g.label id with
  | .base (.primitive p _) => some p
  | _ => none

def isVoid (g : TypeGraph) (id : TypeId) : Bool := g.primitive? id == some .void

def symbol? (g : TypeGraph) (id : TypeId) : Option SymbolId :=
  match g.label id with
  | .base (.symbol s _) => some s
  | _ => none

def pointer (g : TypeGraph) (target : TypeId) (q : Qualifiers) : TypeId × TypeGraph :=
  g.derive target (.pointer q)

/-- The lvalue reference to a type; a reference to a reference refers to what that
one refers to. -/
def lvalueReference (g : TypeGraph) (id : TypeId) : TypeId × TypeGraph :=
  match g.label id with
  | .derived referee .lvalueReference | .derived referee .rvalueReference =>
    g.derive referee .lvalueReference
  | _ => g.derive id .lvalueReference

/-- The rvalue reference to a type; of a reference it is that reference. -/
def rvalueReference (g : TypeGraph) (id : TypeId) : TypeId × TypeGraph :=
  if g.isReference id then (id, g) else g.derive id .rvalueReference

def array (g : TypeGraph) (element : TypeId) (bound : Option UInt64) : TypeId × TypeGraph :=
  g.derive element (.array bound)

def function (g : TypeGraph) (result : TypeId) (parameters : List TypeId) (variadic : Bool)
    (q : Qualifiers) : TypeId × TypeGraph :=
  g.derive result (.function parameters variadic q)

/-- Qualifiers added below at most `depth` arrays. -/
def qualifyWithin : Nat → TypeGraph → TypeId → Qualifiers → TypeId × TypeGraph
  | 0, g, id, _ => (id, g)
  | depth + 1, g, id, q =>
    match g.label id with
    | .base key => g.base (key.withQualifiers (key.qualifiers.union q))
    | .derived target (.pointer own) => g.pointer target (own.union q)
    | .derived element (.array bound) =>
      let (element, g) := qualifyWithin depth g element q
      g.array element bound
    | _ => (id, g)

/-- The type with more qualifiers. Those of an array are its elements', and
references and functions have none. An array stands behind its element, so its
number bounds the arrays inside it. -/
def qualify (g : TypeGraph) (id : TypeId) (q : Qualifiers) : TypeId × TypeGraph :=
  if q.isNone then (id, g) else qualifyWithin (id.index + 1) g id q

/-- The type without qualifiers of its own; those of an array's elements stay. -/
def unqualified (g : TypeGraph) (id : TypeId) : TypeId × TypeGraph :=
  match g.label id with
  | .base key => if key.qualifiers.isNone then (id, g) else g.base (key.withQualifiers .none)
  | .derived target (.pointer q) => if q.isNone then (id, g) else g.pointer target .none
  | _ => (id, g)

/-- The type of a function parameter declared with a type: arrays and functions
become pointers, and other types lose their qualifiers. -/
def adjusted (g : TypeGraph) (id : TypeId) : TypeId × TypeGraph :=
  match g.label id with
  | .derived element (.array _) => g.pointer element .none
  | .derived _ (.function _ _ _) => g.pointer id .none
  | _ => g.unqualified id

end TypeGraph

end TemplateAnalysis
