import TemplateAnalysis.SymbolTable.Declaration
import TemplateAnalysis.SymbolTable.Values
import TemplateAnalysis.Template.Key

/-!
# Sessions

A session is the analysis of one header: its symbols, its types, and the scope
that declarations go into. `Analysis` is a step of a session that may fail; a step
that fails still leaves a session, with whatever it did before.
-/

namespace TemplateAnalysis

/-- The limits and policies of a session. -/
structure Config where
  /-- How deep instantiations may be nested. -/
  maxDepth : Nat
  /-- Whether a base class has to be defined. -/
  requireCompleteBases : Bool
deriving DecidableEq, Repr

/-- The configuration that is used when nothing else is asked for. -/
def Config.standard : Config := ⟨256, true⟩

/-- The state of an analysis. -/
structure Session where
  config : Config
  table : SymbolTable
  types : TypeGraph
  /-- The scope that declarations go into. -/
  current : ScopeId
  /-- How many instances are being made, one inside of the other. -/
  depth : Nat

def Session.start (config : Config) : Session := ⟨config, .initial, .empty, .global, 0⟩

/-- A step of a session, with the session it leaves whether or not it fails. -/
abbrev Analysis := ExceptT Diagnostic (StateM Session)

namespace Analysis

def onTable {α : Type} (change : Declaring α) : Analysis α :=
  ExceptT.mk fun s =>
    let (result, table) := change s.table
    (result, { s with table })

def changeTable {α : Type} (change : SymbolTable → α × SymbolTable) : Analysis α :=
  modifyGet fun s =>
    let (result, table) := change s.table
    (result, { s with table })

def modifyTable (change : SymbolTable → SymbolTable) : Analysis Unit :=
  modify fun s => { s with table := change s.table }

def onTypes {α : Type} (change : TypeGraph → α × TypeGraph) : Analysis α :=
  modifyGet fun s =>
    let (result, types) := change s.types
    (result, { s with types })

def symbol (id : SymbolId) : Analysis Symbol := return (← get).table.symbol id

def scope (id : ScopeId) : Analysis Scope := return (← get).table.scope id

def evaluate (node : Node) : Analysis Constant := do
  ofExcept ((← get).table.evaluate node)

/-- A step whose declarations go into another scope. Afterwards the scope is what
it was, also when the step fails. -/
def inScope {α : Type} (scope : ScopeId) (step : Analysis α) : Analysis α :=
  ExceptT.mk fun s =>
    let (result, s') := step { s with current := scope }
    (result, { s' with current := s.current })

/-- A step that makes an instance: one more while it runs, also when it fails. -/
def nested {α : Type} (step : Analysis α) : Analysis α :=
  ExceptT.mk fun s =>
    let (result, s') := step { s with depth := s.depth + 1 }
    (result, { s' with depth := s'.depth - 1 })

end Analysis

end TemplateAnalysis
