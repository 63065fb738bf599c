/-!
# Handles

Symbols, scopes and types are named by their position in creation order.
-/

namespace TemplateAnalysis

structure SymbolId where
  index : Nat
deriving DecidableEq, Inhabited, Repr

/-- A scope of a table. The global scope is the first. -/
structure ScopeId where
  index : Nat
deriving DecidableEq, Inhabited, Repr

structure TypeId where
  index : Nat
deriving DecidableEq, Inhabited, Repr

def ScopeId.global : ScopeId := ⟨0⟩

end TemplateAnalysis
