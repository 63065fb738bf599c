import TemplateAnalysis.Symbol.Scope

/-!
# The symbol table

Symbols and scopes by number, in creation order. A table only grows; the links
between symbols and scopes are numbers, so a symbol can be completed in place.
-/

namespace TemplateAnalysis

/-- All symbols and scopes. -/
structure SymbolTable where
  symbols : Array Symbol
  scopes : Array Scope
deriving Inhabited

namespace SymbolTable

/-- The table without symbols. Its one scope is the global one. -/
def initial : SymbolTable := ⟨#[], #[.fresh .nameSpace none none]⟩

def symbol (t : SymbolTable) (id : SymbolId) : Symbol := t.symbols[id.index]?.getD default

def scope (t : SymbolTable) (id : ScopeId) : Scope := t.scopes[id.index]?.getD default

def symbolCount (t : SymbolTable) : Nat := t.symbols.size

def scopeCount (t : SymbolTable) : Nat := t.scopes.size

def classes (t : SymbolTable) : List ClassData := t.symbols.toList.filterMap (·.entity.class?)

def modifySymbol (t : SymbolTable) (id : SymbolId) (f : Symbol → Symbol) : SymbolTable :=
  { t with symbols := t.symbols.modify id.index f }

def modifyScope (t : SymbolTable) (id : ScopeId) (f : Scope → Scope) : SymbolTable :=
  { t with scopes := t.scopes.modify id.index f }

def modifyClass (t : SymbolTable) (id : SymbolId) (f : ClassData → ClassData) : SymbolTable :=
  t.modifySymbol id fun s =>
    match s.entity with
    | .classType data => { s with entity := .classType (f data) }
    | _ => s

def modifyEnum (t : SymbolTable) (id : SymbolId) (f : EnumData → EnumData) : SymbolTable :=
  t.modifySymbol id fun s =>
    match s.entity with
    | .enumeration data => { s with entity := .enumeration (f data) }
    | _ => s

def modifyTemplate (t : SymbolTable) (id : SymbolId) (f : TemplateData → TemplateData) :
    SymbolTable :=
  t.modifySymbol id fun s =>
    match s.entity with
    | .template data => { s with entity := .template (f data) }
    | _ => s

def markDefined (t : SymbolTable) (id : SymbolId) : SymbolTable :=
  t.modifySymbol id fun s => { s with isDefined := true }

def expose (t : SymbolTable) (scope : ScopeId) (name : String) (symbol : SymbolId) : SymbolTable :=
  t.modifyScope scope fun s => s.expose name symbol

/-- A new symbol, declared under a key in its enclosing scope. -/
def pushSymbol (t : SymbolTable) (key : String) (symbol : Symbol) : SymbolId × SymbolTable :=
  let id : SymbolId := ⟨t.symbolCount⟩
  let t := { t with symbols := t.symbols.push symbol }
  (id, t.modifyScope symbol.enclosing fun s => s.insert key id)

def pushScope (t : SymbolTable) (scope : Scope) : ScopeId × SymbolTable :=
  (⟨t.scopeCount⟩, { t with scopes := t.scopes.push scope })

def pushOwnScope (t : SymbolTable) (id : SymbolId) (kind : ScopeKind) (enclosing : ScopeId) :
    SymbolTable :=
  let (own, t) := t.pushScope (.fresh kind (some id) (some enclosing))
  t.modifySymbol id fun s => { s with scope := some own }

end SymbolTable

end TemplateAnalysis
