import TemplateAnalysis.Symbol.Basic

/-!
# Scopes

A scope binds names to symbols, in the order in which they were registered; one
name may have several symbols. A symbol is listed as declared in the scope that
it was declared in, while an alias only makes it visible under a name.
-/

namespace TemplateAnalysis

/-- What a scope is the inside of. -/
inductive ScopeKind where
  | nameSpace | classBody | enumeration
  /-- The parameters of a template. -/
  | templateHeader
  | block
deriving DecidableEq, Inhabited

def ScopeKind.name : ScopeKind → String
  | nameSpace => "namespace"
  | classBody => "class"
  | enumeration => "enum"
  | templateHeader => "template"
  | block => "block"

/-- Names with a link to the enclosing scope. -/
structure Scope where
  kind : ScopeKind
  /-- The symbol whose scope this is. -/
  owner : Option SymbolId
  enclosing : Option ScopeId
  bindings : List (String × SymbolId)
  declared : List SymbolId
  /-- The parameters of a template that is still to be declared. -/
  pending : Option ParameterList
deriving Inhabited

namespace Scope

def fresh (kind : ScopeKind) (owner : Option SymbolId) (enclosing : Option ScopeId) : Scope :=
  ⟨kind, owner, enclosing, [], [], none⟩

/-- The symbols under a name, in the order in which they were registered. -/
def named (s : Scope) (name : String) : List SymbolId :=
  (s.bindings.filter (·.1 == name)).map (·.2)

/-- Whether this is a template header that has declared nothing yet. -/
def isOpenHeader (s : Scope) : Bool := s.kind == .templateHeader && s.owner.isNone

def insert (s : Scope) (name : String) (symbol : SymbolId) : Scope :=
  { s with bindings := s.bindings ++ [(name, symbol)], declared := s.declared ++ [symbol] }

/-- The scope with a symbol visible under a name, which it may be already. -/
def expose (s : Scope) (name : String) (symbol : SymbolId) : Scope :=
  if (s.named name).contains symbol then s
  else { s with bindings := s.bindings ++ [(name, symbol)] }

theorem named_insert (s : Scope) (name key : String) (symbol : SymbolId) :
    (s.insert key symbol).named name = s.named name ++ if key == name then [symbol] else [] := by
  unfold named insert
  by_cases h : key == name <;> simp [List.filter_append, h]

@[simp] theorem declared_insert (s : Scope) (key : String) (symbol : SymbolId) :
    (s.insert key symbol).declared = s.declared ++ [symbol] := rfl

@[simp] theorem declared_expose (s : Scope) (key : String) (symbol : SymbolId) :
    (s.expose key symbol).declared = s.declared := by
  unfold expose
  split <;> rfl

end Scope

end TemplateAnalysis
