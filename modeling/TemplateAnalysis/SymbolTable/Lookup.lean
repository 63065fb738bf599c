import TemplateAnalysis.SymbolTable.Basic

/-!
# Lookup

A name is looked up in one scope, or in a scope and then in the scopes around it.
A path is looked up from its first segment inwards. A lookup accepts a set of
kinds and passes over symbols of other kinds.
-/

namespace TemplateAnalysis.SymbolTable

def scopesWithin (t : SymbolTable) : Nat → ScopeId → List ScopeId
  | 0, scope => [scope]
  | depth + 1, scope =>
    match (t.scope scope).enclosing with
    | none => [scope]
    | some enclosing => scope :: t.scopesWithin depth enclosing

/-- A scope and all scopes around it, from the inside. A scope is created inside
of an older one, so its number bounds the scopes around it. -/
def enclosingScopes (t : SymbolTable) (scope : ScopeId) : List ScopeId :=
  t.scopesWithin scope.index scope

/-- The first symbol under a name of one scope that has an accepted kind. -/
def lookupIn (t : SymbolTable) (scope : ScopeId) (name : String) (accepted : KindSet) :
    Option SymbolId :=
  ((t.scope scope).named name).find? fun id => accepted.accepts (t.symbol id).kind

/-- The innermost symbol under a name that has an accepted kind. -/
def lookup (t : SymbolTable) (scope : ScopeId) (name : String) (accepted : KindSet) :
    Option SymbolId :=
  (t.enclosingScopes scope).findSome? fun s => t.lookupIn s name accepted

/-- A path inside of a scope: each segment but the last names a scope. -/
def lookupInside (t : SymbolTable) (accepted : KindSet) : ScopeId → List String → Option SymbolId
  | _, [] => none
  | scope, [name] => t.lookupIn scope name accepted
  | scope, name :: rest => do
    let found ← t.lookupIn scope name .scopes
    t.lookupInside accepted (← (t.symbol found).scope) rest

/-- A path from a scope: its first segment is also looked for around the scope. -/
def lookupPath (t : SymbolTable) (scope : ScopeId) (path : List String) (accepted : KindSet) :
    Option SymbolId :=
  match path with
  | [] => none
  | [name] => t.lookup scope name accepted
  | name :: rest => do
    let found ← t.lookup scope name .scopes
    t.lookupInside accepted (← (t.symbol found).scope) rest

end TemplateAnalysis.SymbolTable
