import TemplateAnalysis.SymbolTable.Lookup
import TemplateAnalysis.TypeGraph.Spelling

/-!
# Names of symbols

A symbol is named from the global scope down by the owners of the scopes around
it. Template headers do not contribute. The qualified name is for readers; the
nested name is built from internal names, and types are encoded with it.
-/

namespace TemplateAnalysis.SymbolTable

/-- The owners of a scope and of the scopes around it, from the outside. -/
def ownerChain (t : SymbolTable) (scope : ScopeId) : List SymbolId :=
  ((t.enclosingScopes scope).filterMap fun s =>
    if (t.scope s).kind = .templateHeader then none else (t.scope s).owner).reverse

/-- The names of the owners of a scope; empty for the global scope. -/
def scopePath (t : SymbolTable) (scope : ScopeId) : String :=
  "::".intercalate ((t.ownerChain scope).map fun id => (t.symbol id).name)

def qualify (t : SymbolTable) (scope : ScopeId) (name : String) : String :=
  if (t.scopePath scope).isEmpty then name else t.scopePath scope ++ "::" ++ name

/-- The qualified name of a symbol. -/
def qualifiedName (t : SymbolTable) (id : SymbolId) : String :=
  t.qualify (t.symbol id).enclosing (t.symbol id).name

/-- The internal name of a symbol; with owners it is nested between `N` and `E`. -/
def nestedName (t : SymbolTable) (id : SymbolId) : String :=
  match t.ownerChain (t.symbol id).enclosing with
  | [] => (t.symbol id).mangled
  | owners =>
    "N" ++ String.join (owners.map fun owner => (t.symbol owner).mangled) ++
      (t.symbol id).mangled ++ "E"

def typeEncoding (t : SymbolTable) (g : TypeGraph) (id : TypeId) : String :=
  (g.tree id).encoding t.nestedName

def typeText (t : SymbolTable) (g : TypeGraph) (id : TypeId) : String :=
  (g.tree id).text t.qualifiedName

def signature? (t : SymbolTable) (g : TypeGraph) (id : TypeId) : Option String :=
  (g.tree id).signature? t.nestedName

end TemplateAnalysis.SymbolTable
