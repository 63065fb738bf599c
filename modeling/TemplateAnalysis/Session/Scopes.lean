import TemplateAnalysis.Session.Basic

/-!
# Scopes of a session

Declarations go into the current scope. Namespaces and template headers are
opened and closed; a header stays open until the template behind it is declared,
and the session then goes on inside of that template.
-/

namespace TemplateAnalysis.Session

open Analysis

def enterScope (scope : ScopeId) : Analysis Unit := modify fun s => { s with current := scope }

def leaveScope (span : Span) : Analysis ScopeId := do
  match (← scope (← get).current).enclosing with
  | none => throw (.internal span .leavesGlobalScope)
  | some enclosing =>
    enterScope enclosing
    return enclosing

def ownScope (id : SymbolId) (span : Span) : Analysis ScopeId := do
  let target ← symbol id
  match target.scope with
  | some own => return own
  | none => throw (.internal span (.noOwnScope target.name))

def require (name : String) (accepted : KindSet) (span : Span) : Analysis SymbolId := do
  let s ← get
  match s.table.lookup s.current name accepted with
  | some id => return id
  | none => throw ⟨.unknownName name, span⟩

/-- A namespace, new or opened again. -/
def openNamespace (name : String) (span : Span) : Analysis SymbolId := do
  let s ← get
  let declared ← onTable
    (SymbolTable.declare s.current name .nameSpace (.singleton .nameSpace) span .nameSpace)
  enterScope (← ownScope declared.symbol span)
  return declared.symbol

/-- The current namespace, which is not the global scope, is left. -/
def closeNamespace (span : Span) : Analysis Unit := do
  let current ← scope (← get).current
  if current.kind ≠ .nameSpace ∨ current.enclosing.isNone then
    throw (.internal span .noNamespaceOpen)
  let _ ← leaveScope span

/-- The parameters with names, declared in the header of their template. -/
def insertParameters (header : ScopeId) : Nat → ParameterList → SymbolTable → SymbolTable
  | _, [], t => t
  | index, p :: rest, t =>
    let t :=
      if p.name.isEmpty then t
      else (t.insertEntity header p.name (.templateParameter ⟨index, p.kind, p.isPack⟩) p.span).2
    insertParameters header (index + 1) rest t

/-- A template header is opened. Its parameters are visible at once; the template
is what is declared next. -/
def beginTemplate (parameters : ParameterList) (span : Span) : Analysis ScopeId := do
  if parameters.isEmpty then throw (.unsupported span .explicitSpecialization)
  let s ← get
  let kind := (s.table.scope s.current).kind
  if kind = .classBody ∨ kind = .templateHeader then
    throw (.unsupported span .memberTemplates)
  ofExcept parameters.validate
  let header ← changeTable (·.pushScope
    { Scope.fresh .templateHeader none (some s.current) with pending := some parameters })
  modifyTable (insertParameters header 0 parameters)
  enterScope header
  return header

def endTemplate (span : Span) : Analysis SymbolId := do
  let current ← scope (← get).current
  if current.kind ≠ .templateHeader then throw (.internal span .noTemplateOpen)
  match current.owner with
  | none => throw (.internal span .templateDeclaresNothing)
  | some owner =>
    let _ ← leaveScope span
    return owner

def inHeader : Analysis Bool := do
  let s ← get
  return (s.table.scope s.current).isOpenHeader

/-- The template declared behind the current header is what it is a template of,
perhaps defined with that, and the session goes on inside of it. -/
def enterTemplate (declared : Declared) (entity : TemplatedEntity) (defines : Bool)
    (span : Span) : Analysis Unit := do
  let own ← ownScope declared.symbol span
  if declared.isNew then
    modifyTable (·.modifyTemplate declared.symbol fun data => { data with entity })
  if defines then
    let target ← symbol declared.symbol
    if (target.entity.template?.map (·.isEntityDefined)).getD false then
      throw ⟨.redefinition target.name, span⟩
    modifyTable (·.modifyTemplate declared.symbol fun data => { data with isEntityDefined := true })
  enterScope own

end TemplateAnalysis.Session
