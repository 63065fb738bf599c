import TemplateAnalysis.SymbolTable.Naming

/-!
# Declarations

A name is declared in a scope, or found to be declared there before. Entities are
redeclared when the first symbol under the name has an accepted kind; functions
share a name with other functions only and are told apart by their types. Behind
an open template header the enclosing scope gets a template instead. Declarations
that return `Except` leave the table alone when they fail by their type; merging
the defaults of a template is the one step whose effect outlives a failure.
-/

namespace TemplateAnalysis

/-- A change of the table that may fail, with the table it leaves either way. -/
abbrev Declaring := ExceptT Diagnostic (StateM SymbolTable)

/-- A symbol that was declared or found. -/
structure Declared where
  symbol : SymbolId
  isNew : Bool
deriving DecidableEq, Inhabited

namespace SymbolTable

/-- A new entity under its own name. Nothing is checked. -/
def insertEntity (t : SymbolTable) (scope : ScopeId) (name : String) (entity : Entity)
    (span : Span) : SymbolId × SymbolTable :=
  t.pushSymbol name
    ⟨name, sourceName name, .ofName (t.qualify scope name), scope, none, false, none, span, entity⟩

/-- The scope that a new symbol of a kind comes with. -/
def ownScopeKind? : SymbolKind → Option ScopeKind
  | .nameSpace => some .nameSpace
  | .classType => some .classBody
  | .enumeration => some .enumeration
  | _ => none

def introduce (t : SymbolTable) (scope : ScopeId) (name : String) (entity : Entity)
    (span : Span) : SymbolId × SymbolTable :=
  let (id, t) := t.insertEntity scope name entity span
  match ownScopeKind? entity.kind with
  | some kind => (id, t.pushOwnScope id kind scope)
  | none => (id, t)

/-- An entity of a kind, declared outside of template headers. -/
def declareEntity (t : SymbolTable) (scope : ScopeId) (name : String) (kind : SymbolKind)
    (accepted : KindSet) (span : Span) (entity : Entity) :
    Except Diagnostic (Declared × SymbolTable) :=
  if kind = .function then .error (.internal span (.overloadRequired name))
  else if kind = .template then .error (.internal span (.parameterScopeRequired name))
  else match (t.scope scope).named name with
    | existing :: _ =>
      let found := (t.symbol existing).kind
      if accepted.accepts found then .ok (⟨existing, false⟩, t)
      else .error ⟨.differentKind name found.name kind.name, span⟩
    | [] =>
      if entity.kind ≠ kind then
        .error (.internal span (.entityMismatch name entity.kind kind))
      else
        let (id, t) := t.introduce scope name entity span
        .ok (⟨id, true⟩, t)

/-- The overload among some symbols that a function type redeclares, if any. -/
def findOverload (t : SymbolTable) (name : String) (type : TypeId) (signature : String)
    (span : Span) : List SymbolId → Except Diagnostic (Option SymbolId)
  | [] => .ok none
  | id :: rest =>
    match (t.symbol id).entity with
    | .function data =>
      if data.type = type then .ok (some id)
      else if data.signature = signature then .error ⟨.redefinition name, span⟩
      else t.findOverload name type signature span rest
    | other => .error ⟨.differentKind name other.kind.name SymbolKind.function.name, span⟩

def declareOverload (t : SymbolTable) (scope : ScopeId) (name : String) (type : TypeId)
    (signature : String) (keywords : KeywordSet) (span : Span) :
    Except Diagnostic (Declared × SymbolTable) := do
  if (t.scope scope).isOpenHeader then .error (.unsupported span (.templatesOf .function))
  else match ← t.findOverload name type signature span ((t.scope scope).named name) with
    | some existing => return (⟨existing, false⟩, t)
    | none =>
      let fingerprint := Fingerprint.ofFunction (t.qualify scope name) signature
      let (id, t) := t.pushSymbol name
        ⟨name, sourceName name ++ signature, fingerprint, scope, none, false, none, span,
          .function ⟨type, keywords, signature⟩⟩
      return (⟨id, true⟩, t)

/-- An instance of a class template under its key, with a class scope. -/
def declareInstance (t : SymbolTable) (scope : ScopeId) (key shown : String)
    (keyword : ClassKey) (origin : InstanceOrigin) (span : Span) : SymbolId × SymbolTable :=
  let fingerprint := Fingerprint.ofInstance (t.scopePath scope) key
  let (id, t) := t.pushSymbol key
    ⟨shown, key, fingerprint, scope, none, false, none, span,
      .classType ⟨keyword, [], [], some origin⟩⟩
  (id, t.pushOwnScope id .classBody scope)

def parameterIndex? (t : SymbolTable) (id : SymbolId) : Option Nat :=
  (t.symbol id).entity.parameter?.map (·.index)

/-- The names in one template header, with the parameters at the same positions of
another. Parameters without a name have none to give. -/
def parameterAliases (t : SymbolTable) (header other : ScopeId) : List (String × SymbolId) :=
  (t.scope header).declared.filterMap fun id => do
    let index ← t.parameterIndex? id
    let target ← (t.scope other).declared.find? fun old => t.parameterIndex? old == some index
    if (t.symbol id).name.isEmpty then none else some ((t.symbol id).name, target)

/-- The parameters of the other header visible under the names of this one. -/
def aliasParameters (t : SymbolTable) (header other : ScopeId) : SymbolTable :=
  (t.parameterAliases header other).foldl (fun t (name, target) => t.expose other name target) t

/-- A template header that no longer waits for its template. -/
def settleHeader (t : SymbolTable) (header : ScopeId) : SymbolTable :=
  t.modifyScope header fun s => { s with pending := none }

/-- A new template. Its header becomes its own scope. -/
def introduceTemplate (t : SymbolTable) (header enclosing : ScopeId) (name : String)
    (entity : TemplatedEntity) (parameters : ParameterList) (span : Span) :
    Except Diagnostic (Declared × SymbolTable) := do
  parameters.checkTrailingDefaults name span
  let (id, t) := t.insertEntity enclosing name (.template ⟨parameters, entity, none, false⟩) span
  let t := t.modifySymbol id fun s => { s with scope := some header }
  let t := t.modifyScope header fun s => { s with owner := some id }
  return (⟨id, true⟩, t.settleHeader header)

/-- The template that a declaration behind a header redeclares: its data and its
own header. -/
def redeclaredTemplate (t : SymbolTable) (existing : SymbolId) (name : String)
    (kind : SymbolKind) (span : Span) : Except Diagnostic (TemplateData × ScopeId) :=
  match (t.symbol existing).entity with
  | .template data =>
    if data.entity.kind ≠ kind then
      .error ⟨.differentKind name (data.entity.name ++ " template") (kind.name ++ " template"),
        span⟩
    else match (t.symbol existing).scope with
      | some own => .ok (data, own)
      | none => .error (.internal span (.noParameterScope name))
  | other => .error ⟨.differentKind name other.kind.name SymbolKind.template.name, span⟩

/-- A redeclared template takes the defaults of the new parameters; the merged list
stays when it turns out to break the default rule. -/
def redeclareTemplate (header : ScopeId) (existing : SymbolId) (name : String)
    (kind : SymbolKind) (parameters : ParameterList) (span : Span) : Declaring Declared := do
  let t ← get
  let (data, own) ← MonadExcept.ofExcept (t.redeclaredTemplate existing name kind span)
  let merged ← MonadExcept.ofExcept (data.parameters.merge parameters name span)
  modify (·.modifyTemplate existing fun data => { data with parameters := merged })
  MonadExcept.ofExcept (merged.checkTrailingDefaults name span)
  modify fun t => (t.aliasParameters header own).settleHeader header
  return ⟨existing, false⟩

def declareTemplate (header : ScopeId) (name : String) (kind : SymbolKind) (span : Span) :
    Declaring Declared := do
  let t ← get
  match TemplatedEntity.ofKind? kind with
  | none => throw (.unsupported span (.templatesOf kind))
  | some entity =>
    match (t.scope header).enclosing with
    | none => throw (.internal span .noEnclosingScope)
    | some enclosing =>
      let parameters := (t.scope header).pending.getD []
      match (t.scope enclosing).named name with
      | existing :: _ => redeclareTemplate header existing name kind parameters span
      | [] =>
        let (declared, t) ← MonadExcept.ofExcept
          (t.introduceTemplate header enclosing name entity parameters span)
        set t
        return declared

/-- An entity of a kind; behind an open template header, a template of that kind. -/
def declare (scope : ScopeId) (name : String) (kind : SymbolKind) (accepted : KindSet)
    (span : Span) (entity : Entity) : Declaring Declared := do
  let t ← get
  if (t.scope scope).isOpenHeader then declareTemplate scope name kind span
  else
    let (declared, t) ← MonadExcept.ofExcept
      (t.declareEntity scope name kind accepted span entity)
    set t
    return declared

end SymbolTable

end TemplateAnalysis
