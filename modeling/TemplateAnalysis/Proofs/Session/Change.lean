import Mathlib.Logic.Relation
import TemplateAnalysis.Proofs.Constant.Conversion
import TemplateAnalysis.Proofs.Session.Closed
import TemplateAnalysis.Session.Classes
import TemplateAnalysis.Session.Enums

/-!
# What can happen to a session

`Change` lists everything that a step of an analysis does to a session, with what
has been checked before. One symbol is changed in place by a `Symbol.Edit`; the
other changes move the cursor, form a type, or add symbols and scopes. Whatever a
whole operation does is a sequence of changes, also when it fails midway, so that an
invariant of all sessions is an invariant of these changes.
-/

namespace TemplateAnalysis

def TypeLabel.IsParameter : TypeLabel → Prop
  | .base key => key.qualifiers = .none ∧ key ≠ .primitive .void .none
  | .derived _ (.pointer q) => q = .none
  | .derived _ .lvalueReference | .derived _ .rvalueReference => True
  | .derived _ (.array _) | .derived _ (.function _ _ _) => False

open Session in
/-- What an analysis checks before it forms a type. -/
def TypeGraph.Operation.IsFormed (g : TypeGraph) : TypeGraph.Operation → Prop
  | .pointer target _ => pointerFault? g target = none
  | .lvalueReference referee | .rvalueReference referee => referenceFault? g referee = none
  | .array element _ => arrayFault? g element = none
  | .function result parameters _ _ =>
    functionFault? g result = none ∧ ∀ p ∈ parameters, ∃ l, g.label? p = some l ∧ l.IsParameter
  | _ => True

/-- The part that a change has in the making of classes. A plain change leaves those that
are complete as they are, and registers no instance. -/
inductive Session.Role where
  | plain
  | making

def Symbol.IsEnumeratorOf (x e : Symbol) : Prop :=
  (∃ value, x.entity = .enumerator value) ∧ e.scope = some x.enclosing

/-- A way in which an analysis changes one symbol. -/
inductive Symbol.Edit (s : Session) (id : SymbolId) (x : Symbol) : Session.Role → Symbol → Prop
  /-- The symbol remembers its type. -/
  | remember (type : TypeId) (unset : x.type = none)
      (label : s.types.label? type = some (.base (.symbol id .none))) :
      Edit s id x .plain { x with type := some type }
  | define : Edit s id x .plain { x with isDefined := true }
  | addBase (data : ClassData) (entity : x.entity = .classType data)
      (undefined : x.isDefined = false) (base : BaseClass)
      (has : s.table.HasSymbol base.symbol)
      (kind : (s.table.symbol base.symbol).kind = .classType) (other : base.symbol ≠ id)
      (complete : s.config.requireCompleteBases = true →
        (s.table.symbol base.symbol).isDefined = true) :
      Edit s id x .plain { x with entity := .classType { data with bases := data.bases ++ [base] } }
  /-- A class gets its key and its members. -/
  | fill (data : ClassData) (entity : x.entity = .classType data) (key : ClassKey)
      (members : List Node) (known : AllKnown s.Known (handlesOfNodes members)) :
      Edit s id x .making { x with entity := .classType { data with key, members } }
  /-- An enum that is not complete gets its enumerators. -/
  | enumerators (data : EnumData) (entity : x.entity = .enumeration data) (ids : List SymbolId)
      (known : ∀ i ∈ ids, s.table.HasSymbol i) (undefined : x.isDefined = false)
      (declared : ∀ i ∈ ids, (s.table.symbol i).IsEnumeratorOf x) :
      Edit s id x .plain { x with entity := .enumeration { data with enumerators := ids } }
  /-- An object gets a value, unless it has one. -/
  | record (data : ObjectData) (entity : x.entity = .object data) (value : Option Constant)
      (free : ¬ (data.value.isSome = true ∧ value.isSome = true))
      (typed : ∀ c, value = some c → c.IsOf (s.types.primitive? data.type)) :
      Edit s id x .plain { x with entity := .object { data with value := value.or data.value } }
  /-- A template takes the defaults of a redeclaration. -/
  | merge (data : TemplateData) (entity : x.entity = .template data)
      (parameters merged : ParameterList) (name : String) (span : Span)
      (known : AllKnown s.Known (parameters.flatMap (·.handles)))
      (eq : data.parameters.merge parameters name span = .ok merged) :
      Edit s id x .plain { x with entity := .template { data with parameters := merged } }
  /-- A new template learns what it is a template of. -/
  | specify (data : TemplateData) (entity : x.entity = .template data)
      (undefined : data.isEntityDefined = false) (templated : TemplatedEntity)
      (kind : templated.kind = data.entity.kind) :
      Edit s id x .plain { x with entity := .template { data with entity := templated } }
  | defineTemplate (data : TemplateData) (entity : x.entity = .template data)
      (undefined : data.isEntityDefined = false) :
      Edit s id x .plain { x with entity := .template { data with isEntityDefined := true } }
  /-- A class template gets the body that its instances are made of. -/
  | pattern (data : TemplateData) (entity : x.entity = .template data)
      (undefined : data.isEntityDefined = false) (kind : data.entity.kind = .classType)
      (body : ClassSpecifier) (known : AllKnown s.Known body.handles) :
      Edit s id x .plain
        { x with
          entity := .template
            { data with
              entity := .classTemplate body.key
              pattern := some body
              isEntityDefined := true } }

/-- Whether an entity is one that a declaration introduces together with the scope of
its kind, with nothing known of it but what the declaration says. -/
def Entity.IsIntroduced : Entity → Prop
  | .nameSpace | .typedef _ | .object _ => True
  | .classType data => data.bases = [] ∧ data.members = [] ∧ data.origin = none
  | .enumeration data => data.enumerators = []
  | .enumerator _ | .function _ | .template _ | .templateParameter _ => False

/-- A way in which an analysis changes a session. -/
inductive Session.Change (s : Session) : Session.Role → Session → Prop
  /-- Declarations go into another scope. -/
  | enter (scope : ScopeId) (has : s.table.HasScope scope) :
      Change s .plain { s with current := scope }
  /-- A type is formed. -/
  | form (op : TypeGraph.Operation) (isOn : op.IsOn s.types)
      (known : ∀ y ∈ op.symbols, s.table.HasSymbol y) (formed : op.IsFormed s.types) :
      Change s .plain { s with types := op.after s.types }
  /-- One symbol changes. -/
  | edit (id : SymbolId) (f : Symbol → Symbol) (has : s.table.HasSymbol id)
      {role : Role} (edit : Symbol.Edit s id (s.table.symbol id) role (f (s.table.symbol id))) :
      Change s role { s with table := s.table.modifySymbol id f }
  /-- An entity is declared under a name that its scope does not have. -/
  | introduce (scope : ScopeId) (name : String) (entity : Entity) (span : Span)
      (has : s.table.HasScope scope) (closed : (s.table.scope scope).isOpenHeader = false)
      (unnamed : (s.table.scope scope).named name = []) (introduced : entity.IsIntroduced)
      (known : AllKnown s.Known entity.handles) (typed : entity.IsTyped s.types) :
      Change s .plain { s with table := (s.table.introduce scope name entity span).2 }
  /-- An overload is declared in a scope whose overloads have other signatures. -/
  | overload (scope : ScopeId) (name : String) (type : TypeId) (signature : String)
      (keywords : KeywordSet) (span : Span) (table : SymbolTable)
      (has : s.table.HasScope scope) (known : s.types.Has type)
      (encoding : s.table.signature? s.types type = some signature)
      (eq : s.table.declareOverload scope name type signature keywords span =
        .ok (⟨s.table.nextSymbol, true⟩, table)) :
      Change s .plain { s with table }
  /-- An instance is registered beside its template, which has none under its key. -/
  | register (template : SymbolId) (data : TemplateData) (keyword : ClassKey) (args : Arguments)
      (shown : String) (span : Span) (has : s.table.HasSymbol template)
      (entity : (s.table.symbol template).entity = .template data)
      (templated : data.entity.kind = .classType)
      (known : AllKnown s.Known (handlesOfArguments args))
      (unknown : s.table.lookupIn (s.table.symbol template).enclosing
        (instanceKey (s.table.typeEncoding s.types) (s.table.symbol template).mangled args)
        (.singleton .classType) = none)
      (typed : data.parameters.Receive args) :
      Change s .making
        { s with
          table := (s.table.declareInstance (s.table.symbol template).enclosing
            (instanceKey (s.table.typeEncoding s.types) (s.table.symbol template).mangled args)
            shown keyword ⟨template, args⟩ span).2 }
  /-- The header of a template is opened. -/
  | openHeader (parameters : ParameterList) (valid : parameters.validate = .ok ())
      (known : AllKnown s.Known (parameters.flatMap (·.handles))) (nonempty : parameters ≠ []) :
      Change s .plain
        { s with
          table := Session.insertParameters s.table.nextScope 0 parameters
            (s.table.pushScope
              { Scope.fresh .templateHeader none (some s.current) with
                pending := some parameters }).2 }
  /-- A template is declared behind its header. -/
  | template (header enclosing : ScopeId) (name : String) (templated : TemplatedEntity)
      (span : Span) (table : SymbolTable) (isOpen : (s.table.scope header).isOpenHeader = true)
      (around : (s.table.scope header).enclosing = some enclosing)
      (unnamed : (s.table.scope enclosing).named name = [])
      (eq : s.table.introduceTemplate header enclosing name templated
        ((s.table.scope header).pending.getD []) span = .ok (⟨s.table.nextSymbol, true⟩, table)) :
      Change s .plain { s with table }
  /-- The parameters of a template become visible in the header of its redeclaration. -/
  | adopt (header own : ScopeId) (existing : SymbolId)
      (isOpen : (s.table.scope header).isOpenHeader = true)
      (scope : (s.table.symbol existing).scope = some own)
      (templated : (s.table.symbol existing).kind = .template) :
      Change s .plain { s with table := (s.table.aliasParameters header own).settleHeader header }
  /-- An enumerator is declared under a name that is free where it becomes visible. -/
  | enumerate (id : SymbolId) (data : EnumData) (site : Session.EnumSite) (name : String)
      (value : Constant) (span : Span) (entity : (s.table.symbol id).entity = .enumeration data)
      (own : (s.table.symbol id).scope = some site.own)
      (around : site.around =
        if data.isScoped then none else some (s.table.symbol id).enclosing)
      (free : site.hasName s.table name = false)
      (underlying : site.underlying = data.underlying.bind s.types.primitive?)
      (typed : value.IsOf site.underlying) :
      Change s .plain { s with table := (site.insert s.table name value span).2 }

abbrev Session.Changes : Session → Session → Prop :=
  Relation.ReflTransGen fun s u => ∃ role, s.Change role u

end TemplateAnalysis
