import Mathlib.Data.List.Forall2
import TemplateAnalysis.SymbolTable.Basic

/-!
# How a symbol table may change

A table grows: symbols and scopes are added at the end, and those that are there
only gain. A symbol keeps its names and its place; a scope keeps its kind and the
scope around it, and its names stay in order. What grows is stated for each part
and put together for the table, with one lemma for each way to change one.
-/

namespace TemplateAnalysis

structure TemplateParameter.Grows (p q : TemplateParameter) : Prop where
  kind : q.kind = p.kind
  valueType : q.valueType = p.valueType
  isPack : q.isPack = p.isPack
  defaultArgument : ∀ node, p.defaultArgument = some node → q.defaultArgument = some node

/-- A template keeps what it is a template of, and its pattern from its definition on; its
parameters may be given defaults. -/
structure TemplateData.Grows (x y : TemplateData) : Prop where
  parameters : List.Forall₂ TemplateParameter.Grows x.parameters y.parameters
  kind : y.entity.kind = x.entity.kind
  defined : x.isEntityDefined = true → y.isEntityDefined = true ∧ y.pattern = x.pattern

/-- An entity stays of its kind. A class gains bases, an object a value, and a
template defaults and a definition; the rest of what it was introduced with stays. -/
inductive Entity.Grows : Entity → Entity → Prop
  | same (e : Entity) : Grows e e
  | classType {data data' : ClassData} (origin : data'.origin = data.origin)
      (bases : data.bases <+: data'.bases) : Grows (.classType data) (.classType data')
  | enumeration {data data' : EnumData} (isScoped : data'.isScoped = data.isScoped)
      (underlying : data'.underlying = data.underlying) :
      Grows (.enumeration data) (.enumeration data')
  | object {data data' : ObjectData} (type : data'.type = data.type)
      (keywords : data'.keywords = data.keywords)
      (value : ∀ c, data.value = some c → data'.value = some c) :
      Grows (.object data) (.object data')
  | template {data data' : TemplateData}
      (parameters : List.Forall₂ TemplateParameter.Grows data.parameters data'.parameters)
      (kind : data'.entity.kind = data.entity.kind)
      (defined : data.isEntityDefined = true →
        data'.isEntityDefined = true ∧ data'.pattern = data.pattern) :
      Grows (.template data) (.template data')

/-- A symbol keeps its names and its place, and what it has been given. -/
structure Symbol.Grows (x y : Symbol) : Prop where
  name : y.name = x.name
  mangled : y.mangled = x.mangled
  fingerprint : y.fingerprint = x.fingerprint
  enclosing : y.enclosing = x.enclosing
  scope : ∀ own, x.scope = some own → y.scope = some own
  type : ∀ type, x.type = some type → y.type = some type
  isDefined : x.isDefined = true → y.isDefined = true
  entity : x.entity.Grows y.entity

/-- A scope keeps its kind and its place. Names are added behind the ones it has, and
only the header of a template gets an owner later. -/
structure Scope.Grows (x y : Scope) : Prop where
  kind : y.kind = x.kind
  enclosing : y.enclosing = x.enclosing
  owner : ∀ id, x.owner = some id → y.owner = some id
  owner_eq : x.kind ≠ .templateHeader → y.owner = x.owner
  bindings : x.bindings <+: y.bindings
  declared : x.declared <+: y.declared
  pending : ∀ ps, y.pending = some ps → x.pending = some ps

/-! ### Growth composes -/

namespace TemplateParameter.Grows

theorem refl (p : TemplateParameter) : p.Grows p := ⟨rfl, rfl, rfl, fun _ h => h⟩

theorem trans {p q r : TemplateParameter} (hpq : p.Grows q) (hqr : q.Grows r) : p.Grows r where
  kind := hqr.kind.trans hpq.kind
  valueType := hqr.valueType.trans hpq.valueType
  isPack := hqr.isPack.trans hpq.isPack
  defaultArgument node h := hqr.defaultArgument node (hpq.defaultArgument node h)

theorem refl_list (ps : ParameterList) : List.Forall₂ TemplateParameter.Grows ps ps :=
  List.forall₂_same.mpr fun p _ => refl p

theorem trans_list {ps qs rs : ParameterList} (hpq : List.Forall₂ TemplateParameter.Grows ps qs)
    (hqr : List.Forall₂ TemplateParameter.Grows qs rs) :
    List.Forall₂ TemplateParameter.Grows ps rs := by
  induction hpq generalizing rs with
  | nil =>
    cases hqr
    exact .nil
  | cons h _ ih =>
    cases hqr with
    | cons h' hrest => exact .cons (h.trans h') (ih hrest)

end TemplateParameter.Grows

theorem TemplateData.Grows.refl (data : TemplateData) : data.Grows data :=
  ⟨TemplateParameter.Grows.refl_list _, rfl, fun h => ⟨h, rfl⟩⟩

namespace Entity.Grows

theorem trans {e f g : Entity} (hef : e.Grows f) (hfg : f.Grows g) : e.Grows g := by
  cases hef with
  | same => exact hfg
  | classType origin bases =>
    cases hfg with
    | same => exact .classType origin bases
    | classType origin' bases' =>
      exact .classType (origin'.trans origin) (bases.trans bases')
  | enumeration isScoped underlying =>
    cases hfg with
    | same => exact .enumeration isScoped underlying
    | enumeration isScoped' underlying' =>
      exact .enumeration (isScoped'.trans isScoped) (underlying'.trans underlying)
  | object type keywords value =>
    cases hfg with
    | same => exact .object type keywords value
    | object type' keywords' value' =>
      exact .object (type'.trans type) (keywords'.trans keywords)
        fun c h => value' c (value c h)
  | template parameters kind defined =>
    cases hfg with
    | same => exact .template parameters kind defined
    | template parameters' kind' defined' =>
      refine .template (TemplateParameter.Grows.trans_list parameters parameters')
        (kind'.trans kind) fun h => ?_
      obtain ⟨hdefined, hpattern⟩ := defined h
      obtain ⟨hdefined', hpattern'⟩ := defined' hdefined
      exact ⟨hdefined', hpattern'.trans hpattern⟩

theorem kind_eq {e f : Entity} (h : e.Grows f) : f.kind = e.kind := by
  cases h <;> rfl

end Entity.Grows

theorem Entity.function_of_kind {e : Entity} (h : e.kind = .function) :
    ∃ data, e = .function data := by
  cases e with
  | function data => exact ⟨data, rfl⟩
  | _ => cases h

theorem Entity.object_of_kind {e : Entity} (h : e.kind = .object) : ∃ data, e = .object data := by
  cases e with
  | object data => exact ⟨data, rfl⟩
  | _ => cases h

namespace Symbol.Grows

theorem refl (x : Symbol) : x.Grows x :=
  ⟨rfl, rfl, rfl, rfl, fun _ h => h, fun _ h => h, fun h => h, .same _⟩

theorem trans {x y z : Symbol} (hxy : x.Grows y) (hyz : y.Grows z) : x.Grows z where
  name := hyz.name.trans hxy.name
  mangled := hyz.mangled.trans hxy.mangled
  fingerprint := hyz.fingerprint.trans hxy.fingerprint
  enclosing := hyz.enclosing.trans hxy.enclosing
  scope own h := hyz.scope own (hxy.scope own h)
  type type h := hyz.type type (hxy.type type h)
  isDefined h := hyz.isDefined (hxy.isDefined h)
  entity := hxy.entity.trans hyz.entity

theorem kind_eq {x y : Symbol} (h : x.Grows y) : y.kind = x.kind := h.entity.kind_eq

theorem enumerator_iff {x y : Symbol} (h : x.Grows y) {value : Constant} :
    y.entity = .enumerator value ↔ x.entity = .enumerator value := by
  have hentity := h.entity
  generalize x.entity = e at hentity
  generalize y.entity = f at hentity
  cases hentity with
  | same => exact .rfl
  | _ => exact ⟨nofun, nofun⟩

theorem function_iff {x y : Symbol} (h : x.Grows y) {data : FunctionData} :
    y.entity = .function data ↔ x.entity = .function data := by
  have hentity := h.entity
  generalize x.entity = e at hentity
  generalize y.entity = f at hentity
  cases hentity with
  | same => exact .rfl
  | _ => exact ⟨nofun, nofun⟩

theorem enumeration_entity {x y : Symbol} (h : x.Grows y) {data : EnumData}
    (hdata : x.entity = .enumeration data) : ∃ data', y.entity = .enumeration data' ∧
      data'.isScoped = data.isScoped ∧ data'.underlying = data.underlying := by
  have hentity := h.entity
  rw [hdata] at hentity
  generalize y.entity = e at hentity
  cases hentity with
  | same => exact ⟨data, rfl, rfl, rfl⟩
  | enumeration isScoped underlying => exact ⟨_, rfl, isScoped, underlying⟩

theorem template_entity {x y : Symbol} (h : x.Grows y) {data : TemplateData}
    (hdata : x.entity = .template data) :
    ∃ data', y.entity = .template data' ∧ data.Grows data' := by
  have hentity := h.entity
  rw [hdata] at hentity
  generalize y.entity = e at hentity
  cases hentity with
  | same => exact ⟨data, rfl, .refl data⟩
  | template parameters kind defined => exact ⟨_, rfl, parameters, kind, defined⟩

theorem of_entity {x : Symbol} {e : Entity} (h : x.entity.Grows e) :
    x.Grows { x with entity := e } :=
  ⟨rfl, rfl, rfl, rfl, fun _ h => h, fun _ h => h, fun h => h, h⟩

theorem of_scope {x : Symbol} (h : x.scope = none) (own : ScopeId) :
    x.Grows { x with scope := some own } := by
  refine ⟨rfl, rfl, rfl, rfl, fun old hold => ?_, fun _ h => h, fun h => h, .same _⟩
  rw [h] at hold
  cases hold

end Symbol.Grows

namespace Scope.Grows

theorem refl (x : Scope) : x.Grows x :=
  ⟨rfl, rfl, fun _ h => h, fun _ => rfl, List.prefix_refl _, List.prefix_refl _, fun _ h => h⟩

theorem trans {x y z : Scope} (hxy : x.Grows y) (hyz : y.Grows z) : x.Grows z where
  kind := hyz.kind.trans hxy.kind
  enclosing := hyz.enclosing.trans hxy.enclosing
  owner id h := hyz.owner id (hxy.owner id h)
  owner_eq h := (hyz.owner_eq (hxy.kind ▸ h)).trans (hxy.owner_eq h)
  bindings := hxy.bindings.trans hyz.bindings
  declared := hxy.declared.trans hyz.declared
  pending ps h := hxy.pending ps (hyz.pending ps h)

theorem named {x y : Scope} (h : x.Grows y) (name : String) :
    x.named name <+: y.named name := by
  unfold Scope.named
  exact (h.bindings.filter _).map _

theorem insert (x : Scope) (key : String) (id : SymbolId) : x.Grows (x.insert key id) :=
  ⟨rfl, rfl, fun _ h => h, fun _ => rfl, List.prefix_append _ _, List.prefix_append _ _,
    fun _ h => h⟩

theorem expose (x : Scope) (key : String) (id : SymbolId) : x.Grows (x.expose key id) := by
  unfold Scope.expose
  split
  · exact refl x
  · exact ⟨rfl, rfl, fun _ h => h, fun _ => rfl, List.prefix_append _ _, List.prefix_refl _,
      fun _ h => h⟩

theorem settle (x : Scope) : x.Grows { x with pending := none } :=
  ⟨rfl, rfl, fun _ h => h, fun _ => rfl, List.prefix_refl _, List.prefix_refl _,
    fun _ h => by cases h⟩

end Scope.Grows

namespace SymbolTable

variable {t u : SymbolTable}

def HasSymbol (t : SymbolTable) (id : SymbolId) : Prop := id.index < t.symbolCount

def HasScope (t : SymbolTable) (id : ScopeId) : Prop := id.index < t.scopeCount

def IsClass (t : SymbolTable) (id : SymbolId) : Prop :=
  t.HasSymbol id ∧ (t.symbol id).kind = .classType

instance (t : SymbolTable) (id : SymbolId) : Decidable (t.HasSymbol id) :=
  inferInstanceAs (Decidable (id.index < t.symbolCount))

instance (t : SymbolTable) (id : ScopeId) : Decidable (t.HasScope id) :=
  inferInstanceAs (Decidable (id.index < t.scopeCount))

/-- Every symbol and every scope of the first table is in the second and has grown. -/
structure Grows (t u : SymbolTable) : Prop where
  hasSymbol : ∀ id, t.HasSymbol id → u.HasSymbol id
  hasScope : ∀ id, t.HasScope id → u.HasScope id
  symbol : ∀ id, t.HasSymbol id → (t.symbol id).Grows (u.symbol id)
  scope : ∀ id, t.HasScope id → (t.scope id).Grows (u.scope id)

namespace Grows

theorem refl (t : SymbolTable) : t.Grows t :=
  ⟨fun _ h => h, fun _ h => h, fun _ _ => .refl _, fun _ _ => .refl _⟩

theorem trans {v : SymbolTable} (htu : t.Grows u) (huv : u.Grows v) : t.Grows v where
  hasSymbol id h := huv.hasSymbol id (htu.hasSymbol id h)
  hasScope id h := huv.hasScope id (htu.hasScope id h)
  symbol id h := (htu.symbol id h).trans (huv.symbol id (htu.hasSymbol id h))
  scope id h := (htu.scope id h).trans (huv.scope id (htu.hasScope id h))

end Grows

theorem Grows.isClass (h : t.Grows u) {id : SymbolId} (hid : t.IsClass id) : u.IsClass id :=
  ⟨h.hasSymbol id hid.1, (h.symbol id hid.1).kind_eq.trans hid.2⟩

theorem IsClass.entity {id : SymbolId} (h : t.IsClass id) :
    ∃ data, (t.symbol id).entity = .classType data := by
  obtain ⟨_, hkind⟩ := h
  rw [Symbol.kind] at hkind
  cases he : (t.symbol id).entity with
  | classType data => exact ⟨data, rfl⟩
  | _ =>
    rw [he] at hkind
    cases hkind

/-! ### Reading a changed table -/

section Reading

variable (t : SymbolTable)

@[simp] theorem hasSymbol_modifySymbol (id j : SymbolId) (f : Symbol → Symbol) :
    (t.modifySymbol id f).HasSymbol j ↔ t.HasSymbol j := by
  simp [HasSymbol, symbolCount, modifySymbol]

@[simp] theorem hasScope_modifySymbol (id : SymbolId) (j : ScopeId) (f : Symbol → Symbol) :
    (t.modifySymbol id f).HasScope j ↔ t.HasScope j := Iff.rfl

@[simp] theorem hasScope_modifyScope (id j : ScopeId) (f : Scope → Scope) :
    (t.modifyScope id f).HasScope j ↔ t.HasScope j := by
  simp [HasScope, scopeCount, modifyScope]

@[simp] theorem hasSymbol_modifyScope (id : ScopeId) (j : SymbolId) (f : Scope → Scope) :
    (t.modifyScope id f).HasSymbol j ↔ t.HasSymbol j := Iff.rfl

@[simp] theorem scope_modifySymbol (id : SymbolId) (j : ScopeId) (f : Symbol → Symbol) :
    (t.modifySymbol id f).scope j = t.scope j := rfl

@[simp] theorem symbol_modifyScope (id : ScopeId) (j : SymbolId) (f : Scope → Scope) :
    (t.modifyScope id f).symbol j = t.symbol j := rfl

theorem symbol_modifySymbol (id j : SymbolId) (f : Symbol → Symbol) :
    (t.modifySymbol id f).symbol j =
      if j = id ∧ t.HasSymbol j then f (t.symbol j) else t.symbol j := by
  obtain ⟨i⟩ := id
  obtain ⟨j⟩ := j
  simp only [symbol, modifySymbol, Array.getElem?_modify, SymbolId.mk.injEq, HasSymbol,
    symbolCount]
  by_cases hj : j < t.symbols.size
  · by_cases hij : i = j
    · simp [hij, hj]
    · simp [hij, hj, Ne.symm hij]
  · simp [hj]

theorem scope_modifyScope (id j : ScopeId) (f : Scope → Scope) :
    (t.modifyScope id f).scope j =
      if j = id ∧ t.HasScope j then f (t.scope j) else t.scope j := by
  obtain ⟨i⟩ := id
  obtain ⟨j⟩ := j
  simp only [scope, modifyScope, Array.getElem?_modify, ScopeId.mk.injEq, HasScope,
    scopeCount]
  by_cases hj : j < t.scopes.size
  · by_cases hij : i = j
    · simp [hij, hj]
    · simp [hij, hj, Ne.symm hij]
  · simp [hj]

theorem symbol_modifySymbol_self {id : SymbolId} (h : t.HasSymbol id) (f : Symbol → Symbol) :
    (t.modifySymbol id f).symbol id = f (t.symbol id) := by
  rw [symbol_modifySymbol, if_pos ⟨rfl, h⟩]

def nextSymbol : SymbolId := ⟨t.symbolCount⟩

def nextScope : ScopeId := ⟨t.scopeCount⟩

@[simp] theorem pushScope_fst (x : Scope) : (t.pushScope x).1 = t.nextScope := rfl

@[simp] theorem hasSymbol_pushSymbol (key : String) (x : Symbol) (j : SymbolId) :
    (t.pushSymbol key x).2.HasSymbol j ↔ t.HasSymbol j ∨ j = t.nextSymbol := by
  obtain ⟨j⟩ := j
  simp only [pushSymbol, HasSymbol, symbolCount, modifyScope, Array.size_push, nextSymbol,
    SymbolId.mk.injEq]
  omega

@[simp] theorem hasScope_pushSymbol (key : String) (x : Symbol) (j : ScopeId) :
    (t.pushSymbol key x).2.HasScope j ↔ t.HasScope j := by
  simp [pushSymbol, HasScope, scopeCount, modifyScope]

theorem symbol_pushSymbol (key : String) (x : Symbol) (j : SymbolId) :
    (t.pushSymbol key x).2.symbol j = if j = t.nextSymbol then x else t.symbol j := by
  obtain ⟨j⟩ := j
  simp only [pushSymbol, symbol, modifyScope, Array.getElem?_push, nextSymbol, symbolCount,
    SymbolId.mk.injEq]
  split <;> rfl

theorem scope_pushSymbol (key : String) (x : Symbol) (j : ScopeId) :
    (t.pushSymbol key x).2.scope j =
      if j = x.enclosing ∧ t.HasScope j then (t.scope j).insert key t.nextSymbol
      else t.scope j :=
  scope_modifyScope _ _ _ _

@[simp] theorem hasSymbol_pushScope (x : Scope) (j : SymbolId) :
    (t.pushScope x).2.HasSymbol j ↔ t.HasSymbol j := Iff.rfl

@[simp] theorem hasScope_pushScope (x : Scope) (j : ScopeId) :
    (t.pushScope x).2.HasScope j ↔ t.HasScope j ∨ j = t.nextScope := by
  obtain ⟨j⟩ := j
  simp only [pushScope, HasScope, scopeCount, Array.size_push, nextScope, ScopeId.mk.injEq]
  omega

@[simp] theorem symbol_pushScope (x : Scope) (j : SymbolId) :
    (t.pushScope x).2.symbol j = t.symbol j := rfl

theorem scope_pushScope (x : Scope) (j : ScopeId) :
    (t.pushScope x).2.scope j = if j = t.nextScope then x else t.scope j := by
  obtain ⟨j⟩ := j
  simp only [pushScope, scope, Array.getElem?_push, nextScope, scopeCount, ScopeId.mk.injEq]
  split <;> rfl

theorem not_hasSymbol_nextSymbol : ¬ t.HasSymbol t.nextSymbol := Nat.lt_irrefl _

theorem not_hasScope_nextScope : ¬ t.HasScope t.nextScope := Nat.lt_irrefl _

end Reading

/-! ### Every change grows the table -/

namespace Grows

theorem modifySymbol {id : SymbolId} {f : Symbol → Symbol}
    (h : t.HasSymbol id → (t.symbol id).Grows (f (t.symbol id))) :
    t.Grows (t.modifySymbol id f) where
  hasSymbol j hj := (t.hasSymbol_modifySymbol id j f).mpr hj
  hasScope _ hj := hj
  symbol j hj := by
    rw [symbol_modifySymbol]
    split
    · rename_i hid
      obtain ⟨rfl, _⟩ := hid
      exact h hj
    · exact .refl _
  scope j _ := .refl _

theorem modifyScope {id : ScopeId} {f : Scope → Scope}
    (h : t.HasScope id → (t.scope id).Grows (f (t.scope id))) : t.Grows (t.modifyScope id f) where
  hasSymbol _ hj := hj
  hasScope j hj := (t.hasScope_modifyScope id j f).mpr hj
  symbol _ _ := .refl _
  scope j hj := by
    rw [scope_modifyScope]
    split
    · rename_i hid
      obtain ⟨rfl, _⟩ := hid
      exact h hj
    · exact .refl _

theorem pushSymbol (t : SymbolTable) (key : String) (x : Symbol) :
    t.Grows (t.pushSymbol key x).2 where
  hasSymbol j hj := (t.hasSymbol_pushSymbol key x j).mpr (.inl hj)
  hasScope j hj := (t.hasScope_pushSymbol key x j).mpr hj
  symbol j hj := by
    rw [symbol_pushSymbol, if_neg]
    · exact .refl _
    · rintro rfl
      exact t.not_hasSymbol_nextSymbol hj
  scope j _ := by
    rw [scope_pushSymbol]
    split
    · exact .insert _ _ _
    · exact .refl _

theorem pushScope (t : SymbolTable) (x : Scope) : t.Grows (t.pushScope x).2 where
  hasSymbol _ hj := hj
  hasScope j hj := (t.hasScope_pushScope x j).mpr (.inl hj)
  symbol _ _ := .refl _
  scope j hj := by
    rw [scope_pushScope, if_neg]
    · exact .refl _
    · rintro rfl
      exact t.not_hasScope_nextScope hj

theorem expose (t : SymbolTable) (scope : ScopeId) (name : String) (id : SymbolId) :
    t.Grows (t.expose scope name id) :=
  modifyScope fun _ => .expose _ _ _

theorem pushOwnScope {id : SymbolId} (h : (t.symbol id).scope = none) (kind : ScopeKind)
    (enclosing : ScopeId) : t.Grows (t.pushOwnScope id kind enclosing) :=
  (pushScope t _).trans (modifySymbol fun _ => .of_scope h _)

end Grows

end SymbolTable

end TemplateAnalysis
