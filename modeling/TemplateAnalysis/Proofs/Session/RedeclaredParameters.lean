import Mathlib.Data.List.Find
import TemplateAnalysis.Proofs.Session.Cursor
import TemplateAnalysis.Proofs.Session.OneEntity

/-!
# The names of a redeclaration

The header of a redeclaration declares the named parameters of a list, in order. Each of
them makes the parameter at its position in another header, if there is one, visible under
its name. A lookup in that other header still finds first what it found before.
-/

namespace TemplateAnalysis

open Session Analysis

def ParameterList.HasDistinctNames (ps : ParameterList) : Prop :=
  ps.Pairwise fun p q => p.name = q.name → p.name = ""

instance (ps : ParameterList) : Decidable ps.HasDistinctNames :=
  inferInstanceAs (Decidable (ps.Pairwise _))

namespace ParameterList

variable {ps : ParameterList} {p q : TemplateParameter} {i j index : Nat}

theorem HasDistinctNames.index_eq (h : ps.HasDistinctNames) (hp : ps[i]? = some p)
    (hq : ps[j]? = some q) (hname : p.name = q.name) (hne : p.name ≠ "") : i = j := by
  obtain ⟨hi, rfl⟩ := List.getElem?_eq_some_iff.mp hp
  obtain ⟨hj, rfl⟩ := List.getElem?_eq_some_iff.mp hq
  have hlt := List.pairwise_iff_getElem.mp h
  rcases Nat.lt_trichotomy i j with hij | hij | hij
  · exact absurd (hlt i j hi hj hij hname) hne
  · exact hij
  · exact absurd (hname.trans (hlt j i hj hi hij hname.symm)) hne

def named (ps : ParameterList) (index : Nat) : List (TemplateParameter × Nat) :=
  (ps.zipIdx index).filter fun q => !q.1.name.isEmpty

theorem named_cons_of_empty {rest : ParameterList} (hp : p.name.isEmpty = true) (index : Nat) :
    named (p :: rest) index = named rest (index + 1) := by
  simp [named, List.zipIdx_cons, hp]

theorem named_cons_of_nonempty {rest : ParameterList} (hp : p.name.isEmpty = false)
    (index : Nat) : named (p :: rest) index = (p, index) :: named rest (index + 1) := by
  simp [named, List.zipIdx_cons, hp]

theorem mem_named : (p, i) ∈ ps.named 0 ↔ ps[i]? = some p ∧ p.name ≠ "" := by
  simp [named, List.mem_zipIdx_iff_getElem?]

end ParameterList

namespace SymbolTable

variable {t u : SymbolTable} {header own : ScopeId}

/-! ### Parameters by position -/

def parameterAt (t : SymbolTable) (scope : ScopeId) (index : Nat) : Option SymbolId :=
  (t.scope scope).declared.find? fun id => t.parameterIndex? id == some index

theorem parameterIndex?_of_parameterAt {scope : ScopeId} {index : Nat} {id : SymbolId}
    (h : t.parameterAt scope index = some id) : t.parameterIndex? id = some index := by
  simpa using List.find?_some h

theorem kind_of_parameterIndex? {id : SymbolId} {index : Nat}
    (h : t.parameterIndex? id = some index) : (t.symbol id).kind = .templateParameter := by
  rw [parameterIndex?] at h
  rw [Symbol.kind]
  cases hentity : (t.symbol id).entity with
  | templateParameter data => rfl
  | _ =>
    rw [hentity] at h
    cases h

theorem Grows.parameterIndex?_eq (h : t.Grows u) {id : SymbolId} (hid : t.HasSymbol id) :
    u.parameterIndex? id = t.parameterIndex? id := by
  have hentity := (h.symbol id hid).entity
  rw [parameterIndex?, parameterIndex?]
  generalize (t.symbol id).entity = e at hentity
  generalize (u.symbol id).entity = f at hentity
  cases hentity <;> rfl

theorem Grows.parameterAt_eq (h : t.Grows u) (ht : t.Linked) {scope : ScopeId}
    (hscope : u.scope scope = t.scope scope) (index : Nat) :
    u.parameterAt scope index = t.parameterAt scope index := by
  rw [parameterAt, parameterAt, hscope]
  refine List.find?_congr fun id hid => ?_
  rw [h.parameterIndex?_eq (ht.declared_has scope id hid)]

theorem Grows.lookupIn_of_scope_eq (h : t.Grows u) (ht : t.Linked) {scope : ScopeId}
    (hscope : u.scope scope = t.scope scope) (name : String) (accepted : KindSet) :
    u.lookupIn scope name accepted = t.lookupIn scope name accepted := by
  rw [lookupIn, lookupIn, hscope]
  refine List.find?_congr fun id hid => ?_
  rw [(h.symbol id (ht.named_has hid)).kind_eq]

/-! ### A header of parameters -/

structure IsParameter (t : SymbolTable) (id : SymbolId) (q : TemplateParameter × Nat) : Prop where
  nonempty : q.1.name.isEmpty = false
  name : (t.symbol id).name = q.1.name
  index : t.parameterIndex? id = some q.2

/-- A header gets the parameters that have names. -/
theorem exists_declared_insertParameters (ps : ParameterList) :
    ∀ (index : Nat) (t : SymbolTable), t.HasScope header →
      ∃ ids, ((Session.insertParameters header index ps t).scope header).declared =
          (t.scope header).declared ++ ids ∧
        List.Forall₂ (Session.insertParameters header index ps t).IsParameter ids
          (ps.named index) := by
  induction ps with
  | nil => exact fun _ _ _ => ⟨[], (List.append_nil _).symm, .nil⟩
  | cons p rest ih =>
    intro index t hheader
    rw [Session.insertParameters]
    cases hp : p.name.isEmpty with
    | true =>
      obtain ⟨ids, hdeclared, hids⟩ := ih (index + 1) t hheader
      rw [ParameterList.named_cons_of_empty hp]
      exact ⟨ids, hdeclared, hids⟩
    | false =>
      rw [ParameterList.named_cons_of_nonempty hp]
      let v := (t.insertEntity header p.name (.templateParameter ⟨index, p.kind, p.isPack⟩)
        p.span).2
      obtain ⟨ids, hdeclared, hids⟩ := ih (index + 1) v ((t.hasScope_pushSymbol _ _ _).mpr hheader)
      have hgrows := grows_insertParameters header rest (index + 1) v
      have hnew : v.HasSymbol t.nextSymbol := (t.hasSymbol_pushSymbol _ _ _).mpr (.inr rfl)
      have hsymbol : v.symbol t.nextSymbol = _ := t.symbol_insertEntity header p.name _ p.span
      have hscope : v.scope header = (t.scope header).insert p.name t.nextSymbol :=
        (t.scope_pushSymbol _ _ _).trans (if_pos ⟨rfl, hheader⟩)
      refine ⟨t.nextSymbol :: ids, ?_, .cons ⟨hp, ?_, ?_⟩ hids⟩
      · refine hdeclared.trans ?_
        rw [hscope, Scope.declared_insert, List.append_assoc, List.singleton_append]
      · rw [if_neg Bool.false_ne_true, (hgrows.symbol _ hnew).name, hsymbol]
      · rw [if_neg Bool.false_ne_true, hgrows.parameterIndex?_eq hnew, parameterIndex?, hsymbol]
        rfl

/-- A parameter with a name gives it to the one at its position in the other header. -/
def aliasAt (t : SymbolTable) (other : ScopeId) (q : TemplateParameter × Nat) :
    Option (String × SymbolId) := (t.parameterAt other q.2).map (q.1.name, ·)

theorem parameterAliases_eq {qs : List (TemplateParameter × Nat)}
    (hdeclared : List.Forall₂ t.IsParameter (t.scope header).declared qs) (other : ScopeId) :
    t.parameterAliases header other = qs.filterMap (t.aliasAt other) := by
  rw [parameterAliases]
  generalize (t.scope header).declared = ids at hdeclared
  induction hdeclared with
  | nil => rfl
  | @cons id q ids qs hq _ ih =>
    rw [List.filterMap_cons, List.filterMap_cons, ih]
    have hhead : (do
        let index ← t.parameterIndex? id
        let target ← (t.scope other).declared.find? fun old => t.parameterIndex? old == some index
        if (t.symbol id).name.isEmpty then none else some ((t.symbol id).name, target)) =
        t.aliasAt other q := by
      rw [hq.index, hq.name, aliasAt, parameterAt]
      simp only [hq.nonempty, Option.bind_eq_bind, Option.bind_some, Bool.false_eq_true, if_false]
      cases (t.scope other).declared.find? fun old => t.parameterIndex? old == some q.2 <;> rfl
    rw [hhead]

theorem find?_filterMap_of_unique {α β : Type} {xs : List α} {g : α → Option β} {k : β → Bool}
    {x : α} (hx : x ∈ xs) (hkey : ∀ b, g x = some b → k b = true)
    (hunique : ∀ y ∈ xs, ∀ b, g y = some b → k b = true → y = x) :
    (xs.filterMap g).find? k = g x := by
  cases hfind : (xs.filterMap g).find? k with
  | none =>
    cases hg : g x with
    | none => rfl
    | some b =>
      exact absurd (hkey b hg) (List.find?_eq_none.mp hfind b (List.mem_filterMap.mpr ⟨x, hx, hg⟩))
  | some b =>
    obtain ⟨y, hy, hg⟩ := List.mem_filterMap.mp (List.mem_of_find?_eq_some hfind)
    rw [← hunique y hy b hg (List.find?_some hfind), hg]

theorem aliasAt_eq_some {other : ScopeId} {q : TemplateParameter × Nat} {b : String × SymbolId} :
    t.aliasAt other q = some b ↔ b.1 = q.1.name ∧ t.parameterAt other q.2 = some b.2 := by
  rw [aliasAt, Option.map_eq_some_iff]
  constructor
  · rintro ⟨id, hid, rfl⟩
    exact ⟨rfl, hid⟩
  · rintro ⟨hname, hid⟩
    exact ⟨b.2, hid, hname ▸ rfl⟩

/-- Among parameters with different names, the first that gives a name is the one that has
it. -/
theorem find?_aliases {ps : ParameterList} (hdistinct : ps.HasDistinctNames) {i : Nat}
    {p : TemplateParameter} (hp : ps[i]? = some p) (hne : p.name ≠ "") (other : ScopeId) :
    ((ps.named 0).filterMap (t.aliasAt other)).find? (·.1 == p.name) = t.aliasAt other (p, i) := by
  refine find?_filterMap_of_unique (ParameterList.mem_named.mpr ⟨hp, hne⟩) (fun b hb => ?_) ?_
  · exact beq_iff_eq.mpr (aliasAt_eq_some.mp hb).1
  · rintro ⟨q, j⟩ hq b hb hkey
    obtain ⟨hq, hqne⟩ := ParameterList.mem_named.mp hq
    have hname : q.name = p.name := (aliasAt_eq_some.mp hb).1.symm.trans (beq_iff_eq.mp hkey)
    obtain rfl := hdistinct.index_eq hq hp hname hqne
    cases hq.symm.trans hp
    rfl

/-! ### Lookups behind aliases -/

theorem symbol_foldl_expose (aliases : List (String × SymbolId)) (scope : ScopeId) :
    ∀ (t : SymbolTable) (id : SymbolId),
      (aliases.foldl (fun t (name, target) => t.expose scope name target) t).symbol id =
        t.symbol id := by
  induction aliases with
  | nil => exact fun _ _ => rfl
  | cons b rest ih => exact fun t id => ih _ id

/-- A symbol that becomes visible under a name is found behind what is found there already. -/
theorem lookupIn_expose {scope : ScopeId} (hscope : t.HasScope scope) (key name : String)
    {id : SymbolId} {accepted : KindSet} (hkind : accepted.accepts (t.symbol id).kind = true) :
    (t.expose scope key id).lookupIn scope name accepted =
      (t.lookupIn scope name accepted).or (if key == name then some id else none) := by
  have hsymbol : ∀ y, (t.expose scope key id).symbol y = t.symbol y := fun _ => rfl
  simp only [lookupIn, hsymbol, named_expose]
  by_cases hkey : key = name
  · subst hkey
    by_cases hmem : id ∈ (t.scope scope).named key
    · rw [if_neg fun h => h.2.2 hmem, if_pos (beq_self_eq_true key)]
      have hfound : (((t.scope scope).named key).find? fun y =>
          accepted.accepts (t.symbol y).kind).isSome = true :=
        List.find?_isSome.mpr ⟨id, hmem, hkind⟩
      obtain ⟨y, hy⟩ := Option.isSome_iff_exists.mp hfound
      rw [hy, Option.some_or]
    · rw [if_pos ⟨⟨trivial, hscope⟩, rfl, hmem⟩, if_pos (beq_self_eq_true key), List.find?_append,
        List.find?_singleton, hkind, if_pos rfl]
  · rw [if_neg fun h => hkey h.2.1, if_neg (by simpa using hkey), Option.or_none]

/-- Symbols that become visible one after the other: the first under a name is found. -/
theorem lookupIn_foldl_expose {scope : ScopeId} (name : String) {accepted : KindSet} :
    ∀ (aliases : List (String × SymbolId)) {t : SymbolTable}, t.HasScope scope →
      (∀ b ∈ aliases, accepted.accepts (t.symbol b.2).kind = true) →
      (aliases.foldl (fun t (name, target) => t.expose scope name target) t).lookupIn scope name
          accepted =
        (t.lookupIn scope name accepted).or ((aliases.find? (·.1 == name)).map (·.2))
  | [], _, _, _ => (Option.or_none).symm
  | (key, id) :: rest, t, hscope, hkinds => by
    have hexpose := lookupIn_expose hscope key name (hkinds _ List.mem_cons_self)
    have hrest := lookupIn_foldl_expose name rest
      (show (t.expose scope key id).HasScope scope from (t.hasScope_modifyScope _ _ _).mpr hscope)
      fun b hb => hkinds b (List.mem_cons_of_mem _ hb)
    refine hrest.trans ?_
    rw [hexpose, Option.or_assoc, List.find?_cons]
    cases key == name <;> rfl

/-- The name of a parameter in a header that gives its names to another: what the name stood for
there, or else the parameter at the same position. -/
theorem lookupIn_aliasParameters {ps : ParameterList} (hown : t.HasScope own)
    (hdeclared : List.Forall₂ t.IsParameter (t.scope header).declared (ps.named 0))
    (hdistinct : ps.HasDistinctNames) {i : Nat} {p : TemplateParameter} (hp : ps[i]? = some p)
    (hne : p.name ≠ "") :
    (t.aliasParameters header own).lookupIn own p.name (.singleton .templateParameter) =
      (t.lookupIn own p.name (.singleton .templateParameter)).or (t.parameterAt own i) := by
  rw [aliasParameters, parameterAliases_eq hdeclared, lookupIn_foldl_expose p.name _ hown,
    find?_aliases hdistinct hp hne, aliasAt, Option.map_map]
  · exact congrArg _ Option.map_id'
  · intro b hb
    obtain ⟨q, _, hq⟩ := List.mem_filterMap.mp hb
    have hindex := parameterIndex?_of_parameterAt (aliasAt_eq_some.mp hq).2
    rw [KindSet.accepts_singleton, kind_of_parameterIndex? hindex]
    exact decide_eq_true rfl

theorem symbol_modifyTemplate (t : SymbolTable) (id : SymbolId) (f : TemplateData → TemplateData)
    (j : SymbolId) : ∃ e : Entity,
      (t.modifyTemplate id f).symbol j = { t.symbol j with entity := e } ∧
      e.kind = (t.symbol j).kind ∧ e.parameter? = (t.symbol j).entity.parameter? := by
  rw [modifyTemplate, symbol_modifySymbol]
  split
  · rcases hx : t.symbol j with ⟨_, _, _, _, _, _, _, _, entity⟩
    cases entity <;> exact ⟨_, rfl, rfl, rfl⟩
  · exact ⟨_, rfl, rfl, rfl⟩

theorem parameterIndex?_modifyTemplate (t : SymbolTable) (id : SymbolId)
    (f : TemplateData → TemplateData) (j : SymbolId) :
    (t.modifyTemplate id f).parameterIndex? j = t.parameterIndex? j := by
  obtain ⟨e, he, _, hparameter⟩ := t.symbol_modifyTemplate id f j
  rw [parameterIndex?, parameterIndex?, he, hparameter]

theorem IsParameter.modifyTemplate {y : SymbolId} {q : TemplateParameter × Nat}
    (h : t.IsParameter y q) (id : SymbolId) (f : TemplateData → TemplateData) :
    (t.modifyTemplate id f).IsParameter y q where
  nonempty := h.nonempty
  name := by
    obtain ⟨e, he, _⟩ := t.symbol_modifyTemplate id f y
    rw [he]
    exact h.name
  index := (t.parameterIndex?_modifyTemplate id f y).trans h.index

theorem lookupIn_modifyTemplate (t : SymbolTable) (id : SymbolId) (f : TemplateData → TemplateData)
    (scope : ScopeId) (name : String) (accepted : KindSet) :
    (t.modifyTemplate id f).lookupIn scope name accepted = t.lookupIn scope name accepted := by
  rw [lookupIn, lookupIn]
  refine List.find?_congr fun y _ => ?_
  obtain ⟨e, he, hkind, _⟩ := t.symbol_modifyTemplate id f y
  rw [he, Symbol.kind, hkind]

theorem parameterAt_modifyTemplate (t : SymbolTable) (id : SymbolId)
    (f : TemplateData → TemplateData) (scope : ScopeId) (index : Nat) :
    (t.modifyTemplate id f).parameterAt scope index = t.parameterAt scope index := by
  rw [parameterAt, parameterAt]
  refine List.find?_congr fun y _ => ?_
  rw [parameterIndex?_modifyTemplate]

theorem lookupIn_settleHeader (t : SymbolTable) (header scope : ScopeId) (name : String)
    (accepted : KindSet) :
    (t.settleHeader header).lookupIn scope name accepted = t.lookupIn scope name accepted := by
  rw [lookupIn, lookupIn, named_settleHeader]
  rfl

/-! ### A template that is declared again -/

/-- What a template takes from a redeclaration behind a header: defaults, and names. -/
def mergeTemplate (t : SymbolTable) (header own : ScopeId) (id : SymbolId)
    (merged : ParameterList) : SymbolTable :=
  ((t.modifyTemplate id fun data => { data with parameters := merged }).aliasParameters header
    own).settleHeader header

theorem symbol_mergeTemplate (t : SymbolTable) (header own : ScopeId) (id : SymbolId)
    (merged : ParameterList) (j : SymbolId) : (t.mergeTemplate header own id merged).symbol j =
      (t.modifyTemplate id fun data => { data with parameters := merged }).symbol j :=
  symbol_foldl_expose _ own _ j

theorem scope_symbol_mergeTemplate (t : SymbolTable) (header own : ScopeId) (id : SymbolId)
    (merged : ParameterList) (j : SymbolId) :
    ((t.mergeTemplate header own id merged).symbol j).scope = (t.symbol j).scope := by
  obtain ⟨e, he, _⟩ := t.symbol_modifyTemplate id (fun data => { data with parameters := merged }) j
  rw [symbol_mergeTemplate, he]

theorem scope_mergeTemplate_of_ne (t : SymbolTable) {header own j : ScopeId} (hheader : j ≠ header)
    (hown : j ≠ own) (id : SymbolId) (merged : ParameterList) :
    (t.mergeTemplate header own id merged).scope j = t.scope j := by
  rw [mergeTemplate, settleHeader, scope_modifyScope, if_neg fun h => hheader h.1]
  exact scope_foldl_expose_of_ne hown _ _

theorem lookupIn_mergeTemplate {ps : ParameterList} (hown : t.HasScope own)
    (hdeclared : List.Forall₂ t.IsParameter (t.scope header).declared (ps.named 0))
    (hdistinct : ps.HasDistinctNames) {i : Nat} {p : TemplateParameter} (hp : ps[i]? = some p)
    (hne : p.name ≠ "") (id : SymbolId) (merged : ParameterList) :
    (t.mergeTemplate header own id merged).lookupIn own p.name (.singleton .templateParameter) =
      (t.lookupIn own p.name (.singleton .templateParameter)).or (t.parameterAt own i) := by
  let u := t.modifyTemplate id fun data => { data with parameters := merged }
  have hdeclared' : List.Forall₂ u.IsParameter (u.scope header).declared (ps.named 0) :=
    hdeclared.imp fun _ _ h => h.modifyTemplate id _
  have hown' : u.HasScope own := hown
  rw [mergeTemplate, lookupIn_settleHeader,
    lookupIn_aliasParameters hown' hdeclared' hdistinct hp hne, lookupIn_modifyTemplate,
    parameterAt_modifyTemplate]

/-- Where a scope and all older ones are as they were, a lookup finds what it found. -/
theorem Grows.lookup_eq_of_older (h : t.Grows u) (ht : t.Linked) (hu : u.Linked) {scope : ScopeId}
    (hscopes : ∀ j : ScopeId, j.index ≤ scope.index → u.scope j = t.scope j) (name : String)
    (accepted : KindSet) : u.lookup scope name accepted = t.lookup scope name accepted := by
  induction hindex : scope.index using Nat.strong_induction_on generalizing scope with
  | _ n ih =>
    have hscope := hscopes scope (Nat.le_refl _)
    rw [lookup_eq hu, lookup_eq ht, h.lookupIn_of_scope_eq ht hscope, hscope]
    cases he : (t.scope scope).enclosing with
    | none => rfl
    | some around =>
      have hlt := ht.enclosing_lt scope around he
      have haround : u.lookup around name accepted = t.lookup around name accepted :=
        ih around.index (hindex ▸ hlt) (fun j hj => hscopes j (by omega)) rfl
      rw [Option.bind_some, Option.bind_some, haround]

end SymbolTable

/-! ### Sessions -/

section Steps

variable {s u v : Session} {parameters : ParameterList} {header : ScopeId} {name : String}
  {key : ClassKey} {span : Span} {id : SymbolId}

def Session.openHeader (s : Session) (parameters : ParameterList) : Session :=
  { s with
    table := insertParameters s.table.nextScope 0 parameters
      (s.table.pushScope
        { Scope.fresh .templateHeader none (some s.current) with pending := some parameters }).2
    current := s.table.nextScope }

theorem exec_beginTemplate_eq_ok (h : exec (beginTemplate parameters span) s = (.ok header, u)) :
    header = s.table.nextScope ∧ u = s.openHeader parameters := by
  rw [beginTemplate] at h
  split at h
  · rw [exec_throw_bind] at h
    cases h
  · rw [exec_get_bind] at h
    dsimp only at h
    split at h
    · rw [exec_throw_bind] at h
      cases h
    · cases hvalid : parameters.validate with
      | error d =>
        rw [hvalid] at h
        cases h
      | ok _ =>
        rw [hvalid] at h
        cases h
        exact ⟨rfl, rfl⟩

theorem exec_enterTemplate_again {own : ScopeId} (hown : (s.table.symbol id).scope = some own)
    (entity : TemplatedEntity) (span : Span) :
    exec (enterTemplate ⟨id, false⟩ entity false span) s = (.ok (), { s with current := own }) := by
  rw [enterTemplate_eq, ownScope, bind_assoc, exec_symbol_bind, hown]
  rfl

/-- A template that stands around the current header has been declared again behind it, and the
session goes on inside of the template. -/
structure Session.Redeclares (s : Session) (name : String) (id : SymbolId) (around own : ScopeId)
    (u : Session) : Prop where
  enclosing : (s.table.scope s.current).enclosing = some around
  found : id ∈ (s.table.scope around).named name
  kind : (s.table.symbol id).kind = .template
  scope : (s.table.symbol id).scope = some own
  eq : ∃ merged, u =
    { s with table := s.table.mergeTemplate s.current own id merged, current := own }

/-- Behind an open header, a class that was there before is a template that is declared again. -/
theorem redeclares_of_declareClass (hopen : ¬ s.IsOutside)
    (h : exec (declareClass name key span) s = (.ok id, u)) (hold : s.table.HasSymbol id) :
    ∃ around own, s.Redeclares name id around own u := by
  rw [exec_declareClass_behind hopen, declareHeaderEntity, exec_get_bind] at h
  obtain ⟨declared, w, hdeclare, h⟩ := exec_bind_eq_ok.mp h
  obtain ⟨_, w', henter, h⟩ := exec_bind_eq_ok.mp h
  cases h
  rw [exec_onTable, SymbolTable.exec_declareTemplate] at hdeclare
  split at hdeclare
  · cases hdeclare
  · cases hdeclare
  · rename_i around _ haround
    split at hdeclare
    · rename_i existing rest hnamed
      rw [SymbolTable.exec_redeclareTemplate] at hdeclare
      split at hdeclare
      · cases hdeclare
      · rename_i data own hfound
        obtain ⟨hdata, _, hown⟩ := redeclaredTemplate_eq hfound
        split at hdeclare
        · cases hdeclare
        · rename_i merged _
          dsimp only at hdeclare
          split at hdeclare
          · cases hdeclare
          · cases hdeclare
            have hagain := exec_enterTemplate_again
              (s := { s with table := s.table.mergeTemplate s.current own existing merged })
              ((SymbolTable.scope_symbol_mergeTemplate _ _ _ _ _ _).trans hown)
              (.classTemplate key) span
            refine ⟨around, own, haround, hnamed ▸ List.mem_cons_self,
              congrArg Entity.kind hdata, hown, merged, ?_⟩
            exact (congrArg Prod.snd (henter.symm.trans hagain))
    · -- A new template has the number of the next symbol.
      split at hdeclare
      · cases hdeclare
      · rename_i hnew
        cases hdeclare
        obtain ⟨_, rfl, _⟩ := SymbolTable.introduceTemplate_eq hnew
        exact absurd hold s.table.not_hasSymbol_nextSymbol

theorem scope_openHeader_of_ne (s : Session) (parameters : ParameterList) {j : ScopeId}
    (hj : j ≠ s.table.nextScope) :
    (s.openHeader parameters).table.scope j = s.table.scope j := by
  rw [openHeader, SymbolTable.scope_insertParameters_of_ne hj, SymbolTable.scope_pushScope,
    if_neg hj]

theorem declared_openHeader (s : Session) (parameters : ParameterList) :
    List.Forall₂ (s.openHeader parameters).table.IsParameter
      ((s.openHeader parameters).table.scope (s.openHeader parameters).current).declared
      (parameters.named 0) := by
  let x : Scope :=
    { Scope.fresh .templateHeader none (some s.current) with pending := some parameters }
  obtain ⟨ids, hdeclared, hids⟩ := SymbolTable.exists_declared_insertParameters parameters 0
    (s.table.pushScope x).2 ((s.table.hasScope_pushScope x _).mpr (.inr rfl))
  rw [SymbolTable.scope_pushScope, if_pos rfl] at hdeclared
  have hheader : ((s.openHeader parameters).table.scope
      (s.openHeader parameters).current).declared = ids := hdeclared.trans (List.nil_append ids)
  exact hheader ▸ hids

/-- A template that is declared again right behind a header stands where that was opened. -/
theorem Session.Redeclares.inside {config : Config} {own : ScopeId} (hs : (start config).Run s)
    (hgrows : s.Grows (s.openHeader parameters)) (hold : s.table.HasSymbol id)
    (h : (s.openHeader parameters).Redeclares name id s.current own u) :
    (s.table.symbol id).scope = some own ∧ (s.table.scope own).enclosing = some s.current := by
  have hsymbol := hgrows.table.symbol id hold
  have hkind : (s.table.symbol id).kind = .template := hsymbol.kind_eq.symm.trans h.kind
  obtain ⟨own', hown⟩ := hs.scoped id hold (by rw [hkind]; rfl)
  obtain rfl : own' = own := Option.some.inj ((hsymbol.scope own' hown).symm.trans h.scope)
  have hcurrent : s.current ≠ s.table.nextScope := fun heq =>
    s.table.not_hasScope_nextScope (heq ▸ hs.closed.current_has)
  have hfound := h.found
  rw [scope_openHeader_of_ne s parameters hcurrent] at hfound
  -- A template is no enumerator, so that it stands where it is found.
  have hplace : (s.table.symbol id).enclosing = s.current :=
    (hs.arena.mayBind_of_named hfound).place.resolve_right (by simp [hkind])
  exact ⟨hown, hplace ▸ hs.arena.inside id own' hown⟩

/-- What the name of a parameter stands for inside of a template that has been declared again:
what it stood for in the template, or else the parameter at its position, or else what it
stands for around the template. -/
theorem Session.Redeclares.lookup {own : ScopeId} (hs : s.Closed) (hu : u.Closed)
    (hgrows : s.Grows (s.openHeader parameters)) (hgrows' : s.Grows u)
    (henclosing : (s.table.scope own).enclosing = some s.current)
    (h : (s.openHeader parameters).Redeclares name id s.current own u)
    (hdistinct : parameters.HasDistinctNames) {i : Nat} {p : TemplateParameter}
    (hp : parameters[i]? = some p) (hne : p.name ≠ "") :
    u.table.lookup own p.name (.singleton .templateParameter) =
      ((s.table.lookupIn own p.name (.singleton .templateParameter)).or
        (s.table.parameterAt own i)).or
          (s.table.lookup s.current p.name (.singleton .templateParameter)) := by
  have hlt := hs.linked.enclosing_lt own s.current henclosing
  have hown : s.table.HasScope own := SymbolTable.hasScope_of_enclosing henclosing
  have hsame := scope_openHeader_of_ne s parameters fun heq =>
    s.table.not_hasScope_nextScope (heq ▸ hown)
  obtain ⟨merged, rfl⟩ := h.eq
  have hinside := SymbolTable.lookupIn_mergeTemplate (hgrows.table.hasScope own hown)
    (declared_openHeader s parameters) hdistinct hp hne id merged
  rw [hgrows.table.lookupIn_of_scope_eq hs.linked hsame,
    hgrows.table.parameterAt_eq hs.linked hsame] at hinside
  -- Neither header is around the template.
  have holder : ∀ j : ScopeId, j.index ≤ s.current.index →
      ((s.openHeader parameters).table.mergeTemplate (s.openHeader parameters).current own id
        merged).scope j = s.table.scope j := by
    intro j hj
    have hnew : j ≠ s.table.nextScope := by
      rintro rfl
      exact Nat.lt_irrefl _ (Nat.lt_of_lt_of_le hs.current_has hj)
    have hother : j ≠ own := by
      rintro rfl
      exact Nat.lt_irrefl _ (Nat.lt_of_lt_of_le hlt hj)
    exact (SymbolTable.scope_mergeTemplate_of_ne _ hnew hother id merged).trans
      (scope_openHeader_of_ne s parameters hnew)
  have houtside := hgrows'.table.lookup_eq_of_older hs.linked hu.linked holder p.name
    (.singleton .templateParameter)
  rw [SymbolTable.lookup_eq hu.linked, (hgrows'.table.scope own hown).enclosing, henclosing,
    Option.bind_some, houtside, hinside]

/-- In a class template that is declared again, the name of a parameter of the redeclaration is
looked for among the names that the template had, then by its position among the parameters of
the first declaration, and then around the template. So it stands for its position wherever the
first declaration has a name at that position, and nothing else in the template has the new
name. -/
theorem lookup_parameter_of_redeclaration {config : Config} {span' : Span}
    (hs : (start config).Run s) (hop : (Operation.beginTemplate parameters span).IsOn s)
    (hbegin : exec (beginTemplate parameters span) s = (.ok header, v))
    (hdistinct : parameters.HasDistinctNames)
    (hdeclare : exec (declareClass name key span') v = (.ok id, u))
    (hold : s.table.HasSymbol id) :
    ∃ own, (s.table.symbol id).scope = some own ∧ u.current = own ∧
      ∀ (i : Nat) (p : TemplateParameter), parameters[i]? = some p → p.name ≠ "" →
        u.table.lookup u.current p.name (.singleton .templateParameter) =
          ((s.table.lookupIn own p.name (.singleton .templateParameter)).or
            (s.table.parameterAt own i)).or
              (s.table.lookup s.current p.name (.singleton .templateParameter)) ∧
        ∀ y, s.table.parameterAt own i = some y →
          (∀ z, s.table.lookupIn own p.name (.singleton .templateParameter) = some z → z = y) →
            u.table.lookup u.current p.name (.singleton .templateParameter) = some y ∧
              u.table.parameterIndex? y = some i := by
  have hsc := hs.closed
  obtain ⟨hvc, hsv⟩ := (leads_beginTemplate hop.known span).changes.preserves hsc
  rw [hbegin] at hvc hsv
  obtain ⟨huc, hvu⟩ := (leads_declareClass hvc name key span').changes.preserves hvc
  rw [hdeclare] at huc hvu
  have hentered := (moves_beginTemplate parameters span).ok header (congrArg Prod.fst hbegin)
  rw [hbegin] at hentered
  obtain ⟨rfl, rfl⟩ := exec_beginTemplate_eq_ok hbegin
  obtain ⟨around, own, hre⟩ := redeclares_of_declareClass hentered.isOpen hdeclare
    (hsv.table.hasSymbol _ hold)
  obtain rfl : around = s.current :=
    Option.some.inj (hre.enclosing.symm.trans hentered.enclosing)
  -- The template was there before the header, so its scope stands where the header was opened.
  obtain ⟨hown, henclosing⟩ := hre.inside hs hsv hold
  have hcurrent : u.current = own := by
    obtain ⟨_, rfl⟩ := hre.eq
    rfl
  refine ⟨own, hown, hcurrent, fun i p hp hne => ?_⟩
  have hlookup := hre.lookup hsc huc hsv (hsv.trans hvu) henclosing hdistinct hp hne
  rw [hcurrent]
  refine ⟨hlookup, fun y hy hunique => ⟨?_, ?_⟩⟩
  · rw [hlookup, hy]
    cases hz : s.table.lookupIn own p.name (.singleton .templateParameter) with
    | none => rfl
    | some z => rw [hunique z hz, Option.some_or, Option.some_or]
  · rw [(hsv.trans hvu).table.parameterIndex?_eq
      (hsc.linked.declared_has own y (List.mem_of_find?_eq_some hy))]
    exact SymbolTable.parameterIndex?_of_parameterAt hy

/-- `template <class A, class B> struct Box;` declared again as
`template <class T, class A> struct Box`: in there `T` stands for the first parameter, and so
does `A`, which is the name of the second. -/
theorem lookup_parameter_of_redeclaration_box :
    let header (first second : String) := Operation.beginTemplate
      [⟨first, .type, none, false, none, .synthesized⟩,
        ⟨second, .type, none, false, none, .synthesized⟩] .synthesized
    let box := Operation.declareClass "Box" .structKey .synthesized
    let s := (Operation.endTemplate .synthesized).after
      (box.after ((header "A" "B").after (start .standard)))
    let u := box.after ((header "T" "A").after s)
    u.table.lookup u.current "T" (.singleton .templateParameter) = some ⟨0⟩ ∧
      u.table.lookup u.current "A" (.singleton .templateParameter) = some ⟨0⟩ ∧
      u.table.parameterIndex? ⟨0⟩ = some 0 := by
  intro header box s u
  let parameters : ParameterList := [⟨"T", .type, none, false, none, .synthesized⟩,
    ⟨"A", .type, none, false, none, .synthesized⟩]
  have hheader (first second : String) (t : Session) : (header first second).IsOn t :=
    .of_handles_nil
  have hbox (t : Session) : (Operation.declareClass "Box" .structKey .synthesized).IsOn t :=
    .of_handles_nil
  have hs : (start .standard).Run s :=
    ((Run.refl.step _ (hheader _ _ _)).step _ (hbox _)).step _ .of_handles_nil
  have hopens : (exec (beginTemplate parameters .synthesized) s).1.isOk = true := by
    decide +kernel
  have hagain : (exec (declareClass "Box" .structKey .synthesized)
      (exec (beginTemplate parameters .synthesized) s).2).1.toOption = some ⟨2⟩ := by
    decide +kernel
  have hu : u = (exec (declareClass "Box" .structKey .synthesized)
      (exec (beginTemplate parameters .synthesized) s).2).2 := by
    rw [show u = box.after ((header "T" "A").after s) from rfl, Operation.after, Operation.after,
      Operation.perform, Operation.perform, exec_discard, exec_discard]
  rcases hbegin : exec (beginTemplate parameters .synthesized) s with ⟨d | opened, v⟩
  · rw [hbegin] at hopens
    cases hopens
  rw [hbegin] at hagain hu
  rcases hdeclare : exec (declareClass "Box" .structKey .synthesized) v with ⟨declared, w⟩
  rw [hdeclare] at hagain hu
  obtain rfl : declared = .ok ⟨2⟩ := toOption_eq_some.mp hagain
  have hdistinct : parameters.HasDistinctNames := by decide +kernel
  obtain ⟨own, hown, _, hlookup⟩ := lookup_parameter_of_redeclaration hs (hheader "T" "A" s) hbegin
    hdistinct hdeclare (by decide +kernel)
  have hscope : (s.table.symbol ⟨2⟩).scope = some ⟨1⟩ := by decide +kernel
  obtain rfl : own = ⟨1⟩ := Option.some.inj (hown.symm.trans hscope)
  have hnew : s.table.lookupIn ⟨1⟩ "T" (.singleton .templateParameter) = none := by decide +kernel
  have htaken : ((s.table.lookupIn ⟨1⟩ "A" (.singleton .templateParameter)).or
      (s.table.parameterAt ⟨1⟩ 1)).or (s.table.lookup s.current "A"
        (.singleton .templateParameter)) = some ⟨0⟩ := by decide +kernel
  have hfirst := (hlookup 0 _ rfl (by decide)).2 ⟨0⟩ (by decide +kernel) fun z hz => by
    cases hnew.symm.trans hz
  have hsecond := (hlookup 1 _ rfl (by decide)).1.trans htaken
  rw [hu]
  exact ⟨hfirst.1, hsecond, hfirst.2⟩

end Steps

end TemplateAnalysis
