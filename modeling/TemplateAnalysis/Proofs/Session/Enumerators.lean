import TemplateAnalysis.Proofs.Session.Completion
import TemplateAnalysis.Proofs.Session.Denotation
import TemplateAnalysis.Proofs.Session.OneEntity
import TemplateAnalysis.Proofs.Session.Refusals

/-!
# The enumerators of an enum

An enum is completed with its enumerators one after the other, and stops at the first that
cannot have its name or has no value. What that comes to when it succeeds is said at once here:
which names the enumerators can have, which values they have, and the table with all of them.
The enum then has one new symbol for each, in order, which is found under its name in the enum
and around an unscoped one.
-/

namespace TemplateAnalysis

open Session Analysis

/-! ### Where enumerators are declared -/

namespace Session.EnumSite

/-- The values of enumerators, the first of which is `next` if none is given for it. -/
def values (site : EnumSite) (t : SymbolTable) (next : Constant) :
    List EnumeratorSpecifier → Except Diagnostic (List Constant)
  | [] => return []
  | ⟨_, value, span⟩ :: rest => do
    let given ← (value.map t.evaluate).getD (return next)
    let value ← site.convert given span
    let following ← value.successor.mapError (Diagnostic.notConstant span)
    return value :: (← site.values t following rest)

def insertAll (site : EnumSite) (t : SymbolTable) :
    List EnumeratorSpecifier → List Constant → SymbolTable
  | ⟨name, _, span⟩ :: rest, value :: values =>
    site.insertAll (site.insert t name value span).2 rest values
  | _, _ => t

/-- Whether enumerators can have their names, which are different and not taken. -/
def Admits (site : EnumSite) (t : SymbolTable) (enumerators : List EnumeratorSpecifier) : Prop :=
  (enumerators.map (·.name)).Nodup ∧ ∀ e ∈ enumerators, site.hasName t e.name = false

/-- Whether a symbol is the enumerator with a name and a value. The name names nothing else in
the scopes where the enumerator is visible. -/
structure Places (site : EnumSite) (t : SymbolTable) (key : String) (value : Constant)
    (id : SymbolId) : Prop where
  has : t.HasSymbol id
  name : (t.symbol id).name = key
  entity : (t.symbol id).entity = .enumerator value
  enclosing : (t.symbol id).enclosing = site.own
  only : ∀ scope, site.own = scope ∨ site.around = some scope → (t.scope scope).named key = [id]

variable {site : EnumSite} {t : SymbolTable}

theorem Places.lookupIn {name : String} {value : Constant} {id : SymbolId}
    (h : site.Places t name value id) {scope : ScopeId}
    (hscope : site.own = scope ∨ site.around = some scope) {accepted : KindSet}
    (haccepted : accepted.accepts .enumerator = true) :
    t.lookupIn scope name accepted = some id := by
  rw [SymbolTable.lookupIn, h.only scope hscope, List.find?_singleton, Symbol.kind, h.entity]
  exact if_pos haccepted

def IsIn (site : EnumSite) (t : SymbolTable) : Prop :=
  ∀ scope, site.own = scope ∨ site.around = some scope → t.HasScope scope

/-! ### One enumerator -/

theorem grows_insert (site : EnumSite) (t : SymbolTable) (name : String) (value : Constant)
    (span : Span) : t.Grows (site.insert t name value span).2 := by
  have hpush : t.Grows (t.insertEntity site.own name (.enumerator value) span).2 :=
    .pushSymbol t _ _
  unfold EnumSite.insert
  cases site.around with
  | none => exact hpush
  | some around => exact hpush.trans (.expose _ _ _ _)

theorem symbolCount_insert (site : EnumSite) (t : SymbolTable) (name : String) (value : Constant)
    (span : Span) : (site.insert t name value span).2.symbolCount = t.symbolCount + 1 := by
  have hpush : (t.insertEntity site.own name (.enumerator value) span).2.symbolCount =
      t.symbolCount + 1 := Array.size_push _
  unfold EnumSite.insert
  cases site.around <;> exact hpush

theorem named_insert_of_ne {key name : String} (hne : key ≠ name) (value : Constant) (span : Span)
    (scope : ScopeId) :
    ((site.insert t key value span).2.scope scope).named name = (t.scope scope).named name := by
  have hpush : ((t.insertEntity site.own key (.enumerator value) span).2.scope scope).named name =
      (t.scope scope).named name := by
    rw [SymbolTable.insertEntity, SymbolTable.named_pushSymbol, if_neg fun h => hne h.2.2,
      List.append_nil]
  unfold EnumSite.insert
  cases site.around with
  | none => exact hpush
  | some around =>
    refine (SymbolTable.named_expose _ around key _ scope name).trans ?_
    rw [if_neg fun h => hne h.2.1]
    exact hpush

/-- The name of a new enumerator was free, and names only the enumerator where that becomes
visible. -/
theorem named_insert_self (hin : site.IsIn t) {name : String} (hname : site.hasName t name = false)
    (value : Constant) (span : Span) {scope : ScopeId}
    (hscope : site.own = scope ∨ site.around = some scope) :
    ((site.insert t name value span).2.scope scope).named name = [t.nextSymbol] := by
  obtain ⟨hown, haround⟩ := SymbolTable.named_eq_nil_of_hasName hname
  have hfree : (t.scope scope).named name = [] := by
    rcases hscope with rfl | hscope
    · exact hown
    · exact haround scope hscope
  have hpush := t.named_pushSymbol name ⟨name, sourceName name, .ofName (t.qualify site.own name),
    site.own, none, false, none, span, .enumerator value⟩ scope name
  rw [hfree, List.nil_append] at hpush
  have hin' : (t.insertEntity site.own name (.enumerator value) span).2.HasScope scope :=
    (t.hasScope_pushSymbol _ _ _).mpr (hin scope hscope)
  unfold EnumSite.insert
  cases hsite : site.around with
  | none =>
    rw [hsite] at hscope
    obtain rfl := hscope.resolve_right (by simp)
    exact hpush.trans (if_pos ⟨rfl, hin _ (.inl rfl), rfl⟩)
  | some around =>
    refine (SymbolTable.named_expose _ around name _ scope name).trans ?_
    by_cases hsame : scope = site.own
    · have hpushed := hpush.trans (if_pos ⟨hsame, hin scope hscope, rfl⟩)
      rw [if_neg fun h => h.2.2 (hpushed ▸ List.mem_singleton_self _)]
      exact hpushed
    · have hpushed := hpush.trans (if_neg fun h => hsame h.1)
      rw [hsite] at hscope
      obtain rfl := Option.some.inj (hscope.resolve_left fun h => hsame h.symm)
      refine (if_pos ⟨⟨rfl, hin'⟩, rfl, fun h => ?_⟩).trans (congrArg (· ++ [t.nextSymbol]) hpushed)
      exact List.not_mem_nil (hpushed ▸ h)

theorem hasName_eq (site : EnumSite) (t : SymbolTable) (name : String) :
    site.hasName t name = (((t.scope site.own).named name).head?.isSome ||
      (site.around.bind fun scope => ((t.scope scope).named name).head?).isSome) := by
  have hany : ∀ scope, t.lookupIn scope name .any = ((t.scope scope).named name).head? := by
    intro scope
    rw [SymbolTable.lookupIn]
    cases (t.scope scope).named name with
    | nil => rfl
    | cons id rest => rw [List.find?_cons, KindSet.accepts_any, List.head?_cons]
  simp only [hasName, hany]

theorem hasName_insert_of_ne {key name : String} (hne : key ≠ name) (value : Constant)
    (span : Span) : site.hasName (site.insert t key value span).2 name = site.hasName t name := by
  simp only [hasName_eq, named_insert_of_ne hne]

theorem hasName_insert_self (hin : site.IsIn t) {name : String}
    (hname : site.hasName t name = false) (value : Constant) (span : Span) :
    site.hasName (site.insert t name value span).2 name = true := by
  rw [hasName_eq, named_insert_self hin hname value span (.inl rfl)]
  rfl

/-- Enumerators can have their names if the first one can, and then the others can beside it. -/
theorem admits_cons (hin : site.IsIn t) {e : EnumeratorSpecifier}
    {rest : List EnumeratorSpecifier} (value : Constant) :
    site.Admits t (e :: rest) ↔ site.hasName t e.name = false ∧
      site.Admits (site.insert t e.name value e.span).2 rest := by
  rw [Admits, Admits, List.map_cons, List.nodup_cons, List.forall_mem_cons]
  constructor
  · rintro ⟨⟨hnew, hrest⟩, he, hfree⟩
    refine ⟨he, hrest, fun other hother => ?_⟩
    have hne : e.name ≠ other.name := fun h => hnew (h ▸ List.mem_map_of_mem hother)
    rw [hasName_insert_of_ne hne, hfree other hother]
  · rintro ⟨he, hrest, hfree⟩
    have hne : ∀ other ∈ rest, e.name ≠ other.name := by
      intro other hother h
      have htaken := hfree other hother
      rw [← h, hasName_insert_self hin he] at htaken
      cases htaken
    refine ⟨⟨fun hmem => ?_, hrest⟩, he, fun other hother => ?_⟩
    · obtain ⟨other, hother, h⟩ := List.mem_map.mp hmem
      exact hne other hother h.symm
    · rw [← hasName_insert_of_ne (hne other hother) value e.span, hfree other hother]

/-! ### All enumerators -/

theorem values_cons_eq_ok {next : Constant} {e : EnumeratorSpecifier}
    {rest : List EnumeratorSpecifier} {values : List Constant} :
    site.values t next (e :: rest) = .ok values ↔ ∃ given value following others,
      (e.value.map t.evaluate).getD (return next) = .ok given ∧
      site.convert given e.span = .ok value ∧ value.successor = .ok following ∧
      site.values t following rest = .ok others ∧ values = value :: others := by
  simp only [EnumSite.values, bind_eq_ok, mapError_eq_ok, pure_eq_ok]
  constructor
  · rintro ⟨given, hgiven, value, hvalue, following, hfollowing, others, hothers, rfl⟩
    exact ⟨given, value, following, others, hgiven, hvalue, hfollowing, hothers, rfl⟩
  · rintro ⟨given, value, following, others, hgiven, hvalue, hfollowing, hothers, rfl⟩
    exact ⟨given, hgiven, value, hvalue, following, hfollowing, others, hothers, rfl⟩

theorem values_congr {known : Handle → Prop} {u : SymbolTable} (site : EnumSite)
    (h : ∀ id, known (.symbol id) → u.valueOf id = t.valueOf id) (next : Constant)
    {enumerators : List EnumeratorSpecifier}
    (hknown : AllKnown known (enumerators.flatMap fun e => handlesOfNode? e.value)) :
    site.values u next enumerators = site.values t next enumerators := by
  induction enumerators generalizing next with
  | nil => rfl
  | cons e rest ih =>
    obtain ⟨name, value, span⟩ := e
    rw [List.flatMap_cons] at hknown
    have hgiven : value.map u.evaluate = value.map t.evaluate := by
      cases value with
      | none => rfl
      | some node => exact congrArg some (node.evaluate_congr h hknown.left)
    simp only [values, hgiven, fun next => ih next hknown.right]

/-- The first enumerator is declared with its value, and the others after it. -/
theorem declareEnumerators_cons_eq_ok {s v : Session} {next : Constant} {e : EnumeratorSpecifier}
    {rest : List EnumeratorSpecifier} {ids : List SymbolId} :
    exec (declareEnumerators site next (e :: rest)) s = (.ok ids, v) ↔
      site.hasName s.table e.name = false ∧ ∃ given value following others,
        (e.value.map s.table.evaluate).getD (return next) = .ok given ∧
        site.convert given e.span = .ok value ∧ value.successor = .ok following ∧
        exec (declareEnumerators site following rest)
          { s with table := (site.insert s.table e.name value e.span).2 } = (.ok others, v) ∧
        ids = s.table.nextSymbol :: others := by
  obtain ⟨name, value, span⟩ := e
  have hgiven : exec ((value.map evaluate).getD (return next)) s =
      ((value.map s.table.evaluate).getD (return next), s) := by
    cases value with
    | none => rfl
    | some node => exact exec_evaluate s node
  have hcons : ∀ {x : Analysis (List SymbolId)} {id : SymbolId} {u : Session},
      exec (return id :: (← x)) u = (.ok ids, v) ↔
        ∃ others, exec x u = (.ok others, v) ∧ ids = id :: others := by
    intro x id u
    simp only [exec_bind_eq_ok, exec_pure, Prod.mk.injEq, Except.ok.injEq]
    grind
  rw [declareEnumerators, exec_bind, exec_get]
  dsimp only
  cases hname : site.hasName s.table name with
  | true => simp
  | false =>
    rw [if_neg Bool.false_ne_true]
    simp only [exec_bind_eq_ok, hgiven, exec_ofExcept, exec_changeTable, hcons, mapError_eq_ok,
      Prod.mk.injEq, Except.ok.injEq]
    constructor
    · rintro ⟨given, _, ⟨hgiven, rfl⟩, value, _, ⟨hvalue, rfl⟩, following, _, ⟨hfollowing, rfl⟩,
        id, _, ⟨rfl, rfl⟩, others, hothers⟩
      exact ⟨trivial, given, value, following, others, hgiven, hvalue, hfollowing, hothers⟩
    · rintro ⟨-, given, value, following, others, hgiven, hvalue, hfollowing, hothers⟩
      exact ⟨given, s, ⟨hgiven, rfl⟩, value, s, ⟨hvalue, rfl⟩, following, s, ⟨hfollowing, rfl⟩,
        _, _, ⟨rfl, rfl⟩, others, hothers⟩

end Session.EnumSite

def SymbolTable.nextSymbols (t : SymbolTable) (n : Nat) : List SymbolId :=
  (List.range' t.symbolCount n).map SymbolId.mk

namespace Session.EnumSite

variable {site : EnumSite}

/-- Enumerators are declared where they can have their names and all of them have values. Then
there is a new symbol for each, in order, and nothing else has happened. -/
theorem declareEnumerators_eq_ok {known : Handle → Prop} {enumerators : List EnumeratorSpecifier}
    {s v : Session} {next : Constant} {ids : List SymbolId} (hin : site.IsIn s.table)
    (hsymbols : ∀ id, known (.symbol id) → s.table.HasSymbol id)
    (hknown : AllKnown known (enumerators.flatMap fun e => handlesOfNode? e.value)) :
    exec (declareEnumerators site next enumerators) s = (.ok ids, v) ↔
      site.Admits s.table enumerators ∧ ∃ values,
        site.values s.table next enumerators = .ok values ∧
        ids = s.table.nextSymbols enumerators.length ∧
        v = { s with table := site.insertAll s.table enumerators values } := by
  induction enumerators generalizing s next ids with
  | nil =>
    have hadmits : site.Admits s.table [] := ⟨List.nodup_nil, nofun⟩
    constructor
    · intro h
      cases h
      exact ⟨hadmits, [], rfl, rfl, rfl⟩
    · rintro ⟨-, values, hvalues, rfl, rfl⟩
      cases hvalues
      rfl
  | cons e rest ih =>
    rw [List.flatMap_cons] at hknown
    rw [declareEnumerators_cons_eq_ok]
    -- The other enumerators are declared beside the first one, and their values do not use it.
    have hrest : ∀ value following others,
        exec (declareEnumerators site following rest)
          { s with table := (site.insert s.table e.name value e.span).2 } = (.ok others, v) ↔
        site.Admits (site.insert s.table e.name value e.span).2 rest ∧ ∃ values,
          site.values s.table following rest = .ok values ∧
          s.table.nextSymbol :: others = s.table.nextSymbols (rest.length + 1) ∧
          v = { s with table := site.insertAll s.table (e :: rest) (value :: values) } := by
      intro value following others
      have hgrows := site.grows_insert s.table e.name value e.span
      have hold := (s.table.symbol_insert_enumerator site e.name value e.span).2
      have hvalues : site.values (site.insert s.table e.name value e.span).2 following rest =
          site.values s.table following rest :=
        values_congr site (fun id hid => congrArg (·.entity.namedValue) (hold id (hsymbols id hid)))
          following hknown.right
      rw [ih (fun scope hscope => hgrows.hasScope scope (hin scope hscope))
        (fun id hid => hgrows.hasSymbol id (hsymbols id hid)) hknown.right]
      rw [hvalues, SymbolTable.nextSymbols, SymbolTable.nextSymbols, symbolCount_insert,
        List.range'_succ, List.map_cons, SymbolTable.nextSymbol, List.cons_inj_right]
      rfl
    constructor
    · rintro ⟨hname, given, value, following, others, hgiven, hvalue, hfollowing, hothers, rfl⟩
      obtain ⟨hadmits, values, hvalues, hids, rfl⟩ := (hrest value following others).mp hothers
      exact ⟨(admits_cons hin value).mpr ⟨hname, hadmits⟩, value :: values, values_cons_eq_ok.mpr
        ⟨given, value, following, values, hgiven, hvalue, hfollowing, hvalues, rfl⟩, hids, rfl⟩
    · rintro ⟨hadmits, values, hvalues, rfl, rfl⟩
      obtain ⟨given, value, following, others, hgiven, hvalue, hfollowing, hothers, rfl⟩ :=
        values_cons_eq_ok.mp hvalues
      obtain ⟨hname, hadmits⟩ := (admits_cons hin value).mp hadmits
      exact ⟨hname, given, value, following, _, hgiven, hvalue, hfollowing,
        (hrest value following _).mpr ⟨hadmits, others, hothers, rfl, rfl⟩, rfl⟩

variable {t : SymbolTable} {enumerators : List EnumeratorSpecifier} {values : List Constant}

theorem symbol_insertAll (site : EnumSite) (enumerators : List EnumeratorSpecifier)
    (values : List Constant) {id : SymbolId} (hid : t.HasSymbol id) :
    (site.insertAll t enumerators values).HasSymbol id ∧
      (site.insertAll t enumerators values).symbol id = t.symbol id := by
  induction enumerators generalizing t values with
  | nil => exact ⟨hid, rfl⟩
  | cons e rest ih =>
    cases values with
    | nil => exact ⟨hid, rfl⟩
    | cons value values =>
      obtain ⟨hhas, hsymbol⟩ :=
        ih values ((site.grows_insert t e.name value e.span).hasSymbol id hid)
      exact ⟨hhas, hsymbol.trans ((t.symbol_insert_enumerator site e.name value e.span).2 id hid)⟩

theorem named_insertAll {name : String} (hname : name ∉ enumerators.map (·.name))
    (scope : ScopeId) :
    ((site.insertAll t enumerators values).scope scope).named name =
      (t.scope scope).named name := by
  induction enumerators generalizing t values with
  | nil => rfl
  | cons e rest ih =>
    cases values with
    | nil => rfl
    | cons value values =>
      rw [List.map_cons, List.mem_cons, not_or] at hname
      exact (ih hname.2).trans (named_insert_of_ne (Ne.symm hname.1) value e.span scope)

theorem Places.insertAll {key : String} {value : Constant} {id : SymbolId}
    (h : site.Places t key value id) (hkey : key ∉ enumerators.map (·.name)) :
    site.Places (site.insertAll t enumerators values) key value id := by
  obtain ⟨hhas, hsymbol⟩ := symbol_insertAll site enumerators values h.has
  refine ⟨hhas, hsymbol ▸ h.name, hsymbol ▸ h.entity, hsymbol ▸ h.enclosing, ?_⟩
  intro scope hscope
  rw [named_insertAll hkey]
  exact h.only scope hscope

theorem places_insert (hin : site.IsIn t) {name : String} (hname : site.hasName t name = false)
    (value : Constant) (span : Span) :
    site.Places (site.insert t name value span).2 name value t.nextSymbol := by
  obtain ⟨hsymbol, _⟩ := t.symbol_insert_enumerator site name value span
  refine ⟨?_, congrArg Symbol.name hsymbol, congrArg Symbol.entity hsymbol,
    congrArg Symbol.enclosing hsymbol, fun scope => named_insert_self hin hname value span⟩
  rw [SymbolTable.HasSymbol, symbolCount_insert]
  exact Nat.lt_succ_self _

/-- Each of the next symbols is the enumerator at its position. -/
theorem places_insertAll (hin : site.IsIn t) (hadmits : site.Admits t enumerators) {k : Nat}
    {e : EnumeratorSpecifier} (he : enumerators[k]? = some e) {value : Constant}
    (hvalue : values[k]? = some value) :
    site.Places (site.insertAll t enumerators values) e.name value ⟨t.symbolCount + k⟩ := by
  induction enumerators generalizing t values k with
  | nil => simp at he
  | cons first rest ih =>
    cases values with
    | nil => simp at hvalue
    | cons value' values =>
      obtain ⟨hname, hrest⟩ := (admits_cons hin value').mp hadmits
      cases k with
      | zero =>
        cases he
        cases hvalue
        exact (places_insert hin hname value e.span).insertAll (List.nodup_cons.mp hadmits.1).1
      | succ k =>
        have hgrows := site.grows_insert t first.name value' first.span
        have hplaces := ih (fun scope hscope => hgrows.hasScope scope (hin scope hscope)) hrest he
          hvalue
        rw [symbolCount_insert, Nat.add_right_comm] at hplaces
        exact hplaces

end Session.EnumSite

/-! ### Completing an enum -/

def SymbolTable.completeEnum (t : SymbolTable) (id : SymbolId) (ids : List SymbolId) :
    SymbolTable :=
  (t.modifyEnum id fun data => { data with enumerators := ids }).markDefined id

namespace SymbolTable

variable {t : SymbolTable} {id : SymbolId} {ids : List SymbolId}

theorem isCompleteEnum_completeEnum (hid : t.HasSymbol id) {data : EnumData}
    (hdata : (t.symbol id).entity = .enumeration data) :
    (t.completeEnum id ids).IsCompleteEnum id { data with enumerators := ids } := by
  have hsymbol : (t.completeEnum id ids).symbol id =
      { t.symbol id with
        entity := .enumeration { data with enumerators := ids }, isDefined := true } := by
    rw [completeEnum, markDefined, symbol_modifySymbol_self, modifyEnum, symbol_modifySymbol_self,
      hdata]
    · exact hid
    · exact (hasSymbol_modifySymbol _ _ _ _).mpr hid
  exact ⟨congrArg Symbol.entity hsymbol, congrArg Symbol.isDefined hsymbol⟩

theorem places_completeEnum {site : Session.EnumSite} {key : String} {value : Constant}
    {i : SymbolId} (ids : List SymbolId) (hi : i ≠ id) (h : site.Places t key value i) :
    site.Places (t.completeEnum id ids) key value i := by
  have hsymbol : (t.completeEnum id ids).symbol i = t.symbol i := by
    rw [completeEnum, markDefined, symbol_modifySymbol, if_neg fun h => hi h.1, modifyEnum,
      symbol_modifySymbol, if_neg fun h => hi h.1]
  refine ⟨?_, hsymbol ▸ h.name, hsymbol ▸ h.entity, hsymbol ▸ h.enclosing, h.only⟩
  exact (hasSymbol_modifySymbol _ _ _ _).mpr ((hasSymbol_modifySymbol _ _ _ _).mpr h.has)

end SymbolTable

namespace Session

variable {s u : Session} {id : SymbolId}

theorem EnumSite.IsOf.isIn {site : EnumSite} (hs : s.Closed) (h : site.IsOf id s) :
    site.IsIn s.table := by
  obtain ⟨hid, hown, data, -, haround, -⟩ := h
  intro scope hscope
  rcases hscope with rfl | hscope
  · exact hs.linked.symbol_scope_has id _ hown
  · rw [haround] at hscope
    cases hdata : data.isScoped with
    | true => simp [hdata] at hscope
    | false =>
      simp only [hdata, Bool.false_eq_true, if_false, Option.some.injEq] at hscope
      rw [← hscope]
      exact hs.linked.symbol_enclosing_has id hid

variable {enumerators : List EnumeratorSpecifier} {span : Span}

theorem isOf_of_defineEnum (h : exec (defineEnum id enumerators span) s = (.ok (), u)) :
    (s.table.symbol id).isDefined = false ∧ ∃ site, EnumSite.IsOf site id s := by
  rw [defineEnum, exec_bind, exec_symbol] at h
  dsimp only at h
  cases hdata : (s.table.symbol id).entity with
  | enumeration data =>
    cases hdefined : (s.table.symbol id).isDefined with
    | true => simp [hdata, hdefined] at h
    | false =>
      cases hown : (s.table.symbol id).scope with
      | none => simp [hdata, hdefined, ownScope, exec_bind, hown] at h
      | some own =>
        exact ⟨rfl, ⟨own, _, _⟩, SymbolTable.has_of_entity hdata (by simp), hown, data, hdata, rfl,
          rfl⟩
  | _ =>
    rw [hdata] at h
    cases h

theorem exec_defineEnum {site : EnumSite} (hsite : site.IsOf id s)
    (hundefined : (s.table.symbol id).isDefined = false) :
    exec (defineEnum id enumerators span) s =
      exec (declareEnumerators site (.int 0) enumerators >>= fun ids =>
        modifyTable (·.completeEnum id ids)) s := by
  obtain ⟨-, hown, data, hdata, haround, hunderlying⟩ := hsite
  obtain ⟨own, around, underlying⟩ := site
  dsimp only at hown haround hunderlying
  subst haround hunderlying
  rw [defineEnum, exec_bind, exec_symbol]
  simp only [hdata, hundefined, Bool.false_eq_true, if_false, ownScope, exec_bind, exec_symbol,
    hown, exec_pure, exec_get]
  rfl

theorem EnumSite.IsOf.eq {site other : EnumSite} (h : site.IsOf id s) (h' : other.IsOf id s) :
    other = site := by
  obtain ⟨-, hown, data, hdata, haround, hunderlying⟩ := h
  obtain ⟨-, hown', data', hdata', haround', hunderlying'⟩ := h'
  cases hdata.symm.trans hdata'
  cases site
  cases other
  cases hown.symm.trans hown'
  cases haround.trans haround'.symm
  cases hunderlying.trans hunderlying'.symm
  rfl

/-- An enum is completed if it is not complete, its enumerators can have their names, and all of
them have values. Then it has a new symbol for each, in order. -/
theorem defineEnum_eq_ok (hs : s.Closed) (hop : (Operation.defineEnum id enumerators span).IsOn s) :
    exec (defineEnum id enumerators span) s = (.ok (), u) ↔
      (s.table.symbol id).isDefined = false ∧ ∃ site, EnumSite.IsOf site id s ∧
        site.Admits s.table enumerators ∧ ∃ values,
          site.values s.table (.int 0) enumerators = .ok values ∧
          u = { s with
            table := (site.insertAll s.table enumerators values).completeEnum id
              (s.table.nextSymbols enumerators.length) } := by
  constructor
  · intro h
    obtain ⟨hundefined, site, hsite⟩ := isOf_of_defineEnum h
    rw [exec_defineEnum hsite hundefined, exec_bind_eq_ok] at h
    obtain ⟨ids, v, hids, hv⟩ := h
    obtain ⟨hadmits, values, hvalues, rfl, rfl⟩ :=
      (EnumSite.declareEnumerators_eq_ok (hsite.isIn hs) (fun _ h => h) hop.known.tail).mp hids
    cases hv
    exact ⟨hundefined, site, hsite, hadmits, values, hvalues, rfl⟩
  · rintro ⟨hundefined, site, hsite, hadmits, values, hvalues, rfl⟩
    rw [exec_defineEnum hsite hundefined, exec_bind_eq_ok]
    exact ⟨_, _, (EnumSite.declareEnumerators_eq_ok (hsite.isIn hs) (fun _ h => h)
      hop.known.tail).mpr ⟨hadmits, values, hvalues, rfl, rfl⟩, rfl⟩

end Session

end TemplateAnalysis
