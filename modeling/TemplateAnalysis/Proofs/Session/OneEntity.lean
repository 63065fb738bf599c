import TemplateAnalysis.Proofs.Session.OwnScopes

/-!
# One entity for each name

The names of a scope are extended in five ways: by declarations, overloads of functions,
templates behind a header, instances under their keys, and enumerators that become visible
around their enum. Each way first looks at what is there under the name. So outside of
template headers the symbols under one name are one entity: a single symbol that is no
function, or the overloads of a function, which differ in their types and signatures.
-/

namespace TemplateAnalysis

theorem Scope.named_expose (s : Scope) (key name : String) (id : SymbolId) :
    (s.expose key id).named name =
      if key = name ∧ id ∉ s.named key then s.named name ++ [id] else s.named name := by
  unfold expose
  by_cases hmem : id ∈ s.named key
  · rw [if_pos (List.contains_iff_mem.mpr hmem), if_neg fun h => h.2 hmem]
  · rw [if_neg fun h => hmem (List.contains_iff_mem.mp h)]
    refine (s.named_insert name key id).trans ?_
    by_cases hkey : key = name
    · subst hkey
      simp [hmem]
    · simp [hkey]

namespace SymbolTable

variable {t u : SymbolTable}

/-- Whether two symbols are functions of which neither redeclares the other. -/
def AreOverloads (t : SymbolTable) (y z : SymbolId) : Prop :=
  ∃ f g, (t.symbol y).entity = .function f ∧ (t.symbol z).entity = .function g ∧
    f.type ≠ g.type ∧ f.signature ≠ g.signature

/-- Whether some symbols are one entity: one symbol that is no function, or overloads. -/
inductive IsOneEntity (t : SymbolTable) (ids : List SymbolId) : Prop
  | single (id : SymbolId) (eq : ids = [id]) (kind : (t.symbol id).kind ≠ .function)
  | overloads (functions : ∀ id ∈ ids, (t.symbol id).kind = .function)
    (differ : ids.Pairwise t.AreOverloads)

/-- What is declared under a name of a scope in one step: nothing, an entity where there
was none, or a function beside those that it does not redeclare. -/
inductive Declares (t u : SymbolTable) (name : String) (old new : List SymbolId) : Prop
  | nothing (eq : new = old)
  | entity (id : SymbolId) (unnamed : old = []) (eq : new = [id])
    (kind : (u.symbol id).kind ≠ .function) (filed : (u.symbol id).filedAs = name)
  | overload (id : SymbolId) (eq : new = old ++ [id]) (kind : (u.symbol id).kind = .function)
    (filed : (u.symbol id).filedAs = name) (differ : ∀ y ∈ old, u.AreOverloads y id)

theorem Grows.areOverloads (h : t.Grows u) {y z : SymbolId} (hy : t.HasSymbol y)
    (hz : t.HasSymbol z) (hyz : t.AreOverloads y z) : u.AreOverloads y z := by
  obtain ⟨f, g, hf, hg, hdiffer⟩ := hyz
  exact ⟨f, g, (h.symbol y hy).function_iff.mpr hf, (h.symbol z hz).function_iff.mpr hg, hdiffer⟩

theorem Grows.isOneEntity (h : t.Grows u) {ids : List SymbolId} (hids : ∀ id ∈ ids, t.HasSymbol id)
    (hone : t.IsOneEntity ids) : u.IsOneEntity ids := by
  cases hone with
  | single id eq kind =>
    subst eq
    exact .single id rfl ((h.symbol id (hids id List.mem_cons_self)).kind_eq ▸ kind)
  | overloads functions differ =>
    refine .overloads (fun id hid => ?_) ?_
    · exact (h.symbol id (hids id hid)).kind_eq.trans (functions id hid)
    · exact differ.imp_of_mem fun hy hz => h.areOverloads (hids _ hy) (hids _ hz)

/-- What is declared in one step leaves one entity under a name. -/
theorem Declares.isOneEntity {name : String} {old new : List SymbolId}
    (h : Declares t u name old new) (hone : u.IsOneEntity old) : u.IsOneEntity new := by
  cases h with
  | nothing eq => exact eq ▸ hone
  | entity id unnamed eq kind => exact .single id eq kind
  | overload id eq kind filed differ =>
    subst eq
    have hfunctions : ∀ y ∈ old, (u.symbol y).kind = .function := fun y hy => by
      obtain ⟨f, _, hf, _⟩ := differ y hy
      exact congrArg Entity.kind hf
    refine .overloads (List.forall_mem_append.mpr ⟨hfunctions, by simpa using kind⟩) ?_
    refine List.pairwise_append.mpr ⟨?_, List.pairwise_singleton _ _, by simpa using differ⟩
    cases hone with
    | single y eq hy =>
      subst eq
      exact List.pairwise_singleton _ _
    | overloads _ differ => exact differ

theorem not_isHeader_of_grows (h : t.Grows u) {scope : ScopeId} (hscope : ¬ u.IsHeader scope) :
    ¬ t.IsHeader scope := by
  intro hheader
  have hhas : t.HasScope scope := by
    by_contra hhas
    rw [IsHeader, scope_eq_default hhas] at hheader
    cases hheader
  exact hscope ((isHeader_of_grows h hhas).mpr hheader)

/-! ### The names of a changed table -/

theorem named_pushSymbol (t : SymbolTable) (key : String) (x : Symbol) (scope : ScopeId)
    (name : String) :
    ((t.pushSymbol key x).2.scope scope).named name = (t.scope scope).named name ++
      if scope = x.enclosing ∧ t.HasScope scope ∧ key = name then [t.nextSymbol] else [] := by
  rw [scope_pushSymbol]
  by_cases hscope : scope = x.enclosing ∧ t.HasScope scope
  · rw [if_pos hscope, Scope.named_insert]
    simp [hscope.1, hscope.1 ▸ hscope.2]
  · rw [if_neg hscope, if_neg fun h => hscope ⟨h.1, h.2.1⟩, List.append_nil]

theorem named_pushScope (t : SymbolTable) {x : Scope} (hx : x.bindings = []) (scope : ScopeId)
    (name : String) : ((t.pushScope x).2.scope scope).named name = (t.scope scope).named name := by
  rw [scope_pushScope]
  split
  · rename_i hnew
    subst hnew
    rw [scope_eq_default t.not_hasScope_nextScope, Scope.named, hx]
    rfl
  · rfl

theorem named_pushOwnScope (t : SymbolTable) (id : SymbolId) (kind : ScopeKind)
    (enclosing scope : ScopeId) (name : String) :
    ((t.pushOwnScope id kind enclosing).scope scope).named name = (t.scope scope).named name :=
  t.named_pushScope rfl scope name

theorem named_modifyScope (t : SymbolTable) (id : ScopeId) {f : Scope → Scope}
    (hf : ∀ x, (f x).bindings = x.bindings) (scope : ScopeId) (name : String) :
    ((t.modifyScope id f).scope scope).named name = (t.scope scope).named name := by
  rw [scope_modifyScope]
  split
  · rw [Scope.named, Scope.named, hf]
  · rfl

theorem named_settleHeader (t : SymbolTable) (header scope : ScopeId) (name : String) :
    ((t.settleHeader header).scope scope).named name = (t.scope scope).named name := by
  rw [settleHeader, named_modifyScope]
  exact fun _ => rfl

theorem named_expose (t : SymbolTable) (scope : ScopeId) (key : String) (id : SymbolId)
    (j : ScopeId) (name : String) :
    ((t.expose scope key id).scope j).named name =
      if (j = scope ∧ t.HasScope j) ∧ key = name ∧ id ∉ (t.scope j).named key then
        (t.scope j).named name ++ [id]
      else (t.scope j).named name := by
  rw [expose, scope_modifyScope]
  by_cases hj : j = scope ∧ t.HasScope j
  · rw [if_pos hj, Scope.named_expose]
    exact if_congr (and_iff_right hj).symm rfl rfl
  · rw [if_neg hj, if_neg fun h => hj h.1]

theorem scope_foldl_expose_of_ne {scope j : ScopeId} (hj : j ≠ scope)
    (aliases : List (String × SymbolId)) : ∀ t : SymbolTable,
      (aliases.foldl (fun t (name, target) => t.expose scope name target) t).scope j =
        t.scope j := by
  induction aliases with
  | nil => exact fun _ => rfl
  | cons b rest ih =>
    intro t
    rw [List.foldl_cons, ih]
    exact (t.scope_modifyScope scope j _).trans (if_neg fun h => hj h.1)

theorem scope_insertParameters_of_ne {header j : ScopeId} (hj : j ≠ header) (ps : ParameterList) :
    ∀ (index : Nat) (t : SymbolTable),
      (Session.insertParameters header index ps t).scope j = t.scope j := by
  induction ps with
  | nil => exact fun _ _ => rfl
  | cons p rest ih =>
    intro index t
    rw [Session.insertParameters]
    split
    · exact ih _ _
    · rw [ih, insertEntity, scope_pushSymbol, if_neg fun h => hj h.1]

theorem scope_openHeader_of_not_isHeader {x : Scope} (hx : x.kind = .templateHeader)
    {ps : ParameterList} {j : ScopeId}
    (hj : ¬ (Session.insertParameters t.nextScope 0 ps (t.pushScope x).2).IsHeader j) :
    (Session.insertParameters t.nextScope 0 ps (t.pushScope x).2).scope j = t.scope j := by
  have hne : j ≠ t.nextScope := by
    rintro rfl
    have hgrows := (grows_insertParameters t.nextScope ps 0 (t.pushScope x).2).scope t.nextScope
      ((t.hasScope_pushScope _ _).mpr (.inr rfl))
    refine hj (hgrows.kind.trans ?_)
    rw [scope_pushScope, if_pos rfl]
    exact hx
  rw [scope_insertParameters_of_ne hne, scope_pushScope, if_neg hne]

theorem declares_of_pushSymbol {key : String} {x : Symbol} {scope : ScopeId} {name : String}
    (hkey : x.filedAs = key) (hgrows : (t.pushSymbol key x).2.Grows u)
    (hnamed : (u.scope scope).named name = ((t.pushSymbol key x).2.scope scope).named name)
    (hfirst : scope = x.enclosing → x.kind ≠ .function → (t.scope x.enclosing).named key = [])
    (hdiffer : x.kind = .function → ∀ y ∈ (t.scope x.enclosing).named key,
      u.AreOverloads y t.nextSymbol) :
    Declares t u name ((t.scope scope).named name) ((u.scope scope).named name) := by
  rw [hnamed, named_pushSymbol]
  split
  · rename_i h
    obtain ⟨rfl, _, rfl⟩ := h
    have hsymbol := hgrows.symbol t.nextSymbol ((t.hasSymbol_pushSymbol key x _).mpr (.inr rfl))
    rw [symbol_pushSymbol, if_pos rfl] at hsymbol
    have hfiled := hsymbol.filedAs_eq.trans hkey
    by_cases hkind : x.kind = .function
    · exact .overload _ rfl (hsymbol.kind_eq.trans hkind) hfiled (hdiffer hkind)
    · refine .entity _ (hfirst rfl hkind) ?_ (hsymbol.kind_eq ▸ hkind) hfiled
      rw [hfirst rfl hkind, List.nil_append]
  · exact .nothing (List.append_nil _)

/-- An overload is declared only beside functions of other types and signatures. -/
theorem exists_function_of_findOverload {name signature : String} {type : TypeId} {span : Span}
    {ids : List SymbolId} (h : t.findOverload name type signature span ids = .ok none) :
    ∀ id ∈ ids, ∃ f, (t.symbol id).entity = .function f ∧ f.type ≠ type ∧
      f.signature ≠ signature := by
  induction ids with
  | nil => simp
  | cons id rest ih =>
    rw [findOverload] at h
    cases hentity : (t.symbol id).entity with
    | function f =>
      rw [hentity] at h
      simp only at h
      split at h
      · cases h
      · rename_i htype
        split at h
        · cases h
        · rename_i hsignature
          exact List.forall_mem_cons.mpr ⟨⟨f, hentity, htype, hsignature⟩, ih h⟩
    | _ =>
      rw [hentity] at h
      cases h

theorem named_eq_nil_of_hasName {site : Session.EnumSite} {name : String}
    (h : site.hasName t name = false) :
    (t.scope site.own).named name = [] ∧
      ∀ scope, site.around = some scope → (t.scope scope).named name = [] := by
  have hnone : ∀ scope, t.lookupIn scope name .any = none → (t.scope scope).named name = [] := by
    intro scope hscope
    refine List.eq_nil_iff_forall_not_mem.mpr fun id hid => ?_
    exact List.find?_eq_none.mp hscope id hid (KindSet.accepts_any _)
  rw [Session.EnumSite.hasName, Bool.or_eq_false_iff] at h
  refine ⟨hnone _ (by simpa using h.1), fun scope hscope => hnone scope ?_⟩
  simpa [hscope] using h.2

/-- An enumerator is declared where its name was free, in its enum and around it. -/
theorem declares_insertEnumerator {site : Session.EnumSite} {key : String}
    (h : site.hasName t key = false) (value : Constant) (span : Span) (scope : ScopeId)
    (name : String) :
    Declares t (site.insert t key value span).2 name ((t.scope scope).named name)
      (((site.insert t key value span).2.scope scope).named name) := by
  obtain ⟨hown, haround⟩ := named_eq_nil_of_hasName h
  have hsymbol := t.symbol_insertEntity site.own key (.enumerator value) span
  unfold Session.EnumSite.insert
  cases hsite : site.around with
  | none =>
    exact declares_of_pushSymbol rfl (.refl _) rfl (fun _ _ => hown) fun h => by cases h
  | some around =>
    have hnamed := named_expose (t.insertEntity site.own key (.enumerator value) span).2 around key
      t.nextSymbol scope name
    split at hnamed
    · -- The enumerator becomes visible here, so it is not what was declared in its own scope.
      rename_i hvisible
      obtain ⟨⟨rfl, _⟩, rfl, hnew⟩ := hvisible
      have hnone := haround scope hsite
      have hinsert := t.named_pushSymbol key ⟨key, sourceName key,
        .ofName (t.qualify site.own key), site.own, none, false, none, span, .enumerator value⟩
        scope key
      rw [hnone, List.nil_append] at hinsert
      have hempty : ((t.insertEntity site.own key (.enumerator value) span).2.scope
          scope).named key = [] := by
        split at hinsert
        · exact absurd (hinsert ▸ List.mem_singleton_self _) hnew
        · exact hinsert
      rw [hempty] at hnamed
      refine .entity t.nextSymbol hnone hnamed (fun h => ?_) (congrArg Symbol.filedAs hsymbol)
      cases (congrArg Symbol.kind hsymbol).symm.trans h
    · exact declares_of_pushSymbol rfl (.expose _ _ _ _) hnamed (fun _ _ => hown)
        fun h => by cases h

end SymbolTable

namespace Session

variable {s u : Session}

def IsFiledUnder (s : Session) : Prop :=
  ∀ scope, ¬ s.table.IsHeader scope → ∀ name, ∀ id ∈ (s.table.scope scope).named name,
    (s.table.symbol id).filedAs = name

/-- Outside of template headers the symbols under one name are one entity. -/
def IsUnambiguous (s : Session) : Prop :=
  ∀ scope, ¬ s.table.IsHeader scope → ∀ name,
    s.table.IsOneEntity ((s.table.scope scope).named name)

/-- Where no class is found under the key of an instance, nothing is: a declaration is
filed under an identifier, and a key starts with a digit. -/
theorem IsFiledUnder.named_instanceKey (hfiled : s.IsFiledUnder) (hs : s.Closed)
    (hnamed : s.IsNamed) (hnames : s.HasIdentifiers) {template : SymbolId}
    (htemplate : s.table.HasSymbol template) (hkind : (s.table.symbol template).kind = .template)
    {scope : ScopeId} (hscope : ¬ s.table.IsHeader scope) {encoding : TypeId → String}
    {args : Arguments} (hnone : s.table.lookupIn scope
      (instanceKey encoding (s.table.symbol template).mangled args)
        (.singleton .classType) = none) :
    (s.table.scope scope).named (instanceKey encoding (s.table.symbol template).mangled args) =
      [] := by
  refine List.eq_nil_iff_forall_not_mem.mpr fun id hid => ?_
  have hfiledAs := hfiled scope hscope _ id hid
  cases horigin : (s.table.symbol id).origin? with
  | none =>
    have hplain : (s.table.symbol template).origin? = none := by
      obtain ⟨data, hdata⟩ := Symbol.exists_template hkind
      rw [Symbol.origin?, hdata]
      rfl
    have hname := hnames id (hs.linked.named_has hid) horigin
    rw [← Symbol.filedAs_eq_name horigin, hfiledAs,
      (hnamed template htemplate (by simp [hkind])).1 hplain] at hname
    exact not_isIdentifier_instanceKey (hnames template htemplate hplain) encoding args hname
  | some origin =>
    have hclass := Symbol.kind_of_origin? (Option.isSome_of_eq_some horigin)
    have hfound := List.find?_eq_none.mp hnone id hid
    rw [KindSet.accepts_singleton, hclass] at hfound
    exact hfound (decide_eq_true rfl)

theorem Change.declares {role : Role} (hs : s.Closed) (h : s.Change role u)
    (howned : s.table.Owned) (hplaced : s.table.Placed) (hfiled : s.IsFiledUnder)
    (hnamed : s.IsNamed) (hnames : s.HasIdentifiers) {scope : ScopeId}
    (hscope : ¬ u.table.IsHeader scope) (name : String) :
    SymbolTable.Declares s.table u.table name ((s.table.scope scope).named name)
      ((u.table.scope scope).named name) := by
  have hgrows := (h.grows hs).table
  cases h with
  | enter | form | edit => exact .nothing rfl
  | introduce scope' name' entity span has closed unnamed introduced =>
    have hkind := introduced.kind_ne_function
    have hfiledAs : Symbol.filedAs ⟨name', sourceName name', .ofName (s.table.qualify scope' name'),
        scope', none, false, none, span, entity⟩ = name' :=
      Symbol.filedAs_eq_name introduced.origin?_eq_none
    unfold SymbolTable.introduce
    cases SymbolTable.ownScopeKind? entity.kind with
    | none =>
      exact SymbolTable.declares_of_pushSymbol hfiledAs (.refl _) rfl (fun _ _ => unnamed)
        fun h => absurd h hkind
    | some kind =>
      refine SymbolTable.declares_of_pushSymbol hfiledAs (.pushOwnScope ?_ kind scope')
        (SymbolTable.named_pushOwnScope _ _ _ _ _ _) (fun _ _ => unnamed) fun h => absurd h hkind
      exact congrArg Symbol.scope (s.table.symbol_insertEntity scope' name' entity span)
  | overload scope' name' type signature keywords span table has known encoding eq =>
    obtain ⟨_, hfound, _, rfl⟩ := SymbolTable.declareOverload_eq eq
    refine SymbolTable.declares_of_pushSymbol rfl (.refl _) rfl (fun _ h => absurd rfl h)
      fun _ y hy => ?_
    obtain ⟨f, hf, hdiffer⟩ := SymbolTable.exists_function_of_findOverload hfound y hy
    refine ⟨f, ⟨type, keywords, signature⟩, ?_, ?_, hdiffer⟩
    · exact (hgrows.symbol y (hs.linked.named_has hy)).function_iff.mpr hf
    · rw [SymbolTable.symbol_pushSymbol, if_pos rfl]
  | register template data keyword args shown span has entity templated known unknown =>
    have hkind : (s.table.symbol template).kind = .template := congrArg Entity.kind entity
    refine SymbolTable.declares_of_pushSymbol rfl (.pushOwnScope ?_ .classBody _)
      (SymbolTable.named_pushOwnScope _ _ _ _ _ _) (fun hbeside _ => ?_) fun h => by cases h
    · exact congrArg Symbol.scope ((s.table.symbol_pushSymbol _ _ _).trans (if_pos rfl))
    have hbeside : scope = (s.table.symbol template).enclosing := hbeside
    subst hbeside
    -- Only no class was found under the key, but no declaration has a key for its name.
    have hheader := mt (SymbolTable.isHeader_of_grows hgrows
      (hs.symbol template has).enclosing_has).mpr hscope
    exact hfiled.named_instanceKey hs hnamed hnames has hkind hheader unknown
  | openHeader parameters valid known =>
    have hsame := SymbolTable.scope_openHeader_of_not_isHeader rfl hscope
    exact .nothing (congrArg (·.named name) hsame)
  | template header enclosing name' templated span table isOpen around unnamed eq =>
    obtain ⟨_, _, rfl⟩ := SymbolTable.introduceTemplate_eq eq
    refine SymbolTable.declares_of_pushSymbol ?_ (SymbolTable.grows_ownHeader isOpen) ?_
      (fun _ _ => unnamed) fun h => by cases h
    · rfl
    · rw [SymbolTable.named_settleHeader, SymbolTable.named_modifyScope]
      · rfl
      · exact fun _ => rfl
  | adopt header own existing isOpen scope' templated =>
    have hheader := isHeader_of_template howned hplaced templated scope'
    have hne : scope ≠ own := by
      rintro rfl
      exact hscope ((SymbolTable.isHeader_of_grows hgrows
        (hs.linked.symbol_scope_has existing scope scope')).mpr hheader)
    refine .nothing ?_
    rw [SymbolTable.named_settleHeader, SymbolTable.aliasParameters,
      SymbolTable.scope_foldl_expose_of_ne hne]
  | enumerate id data site name' value span entity own around free =>
    exact SymbolTable.declares_insertEnumerator free value span scope name

/-- What declaring keeps, outside of headers, where it has the names that it needs. -/
theorem Change.isUnambiguous {role : Role} (hs : s.Closed) (h : s.Change role u)
    (howned : s.table.Owned) (hplaced : s.table.Placed) (hnamed : s.IsNamed)
    (hnames : s.HasIdentifiers) (hfiled : s.IsFiledUnder) (hone : s.IsUnambiguous) :
    u.IsFiledUnder ∧ u.IsUnambiguous := by
  have hgrows := (h.grows hs).table
  refine ⟨fun scope hscope name id hid => ?_, fun scope hscope name => ?_⟩
  · have hbefore := SymbolTable.not_isHeader_of_grows hgrows hscope
    have hold : ∀ y ∈ (s.table.scope scope).named name, (u.table.symbol y).filedAs = name :=
      fun y hy => (hgrows.symbol y (hs.linked.named_has hy)).filedAs_eq.trans
        (hfiled scope hbefore name y hy)
    cases h.declares hs howned hplaced hfiled hnamed hnames hscope name with
    | nothing eq => exact hold id (eq ▸ hid)
    | entity y unnamed eq kind filed =>
      rw [eq, List.mem_singleton] at hid
      exact hid ▸ filed
    | overload y eq kind filed =>
      rw [eq] at hid
      rcases List.mem_append.mp hid with hid | hid
      · exact hold id hid
      · exact List.mem_singleton.mp hid ▸ filed
  · have hbefore := SymbolTable.not_isHeader_of_grows hgrows hscope
    refine (h.declares hs howned hplaced hfiled hnamed hnames hscope name).isOneEntity ?_
    exact hgrows.isOneEntity (fun _ hid => hs.linked.named_has hid) (hone scope hbefore name)

theorem Run.isUnambiguous {config : Config} (h : (start config).Run s)
    (hnames : s.HasIdentifiers) : s.IsFiledUnder ∧ s.IsUnambiguous := by
  have hkept := h.invariant (fun v => v.table.Owned ∧ v.table.Placed ∧ v.IsNamed ∧
      (v.HasIdentifiers → v.IsFiledUnder ∧ v.IsUnambiguous)) (.start config)
    (fun v w hv hchange ⟨howned, hplaced, hnamed, hone⟩ => by
      refine ⟨hchange.owned hv howned, hchange.placed hv hplaced, hchange.isNamed hv hnamed,
        fun hnames => ?_⟩
      have hnames := hnames.of_grows (hchange.grows hv)
      exact hchange.isUnambiguous hv howned hplaced hnamed hnames (hone hnames).1 (hone hnames).2)
    (fun _ _ hkept => hkept) ?_
  · exact hkept.2.2.2 hnames
  · refine ⟨Run.refl.owned, Run.refl.placed, Run.refl.isNamed, fun _ => ⟨?_, ?_⟩⟩
    · intro scope _ name id hid
      exact absurd ((Closed.start config).linked.named_has hid) (Nat.not_lt_zero _)
    · intro scope _ name
      have hnone : ((start config).table.scope scope).named name = [] :=
        List.eq_nil_iff_forall_not_mem.mpr fun id hid =>
          absurd ((Closed.start config).linked.named_has hid) (Nat.not_lt_zero _)
      exact .overloads (by simp [hnone]) (by simp [hnone])

/-- In an analysis of declarations that are named by identifiers, at every point and also
behind operations that fail, all symbols under one name of a scope that is no template
header are one entity: there is one symbol, and it is no function, or all are functions,
any two of which differ in their types and in their signatures. -/
theorem isOneEntity_named {config : Config} (hrun : (start config).Run s)
    (hnames : s.HasIdentifiers) {scope : ScopeId} (hscope : ¬ s.table.IsHeader scope)
    (name : String) : s.table.IsOneEntity ((s.table.scope scope).named name) :=
  (hrun.isUnambiguous hnames).2 scope hscope name

/-- Two overloads `void f(int)` and `void f(char)`, and a class of that name, which fails:
the name keeps denoting the overloads. -/
theorem isOneEntity_named_of_overloads :
    let overload (parameter : Keyword) := Operation.declareFunction "f" ⟨.singleton .void, none⟩
      [.name "f" .synthesized, .function [⟨⟨.singleton parameter, none⟩, [], none, .synthesized⟩]
        false .none .synthesized] .synthesized
    let s := (Operation.declareClass "f" .structKey .synthesized).after
      ((overload .char).after ((overload .int).after (start .standard)))
    (s.table.scope .global).named "f" = [⟨0⟩, ⟨1⟩] ∧ s.table.IsOneEntity [⟨0⟩, ⟨1⟩] := by
  intro overload s
  have hrun : (start .standard).Run s :=
    ((Run.refl.step _ .of_handles_nil).step _ .of_handles_nil).step _ .of_handles_nil
  have hnames : s.HasIdentifiers := by
    rintro ⟨n⟩ hid _
    have hcount : s.table.symbolCount = 2 := by decide +kernel
    have hlt : n < 2 := lt_of_lt_of_eq hid hcount
    have hname : ∀ n < 2, (s.table.symbol ⟨n⟩).name = "f" := by decide +kernel
    rw [hname n hlt]
    exact ⟨'f', [], by simp, by decide⟩
  have hnamed : (s.table.scope .global).named "f" = [⟨0⟩, ⟨1⟩] := by decide +kernel
  exact ⟨hnamed, hnamed ▸ isOneEntity_named hrun hnames (by decide +kernel) "f"⟩

end Session

end TemplateAnalysis
