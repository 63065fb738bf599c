import TemplateAnalysis.Proofs.Session.Decoding
import TemplateAnalysis.Proofs.SymbolTable.Containers

/-!
# What nested names tell

The nested name of a class or an enum tells the internal names along its path, and as
long as nothing on the path is declared in a template header, it tells the symbol.
Headers do not contribute to names: a symbol that is declared in one, behind the
template that it belongs to, has the name that it would have beside the template.
-/

namespace TemplateAnalysis

open Analysis

/-! ### Sessions stay placed -/

namespace SymbolTable

theorem AddsAside.insertEntity (t : SymbolTable) (scope : ScopeId) (name : String)
    (entity : Entity) (span : Span) (h : ownScopeKind? entity.kind = none) :
    AddsAside t (t.insertEntity scope name entity span).2 := by
  refine .pushSymbol t name fun hcontainer => ?_
  rw [Symbol.IsContainer, show Symbol.kind _ = entity.kind from rfl, h] at hcontainer
  cases hcontainer

theorem AddsAside.expose (t : SymbolTable) (scope : ScopeId) (name : String) (id : SymbolId) :
    AddsAside t (t.expose scope name id) := .modifyScope fun _ => .expose _ _ _

theorem AddsAside.settleHeader (t : SymbolTable) (header : ScopeId) :
    AddsAside t (t.settleHeader header) := .modifyScope fun _ => .settle _

theorem AddsAside.foldl_expose (scope : ScopeId) (aliases : List (String × SymbolId)) :
    ∀ t : SymbolTable,
      AddsAside t (aliases.foldl (fun t (name, target) => t.expose scope name target) t) := by
  induction aliases with
  | nil => exact refl
  | cons b rest ih => exact fun t => (expose t scope b.1 b.2).trans (ih _)

theorem AddsAside.insertParameters (header : ScopeId) (ps : ParameterList) :
    ∀ (index : Nat) (t : SymbolTable),
      AddsAside t (Session.insertParameters header index ps t) := by
  induction ps with
  | nil => exact fun _ t => refl t
  | cons p rest ih =>
    intro index t
    rw [Session.insertParameters]
    split
    · exact ih _ _
    · exact (insertEntity t header p.name _ p.span rfl).trans (ih _ _)

/-- A name that a scope does not have is free for a symbol with a scope of its own. -/
theorem Placed.introduce {t : SymbolTable} (ht : t.Linked) (h : t.Placed) {scope : ScopeId}
    (hscope : t.HasScope scope) {name : String} (hnone : (t.scope scope).named name = [])
    {entity : Entity} (hplain : entity.origin? = none) (span : Span) :
    (t.introduce scope name entity span).2.Placed := by
  unfold SymbolTable.introduce
  cases hkind : ownScopeKind? entity.kind with
  | none => exact h.of_addsAside ht (.insertEntity t scope name entity span hkind)
  | some kind =>
    have hfiledAs : Symbol.filedAs ⟨name, sourceName name, .ofName (t.qualify scope name), scope,
        none, false, none, span, entity⟩ = name := Symbol.filedAs_eq_name hplain
    refine Placed.pushContainer ht h rfl hscope (Option.isSome_iff_exists.mpr ⟨kind, hkind⟩)
      hfiledAs.symm fun y hy hy' henclosing hfiled => ?_
    -- A symbol that is filed under the name would be among those under it.
    have hmem := h.filed y hy hy'
    rw [henclosing, hfiled, hfiledAs] at hmem
    have hnamed : y ∈ (t.scope scope).named name :=
      List.mem_map.mpr ⟨_, List.mem_filter.mpr ⟨hmem, by simp⟩, rfl⟩
    rw [hnone] at hnamed
    cases hnamed

/-- A key under which no class is found is free for an instance. -/
theorem Placed.declareInstance {t : SymbolTable} (ht : t.Linked) (h : t.Placed) {scope : ScopeId}
    (hscope : t.HasScope scope) {key : String}
    (hnone : t.lookupIn scope key (.singleton .classType) = none) (shown : String)
    (keyword : ClassKey) (origin : InstanceOrigin) (span : Span) :
    (t.declareInstance scope key shown keyword origin span).2.Placed := by
  refine Placed.pushContainer ht h rfl hscope rfl rfl fun y hy hy' henclosing hfiled horigin => ?_
  have hmem := h.filed y hy hy'
  rw [henclosing, hfiled] at hmem
  have hnamed : y ∈ (t.scope scope).named key :=
    List.mem_map.mpr ⟨_, List.mem_filter.mpr ⟨hmem, by simp [Symbol.filedAs, Symbol.origin?,
      Entity.origin?, Entity.class?]⟩, rfl⟩
  have hclass := Symbol.kind_of_origin? (x := t.symbol y) horigin
  have hfound := List.find?_eq_none.mp hnone y hnamed
  rw [KindSet.accepts_singleton, hclass] at hfound
  exact hfound (decide_eq_true rfl)

end SymbolTable

namespace Session

variable {s u : Session}

theorem Change.placed {role : Role} (hs : s.Closed) (h : s.Change role u)
    (hplaced : s.table.Placed) : u.table.Placed := by
  have ht := hs.linked
  cases h with
  | enter scope has => exact hplaced
  | form op isOn known formed => exact hplaced
  | edit id f has edit => exact hplaced.of_addsAside ht (.modifySymbol fun _ => edit.grows)
  | introduce scope name entity span has closed unnamed introduced =>
    exact hplaced.introduce ht has unnamed introduced.origin?_eq_none span
  | overload scope name type signature keywords span table has known encoding eq =>
    obtain ⟨_, _, _, rfl⟩ := SymbolTable.declareOverload_eq eq
    exact hplaced.of_addsAside ht (.pushSymbol _ _ fun h => by cases h)
  | register template data keyword args shown span has entity templated known unknown =>
    exact hplaced.declareInstance ht (hs.symbol template has).enclosing_has unknown shown keyword _
      span
  | openHeader parameters valid known =>
    exact hplaced.of_addsAside ht ((SymbolTable.AddsAside.pushScope _ rfl).trans
      (.insertParameters _ _ _ _))
  | template header enclosing name templated span table isOpen around unnamed eq =>
    have hgrows := SymbolTable.grows_introduceTemplate isOpen eq
    obtain ⟨_, _, rfl⟩ := SymbolTable.introduceTemplate_eq eq
    refine hplaced.of_addsAside ht ((SymbolTable.AddsAside.insertEntity s.table enclosing name _
      span rfl).trans ((SymbolTable.AddsAside.modifySymbol fun _ => ?_).trans
        ((SymbolTable.AddsAside.modifyScope fun _ => ?_).trans (.settleHeader _ _))))
    · exact .of_scope (congrArg Symbol.scope (s.table.symbol_insertEntity _ _ _ _)) header
    · exact SymbolTable.grows_owner_of_insert isOpen
  | adopt header own existing isOpen scope =>
    exact hplaced.of_addsAside ht ((SymbolTable.AddsAside.foldl_expose own _ _).trans
      (.settleHeader _ _))
  | enumerate id data site name value span entity own around free =>
    have hinsert := SymbolTable.AddsAside.insertEntity s.table site.own name
      (.enumerator value) span rfl
    unfold EnumSite.insert
    cases site.around with
    | none => exact hplaced.of_addsAside ht hinsert
    | some scope => exact hplaced.of_addsAside ht (hinsert.trans (.expose _ _ _ _))

theorem Run.placed {config : Config} (h : (start config).Run s) : s.table.Placed :=
  h.invariant (fun s => s.table.Placed) (.start config)
    (fun _ _ hv hchange hplaced => hchange.placed hv hplaced) (fun _ _ hplaced => hplaced) .initial

/-! ### Internal names -/

/-- A declaration has a sized name, and an instance the key of its template. -/
def IsNamed (s : Session) : Prop :=
  ∀ id, s.table.HasSymbol id → (s.table.symbol id).kind ≠ .function →
    ((s.table.symbol id).origin? = none →
      (s.table.symbol id).mangled = sourceName (s.table.symbol id).name) ∧
    ∀ origin, (s.table.symbol id).origin? = some origin → s.table.HasSymbol origin.template ∧
      (s.table.symbol origin.template).kind = .template ∧
      ∃ encoding, (s.table.symbol id).mangled =
        instanceKey encoding (s.table.symbol origin.template).mangled origin.arguments

theorem Change.isNamed {role : Role} (hs : s.Closed) (h : s.Change role u) (hnamed : s.IsNamed) :
    u.IsNamed := by
  have hadds := h.adds hs
  intro id hid hkind
  -- The template of an instance stays, with its name.
  have htemplate : ∀ template, s.table.HasSymbol template →
      (s.table.symbol template).kind = .template → ∀ args, (∃ encoding,
        (u.table.symbol id).mangled =
          instanceKey encoding (s.table.symbol template).mangled args) →
      u.table.HasSymbol template ∧ (u.table.symbol template).kind = .template ∧
        ∃ encoding, (u.table.symbol id).mangled =
          instanceKey encoding (u.table.symbol template).mangled args := by
    rintro template has hkind args hmangled
    have hgrows := hadds.grows.symbol template has
    rw [hgrows.kind_eq, hgrows.mangled]
    exact ⟨hadds.grows.hasSymbol _ has, hkind, hmangled⟩
  rcases hadds.symbol id hid with hold | hnew
  · have hgrows := hadds.grows.symbol id hold
    obtain ⟨hplain, hinstance⟩ := hnamed id hold (hgrows.kind_eq ▸ hkind)
    refine ⟨fun horigin => ?_, fun origin horigin => ?_⟩
    · rw [hgrows.mangled, hgrows.name]
      exact hplain (hgrows.origin?_eq ▸ horigin)
    · obtain ⟨has, htemplated, hmangled⟩ := hinstance origin (hgrows.origin?_eq ▸ horigin)
      exact htemplate origin.template has htemplated origin.arguments (hgrows.mangled ▸ hmangled)
  · cases hnew with
    | declared kind plain mangled =>
      refine ⟨fun _ => mangled, fun origin horigin => ?_⟩
      rw [plain] at horigin
      cases horigin
    | overload type keywords signature entity => exact absurd (congrArg Entity.kind entity) hkind
    | registered kind template args origin has templated known mangled =>
      refine ⟨fun horigin => ?_, fun origin' horigin => ?_⟩
      · rw [origin] at horigin
        cases horigin
      · cases origin.symm.trans horigin
        exact htemplate template has templated args ⟨_, mangled⟩

theorem Run.isNamed {config : Config} (h : (start config).Run s) : s.IsNamed :=
  h.invariant IsNamed (.start config) (fun _ _ hv hchange hnamed => hchange.isNamed hv hnamed)
    (fun _ _ hnamed => hnamed) fun _ hid => absurd hid (Nat.not_lt_zero _)

end Session

/-! ### Symbols of one scope -/

open Token in
theorem sourceName_injective {m n : String} (hm : IsIdentifier m) (hn : IsIdentifier n)
    (h : sourceName m = sourceName n) : m = n := by
  have htokens : [name m] = [name n] :=
    spell_injective (List.forall_mem_singleton.mpr hm) (List.forall_mem_singleton.mpr hn)
      (by rw [← spell_name, h, spell_name])
  exact name.inj (List.singleton_inj.mp htokens)

theorem toList_instanceKey_eq_append (encoding : TypeId → String) (mangled : String)
    (args : Arguments) :
    ∃ rest, (instanceKey encoding mangled args).toList = mangled.toList ++ 'I' :: rest :=
  ⟨(TemplateArgument.encodings encoding args).toList ++ ['E'], by simp [instanceKey]⟩

open Token in
theorem instanceKey_ne_sourceName {m n : String} (hm : IsIdentifier m) (hn : IsIdentifier n)
    (encoding : TypeId → String) (args : Arguments) :
    instanceKey encoding (sourceName m) args ≠ sourceName n := by
  intro h
  obtain ⟨rest, hrest⟩ := toList_instanceKey_eq_append encoding (sourceName m) args
  have hspelled : (name m).spelling ++ 'I' :: rest = (name n).spelling ++ [] := by
    rw [List.append_nil]
    exact hrest.symm.trans (congrArg String.toList h)
  cases (spelling_cancel (show (name m).IsSound from hm) (show (name n).IsSound from hn)
    hspelled).2

open Token in
theorem not_isIdentifier_instanceKey {m : String} (hm : IsIdentifier m)
    (encoding : TypeId → String) (args : Arguments) :
    ¬ IsIdentifier (instanceKey encoding (sourceName m) args) := by
  rintro ⟨c, rest, hc, hdigit⟩
  obtain ⟨more, hmore⟩ := toList_instanceKey_eq_append encoding (sourceName m) args
  obtain ⟨d, digits, hd, hsort⟩ := spelling_eq_cons (show (name m).IsSound from hm)
  rw [hc, show (sourceName m).toList = d :: digits from hd] at hmore
  obtain ⟨rfl, _⟩ := List.cons.inj hmore
  rw [sortOf, hdigit, if_neg Bool.false_ne_true] at hsort
  split at hsort
  · cases hsort
  · split at hsort
    · cases hsort
    · cases hsort

theorem Symbol.IsContainer.kind_ne {x : Symbol} {kind : SymbolKind} (h : x.IsContainer)
    (hkind : SymbolTable.ownScopeKind? kind = none) : x.kind ≠ kind := by
  rintro rfl
  rw [Symbol.IsContainer, hkind] at h
  cases h

theorem Symbol.IsContainer.ne_function {x : Symbol} (h : x.IsContainer) : x.kind ≠ .function :=
  h.kind_ne rfl

namespace Session

variable {s : Session}

/-- The internal name of a class, an enum or a namespace starts with the sized name of a
declaration, and is that name unless it is the key of an instance. -/
theorem IsNamed.exists_sourceName (hnamed : s.IsNamed) (hnames : s.HasIdentifiers)
    {id : SymbolId} (hid : s.table.HasSymbol id) (hkind : (s.table.symbol id).kind ≠ .function) :
    ∃ n, IsIdentifier n ∧
      (((s.table.symbol id).origin? = none ∧ n = (s.table.symbol id).name ∧
          (s.table.symbol id).mangled = sourceName n) ∨
        ((s.table.symbol id).origin?.isSome = true ∧ ∃ encoding args,
          (s.table.symbol id).mangled = instanceKey encoding (sourceName n) args)) := by
  obtain ⟨hplain, hinstance⟩ := hnamed id hid hkind
  cases horigin : (s.table.symbol id).origin? with
  | none => exact ⟨_, hnames id hid horigin, .inl ⟨rfl, rfl, hplain horigin⟩⟩
  | some origin =>
    obtain ⟨has, htemplated, encoding, hmangled⟩ := hinstance origin horigin
    -- The template is a declaration, so its name is an identifier.
    have hdeclared : (s.table.symbol origin.template).origin? = none := by
      obtain ⟨data, hdata⟩ := Symbol.exists_template htemplated
      rw [Symbol.origin?, hdata]
      rfl
    have hsized := (hnamed _ has (by simp [htemplated])).1 hdeclared
    rw [hsized] at hmangled
    exact ⟨_, hnames _ has hdeclared, .inr ⟨rfl, encoding, _, hmangled⟩⟩

/-- In one scope an internal name belongs to one symbol with a scope of its own. -/
theorem eq_of_mangled_eq (hplaced : s.table.Placed) (hnamed : s.IsNamed)
    (hnames : s.HasIdentifiers) {y z : SymbolId} (hy : s.table.HasSymbol y)
    (hz : s.table.HasSymbol z) (hy' : (s.table.symbol y).IsContainer)
    (hz' : (s.table.symbol z).IsContainer)
    (henclosing : (s.table.symbol y).enclosing = (s.table.symbol z).enclosing)
    (hmangled : (s.table.symbol y).mangled = (s.table.symbol z).mangled) : y = z := by
  obtain ⟨m, hm, hleft⟩ := hnamed.exists_sourceName hnames hy hy'.ne_function
  obtain ⟨n, hn, hright⟩ := hnamed.exists_sourceName hnames hz hz'.ne_function
  rcases hleft with ⟨horigin, rfl, hsized⟩ | ⟨horigin, encoding, args, hkey⟩ <;>
    rcases hright with ⟨horigin', rfl, hsized'⟩ | ⟨horigin', encoding', args', hkey'⟩
  · have hname := sourceName_injective hm hn (hsized.symm.trans (hmangled.trans hsized'))
    refine hplaced.unique y z hy hz hy' hz' henclosing ?_ (by rw [horigin, horigin'])
    rw [Symbol.filedAs_eq_name horigin, Symbol.filedAs_eq_name horigin', hname]
  · exact absurd (hkey'.symm.trans (hmangled.symm.trans hsized))
      (instanceKey_ne_sourceName hn hm encoding' args')
  · exact absurd (hkey.symm.trans (hmangled.trans hsized'))
      (instanceKey_ne_sourceName hm hn encoding args)
  · refine hplaced.unique y z hy hz hy' hz' henclosing ?_ (horigin.trans horigin'.symm)
    rw [Symbol.filedAs, Symbol.filedAs, if_pos horigin, if_pos horigin', hmangled]

end Session

/-! ### Where names collide -/

namespace SymbolTable

/-- Two symbols that cannot be told by their names: they have one internal name and the
same owners, and one of them stands in a template header, which is not among these. -/
structure Collision (t : SymbolTable) (o p : SymbolId) : Prop where
  ne : o ≠ p
  mangled : (t.symbol o).mangled = (t.symbol p).mangled
  owners : t.ownerChain (t.symbol o).enclosing = t.ownerChain (t.symbol p).enclosing
  header : t.IsHeader (t.symbol o).enclosing ∨ t.IsHeader (t.symbol p).enclosing

/-- The internal names along the path of a symbol. -/
def pathNames (t : SymbolTable) (id : SymbolId) : List String :=
  (t.path id).map fun o => (t.symbol o).mangled

end SymbolTable

namespace Session

variable {s : Session}

/-- Where the names along two paths agree, the symbols are the same or the paths part at
symbols that collide. The induction is on the length of the paths, from the inside. -/
theorem eq_or_collision (hs : s.Closed) (hplaced : s.table.Placed) (hnamed : s.IsNamed)
    (hnames : s.HasIdentifiers) {y z : SymbolId} (hy : s.table.HasSymbol y)
    (hz : s.table.HasSymbol z) (hy' : (s.table.symbol y).IsContainer)
    (hz' : (s.table.symbol z).IsContainer) (h : s.table.pathNames y = s.table.pathNames z) :
    y = z ∨ ∃ o ∈ s.table.path y, ∃ p ∈ s.table.path z, s.table.Collision o p := by
  obtain ⟨n, hn⟩ : ∃ n, (s.table.path y).length = n := ⟨_, rfl⟩
  induction n using Nat.strongRecOn generalizing y z with
  | ind n ih =>
    have ht := hs.linked
    have hscope := (hs.symbol y hy).enclosing_has
    have hscope' := (hs.symbol z hz).enclosing_has
    have hself : ∀ id, id ∈ s.table.path id := fun id => by simp [SymbolTable.path]
    rw [SymbolTable.pathNames, SymbolTable.pathNames, SymbolTable.path, SymbolTable.path,
      List.map_append, List.map_append] at h
    obtain ⟨howners, hlast⟩ := List.append_inj' h rfl
    have hmangled := List.singleton_inj.mp hlast
    by_cases hchain : s.table.ownerChain (s.table.symbol y).enclosing =
        s.table.ownerChain (s.table.symbol z).enclosing
    · -- The two stand below the same owners, hence outside of headers in one scope.
      by_cases hyz : y = z
      · exact .inl hyz
      · refine .inr ⟨y, hself y, z, hself z, hyz, hmangled, hchain, ?_⟩
        by_contra hheader
        rw [not_or] at hheader
        have hsame := hplaced.scope_eq ht hscope hscope' hheader.1 hheader.2 hchain
        exact hyz (eq_of_mangled_eq hplaced hnamed hnames hy hz hy' hz' hsame hmangled)
    · -- The owners differ, so the paths part further out, at owners of both.
      have hlength := congrArg List.length howners
      rw [List.length_map, List.length_map] at hlength
      rcases hplaced.ownerChain_eq_path ht hscope with hnil | ⟨o, ho, ho', hpath⟩
      · rw [hnil] at hlength hchain
        exact absurd (List.eq_nil_of_length_eq_zero hlength.symm).symm hchain
      rcases hplaced.ownerChain_eq_path ht hscope' with hnil | ⟨p, hp, hp', hpath'⟩
      · rw [hnil] at hlength hchain
        exact absurd (List.eq_nil_of_length_eq_zero hlength) hchain
      rw [hpath, hpath'] at howners hchain
      have hshorter : (s.table.path o).length < n := by
        rw [← hn, ← hpath, SymbolTable.path, List.length_append]
        exact Nat.lt_succ_self _
      rcases ih _ hshorter ho hp ho' hp' howners rfl with rfl | ⟨a, ha, b, hb, hcollision⟩
      · exact absurd rfl hchain
      · refine .inr ⟨a, ?_, b, ?_, hcollision⟩
        · rw [SymbolTable.path, hpath]
          exact List.mem_append_left _ ha
        · rw [SymbolTable.path, hpath']
          exact List.mem_append_left _ hb

/-! ### Reading a nested name -/

open Token in
/-- The internal name of a symbol with a scope of its own can be split off, and starts
with a sized name. -/
theorem exists_code_eq_cons (hnamed : s.IsNamed) (hnames : s.HasIdentifiers)
    {codes : SymbolId → List Token} (hcoded : s.table.Coded codes) {id : SymbolId}
    (hid : s.table.HasSymbol id) (hkind : (s.table.symbol id).kind ≠ .function) :
    IsUnit (codes id) ∧ ∃ n rest, codes id = name n :: rest := by
  obtain ⟨hspelled, _, hunit, _⟩ := hcoded id hid
  have hunit := hunit hkind
  refine ⟨hunit, ?_⟩
  cases hcode : codes id with
  | nil =>
    rw [hcode] at hunit
    cases hunit
  | cons token rest =>
    rw [hcode] at hunit
    cases hunit with
    | single n => exact ⟨n, [], rfl⟩
    | key n _ => exact ⟨n, _, rfl⟩
    | nested _ =>
      -- A nested name would start with a letter, and the internal name with a digit.
      obtain ⟨m, hm, hmangled⟩ := hnamed.exists_sourceName hnames hid hkind
      have hstart : ∃ r, (s.table.symbol id).mangled.toList = (name m).spelling ++ r := by
        rcases hmangled with ⟨_, _, hmangled⟩ | ⟨_, encoding, args, hmangled⟩
        · exact ⟨[], by rw [hmangled, List.append_nil]; rfl⟩
        · obtain ⟨r, hr⟩ := toList_instanceKey_eq_append encoding (sourceName m) args
          exact ⟨'I' :: r, hmangled ▸ hr⟩
      obtain ⟨r, hr⟩ := hstart
      obtain ⟨c, more, hc, hsort⟩ := spelling_eq_cons (show (name m).IsSound from hm)
      rw [hspelled, hcode, hc] at hr
      obtain ⟨rfl, _⟩ := List.cons.inj hr
      cases hsort

open Token in
/-- Names that can be split off and start with a sized name can be read off one behind
the other, up to where the bracket around them closes. -/
theorem units_cancel : ∀ {xs ys : List (List Token)},
    (∀ x ∈ xs, IsUnit x ∧ ∃ n rest, x = name n :: rest) →
    (∀ y ∈ ys, IsUnit y ∧ ∃ n rest, y = name n :: rest) →
    xs.flatten ++ [letter 'E'] = ys.flatten ++ [letter 'E'] → xs = ys
  | [], [], _, _, _ => rfl
  | [], y :: ys, _, hys, h => by
    obtain ⟨_, n, rest, rfl⟩ := hys y List.mem_cons_self
    cases (List.cons.inj h).1
  | x :: xs, [], hxs, _, h => by
    obtain ⟨_, n, rest, rfl⟩ := hxs x List.mem_cons_self
    cases (List.cons.inj h).1
  | x :: xs, y :: ys, hxs, hys, h => by
    obtain ⟨hx, hxs'⟩ := List.forall_mem_cons.mp hxs
    obtain ⟨hy, hys'⟩ := List.forall_mem_cons.mp hys
    have hends : ∀ zs : List (List Token),
        (∀ z ∈ zs, IsUnit z ∧ ∃ n rest, z = name n :: rest) →
        ¬ StartsKey (zs.flatten ++ [letter 'E']) := by
      intro zs hzs
      cases zs with
      | nil => simp [StartsKey]
      | cons z zs =>
        obtain ⟨_, n, rest, rfl⟩ := hzs z List.mem_cons_self
        simp [StartsKey]
    rw [List.flatten_cons, List.flatten_cons, List.append_assoc, List.append_assoc] at h
    obtain ⟨hhead, hrest⟩ := hx.1.cancel hy.1 (hends xs hxs') (hends ys hys') h
    rw [hhead, units_cancel hxs' hys' hrest]

theorem nestedName_eq (t : SymbolTable) (id : SymbolId) :
    t.nestedName id =
      if t.ownerChain (t.symbol id).enclosing = [] then (t.symbol id).mangled
      else "N" ++ String.join (t.pathNames id) ++ "E" := by
  rw [SymbolTable.nestedName, SymbolTable.pathNames, SymbolTable.path, List.map_append]
  cases t.ownerChain (t.symbol id).enclosing with
  | nil => rfl
  | cons o owners =>
    rw [if_neg (List.cons_ne_nil o owners)]
    simp [String.join_cons, String.append_assoc]

theorem nestedCode_eq (t : SymbolTable) (codes : SymbolId → List Token) (id : SymbolId) :
    t.nestedCode codes id =
      if t.ownerChain (t.symbol id).enclosing = [] then codes id
      else .letter 'N' :: (((t.path id).map codes).flatten ++ [.letter 'E']) := by
  rw [SymbolTable.nestedCode, SymbolTable.path]
  cases t.ownerChain (t.symbol id).enclosing with
  | nil => rfl
  | cons o owners => simp [List.flatMap]

theorem pathNames_eq (hs : s.Closed) (hplaced : s.table.Placed) {codes : SymbolId → List Token}
    (hcoded : s.table.Coded codes) {id : SymbolId} (hid : s.table.HasSymbol id)
    (hid' : (s.table.symbol id).IsContainer) :
    s.table.pathNames id =
      ((s.table.path id).map codes).map fun code => String.ofList (spell code) := by
  rw [SymbolTable.pathNames, List.map_map]
  refine List.map_congr_left fun o ho => ?_
  obtain ⟨ho, _⟩ := hplaced.mem_path hs.linked hid hid' ho
  exact String.toList_inj.mp ((hcoded o ho).spelled.trans String.toList_ofList.symm)

open Token in
/-- Equal nested names have the same tokens along the path. -/
theorem pathCodes_eq (hs : s.Closed) (hplaced : s.table.Placed) (hnamed : s.IsNamed)
    (hnames : s.HasIdentifiers) {codes : SymbolId → List Token} (hcoded : s.table.Coded codes)
    {y z : SymbolId} (hy : s.table.HasSymbol y) (hz : s.table.HasSymbol z)
    (hy' : (s.table.symbol y).IsContainer) (hz' : (s.table.symbol z).IsContainer)
    (h : s.table.nestedName y = s.table.nestedName z) :
    (s.table.path y).map codes = (s.table.path z).map codes := by
  have ht := hs.linked
  have htokens : s.table.nestedCode codes y = s.table.nestedCode codes z :=
    spell_injective (hcoded.isCode_nestedCode ht hy).sound (hcoded.isCode_nestedCode ht hz).sound
      (by rw [← hcoded.toList_nestedName ht hy, h, hcoded.toList_nestedName ht hz])
  have hunits : ∀ id, s.table.HasSymbol id → (s.table.symbol id).IsContainer →
      ∀ code ∈ (s.table.path id).map codes, IsUnit code ∧ ∃ n rest, code = name n :: rest := by
    intro id hid hid' code hcode
    obtain ⟨o, ho, rfl⟩ := List.mem_map.mp hcode
    obtain ⟨ho, ho'⟩ := hplaced.mem_path ht hid hid' ho
    exact exists_code_eq_cons hnamed hnames hcoded ho ho'.ne_function
  -- Only a name with owners starts with a letter.
  have hstart : ∀ id, s.table.HasSymbol id → (s.table.symbol id).IsContainer →
      ∀ rest, codes id ≠ letter 'N' :: rest := by
    intro id hid hid' rest hcode
    obtain ⟨_, n, more, hname⟩ := exists_code_eq_cons hnamed hnames hcoded hid hid'.ne_function
    rw [hname] at hcode
    cases hcode
  rw [nestedCode_eq, nestedCode_eq] at htokens
  by_cases hroot : s.table.ownerChain (s.table.symbol y).enclosing = [] <;>
    by_cases hroot' : s.table.ownerChain (s.table.symbol z).enclosing = []
  · rw [if_pos hroot, if_pos hroot'] at htokens
    rw [SymbolTable.path, SymbolTable.path, hroot, hroot']
    exact congrArg (fun code => [code]) htokens
  · rw [if_pos hroot, if_neg hroot'] at htokens
    exact absurd htokens (hstart y hy hy' _)
  · rw [if_neg hroot, if_pos hroot'] at htokens
    exact absurd htokens.symm (hstart z hz hz' _)
  · rw [if_neg hroot, if_neg hroot'] at htokens
    exact units_cancel (hunits y hy hy') (hunits z hz hz') (List.cons.inj htokens).2

theorem nestedName_eq_of_pathNames_eq {t : SymbolTable} {y z : SymbolId}
    (h : t.pathNames y = t.pathNames z) : t.nestedName y = t.nestedName z := by
  have hnames := h
  rw [SymbolTable.pathNames, SymbolTable.pathNames, SymbolTable.path, SymbolTable.path,
    List.map_append, List.map_append] at hnames
  obtain ⟨howners, hlast⟩ := List.append_inj' hnames rfl
  have hroots : t.ownerChain (t.symbol y).enclosing = [] ↔
      t.ownerChain (t.symbol z).enclosing = [] := by
    rw [← List.map_eq_nil_iff, howners, List.map_eq_nil_iff]
  have hmangled : (t.symbol y).mangled = (t.symbol z).mangled := List.singleton_inj.mp hlast
  rw [nestedName_eq, nestedName_eq, h, hmangled, if_congr hroots rfl rfl]

theorem IsUserType.isContainer {id : SymbolId} (h : s.IsUserType id) :
    (s.table.symbol id).IsContainer := by
  rcases h with h | h
  · rw [Symbol.IsContainer, h]
    rfl
  · rw [Symbol.IsContainer, h]
    rfl

/-- In an analysis of declarations that are named by identifiers, the nested names of
classes and enums are equal exactly if the internal names along their paths are. Then
the symbols are the same, or their paths part at symbols that collide, one of which is
declared in a template header. So outside of headers a nested name identifies a class or
an enum. -/
theorem nestedName_eq_iff {config : Config} (hrun : (start config).Run s)
    (hnames : s.HasIdentifiers) {y z : SymbolId} (hy : s.table.HasSymbol y)
    (hz : s.table.HasSymbol z) (hy' : s.IsUserType y) (hz' : s.IsUserType z) :
    (s.table.nestedName y = s.table.nestedName z ↔ s.table.pathNames y = s.table.pathNames z) ∧
    (s.table.nestedName y = s.table.nestedName z →
      y = z ∨ ∃ o ∈ s.table.path y, ∃ p ∈ s.table.path z, s.table.Collision o p) ∧
    ((∀ o ∈ s.table.path y, ¬ s.table.IsHeader (s.table.symbol o).enclosing) →
      (∀ p ∈ s.table.path z, ¬ s.table.IsHeader (s.table.symbol p).enclosing) →
      (s.table.nestedName y = s.table.nestedName z ↔ y = z)) := by
  have hs := hrun.closed
  have hplaced := hrun.placed
  have hnamed := hrun.isNamed
  obtain ⟨codes, hcoded⟩ := hrun.isCoded hnames
  have hpaths : s.table.nestedName y = s.table.nestedName z →
      s.table.pathNames y = s.table.pathNames z := fun h => by
    rw [pathNames_eq hs hplaced hcoded hy hy'.isContainer,
      pathNames_eq hs hplaced hcoded hz hz'.isContainer,
      pathCodes_eq hs hplaced hnamed hnames hcoded hy hz hy'.isContainer hz'.isContainer h]
  have hparts : s.table.nestedName y = s.table.nestedName z →
      y = z ∨ ∃ o ∈ s.table.path y, ∃ p ∈ s.table.path z, s.table.Collision o p := fun h =>
    eq_or_collision hs hplaced hnamed hnames hy hz hy'.isContainer hz'.isContainer (hpaths h)
  refine ⟨⟨hpaths, nestedName_eq_of_pathNames_eq⟩, hparts, fun houtside houtside' => ?_⟩
  constructor
  · intro h
    refine (hparts h).resolve_right ?_
    rintro ⟨o, ho, p, hp, hcollision⟩
    exact hcollision.header.elim (houtside o ho) (houtside' p hp)
  · rintro rfl
    rfl

/-- A class `Inner` behind the template `Box`, inside of its header, and another beside
it: two classes with one nested name, and it is the header that makes the difference. -/
theorem nestedName_eq_iff_of_inner :
    let header := (Operation.beginTemplate [⟨"T", .type, none, false, none, .synthesized⟩]
      .synthesized).after (start .standard)
    let box := (Operation.declareClass "Box" .structKey .synthesized).after header
    let inside := (Operation.declareClass "Inner" .structKey .synthesized).after box
    let outside := (Operation.endTemplate .synthesized).after inside
    let s := (Operation.declareClass "Inner" .structKey .synthesized).after outside
    s.table.nestedName ⟨2⟩ = s.table.nestedName ⟨3⟩ ∧
      ∃ o ∈ s.table.path ⟨2⟩, ∃ p ∈ s.table.path ⟨3⟩, s.table.Collision o p := by
  intro header box inside outside s
  have hrun : (start .standard).Run s :=
    ((((Run.refl.step _ .of_handles_nil).step _ .of_handles_nil).step _ .of_handles_nil).step _
      .of_handles_nil).step _ .of_handles_nil
  have hnames : s.HasIdentifiers := by
    rintro ⟨n⟩ hid _
    have hcount : s.table.symbolCount = 4 := by decide +kernel
    have hlt : n < 4 := lt_of_lt_of_eq hid hcount
    have hnames : (s.table.symbol ⟨0⟩).name = "T" ∧ (s.table.symbol ⟨1⟩).name = "Box" ∧
        (s.table.symbol ⟨2⟩).name = "Inner" ∧ (s.table.symbol ⟨3⟩).name = "Inner" := by
      decide +kernel
    rcases (show n = 0 ∨ n = 1 ∨ n = 2 ∨ n = 3 by omega) with rfl | rfl | rfl | rfl
    · rw [hnames.1]
      exact ⟨'T', [], by simp, by decide⟩
    · rw [hnames.2.1]
      exact ⟨'B', ['o', 'x'], by simp, by decide⟩
    · rw [hnames.2.2.1]
      exact ⟨'I', ['n', 'n', 'e', 'r'], by simp, by decide⟩
    · rw [hnames.2.2.2]
      exact ⟨'I', ['n', 'n', 'e', 'r'], by simp, by decide⟩
  have hinside : s.table.HasSymbol ⟨2⟩ ∧ s.IsUserType ⟨2⟩ :=
    ⟨show 2 < s.table.symbolCount by decide +kernel, .inl (by decide +kernel)⟩
  have houtside : s.table.HasSymbol ⟨3⟩ ∧ s.IsUserType ⟨3⟩ :=
    ⟨show 3 < s.table.symbolCount by decide +kernel, .inl (by decide +kernel)⟩
  have hequal : s.table.nestedName ⟨2⟩ = s.table.nestedName ⟨3⟩ := by decide +kernel
  refine ⟨hequal, ?_⟩
  exact ((nestedName_eq_iff hrun hnames hinside.1 houtside.1 hinside.2 houtside.2).2.1
    hequal).resolve_left (by decide)

end Session

end TemplateAnalysis
