import TemplateAnalysis.Proofs.Session.Decoding
import TemplateAnalysis.Proofs.Session.Fitting

/-!
# Which instances are the same

A class is found under one name only, an instance under its key. So two instantiations
of a template return the same class exactly if what their arguments are bound to has
the same key. As long as names are identifiers, a key tells the arguments up to what
the encodings leave open: constants are told by their representation, which `0.0` and
`-0.0` do not share, and types by the names in them, which classes may share.
-/

namespace TemplateAnalysis

open Session Token Analysis

variable {s t u : Session}

theorem Instantiator.Finds.binds {template : SymbolId} {args : List Node} {span : Span}
    {i : SymbolId} (h : instantiate.Finds s template args span i) (hs : s.Closed) :
    ∃ bound, exec (bindArguments template args span) s = (.ok bound, s) ∧
      AllKnown s.Known (handlesOfArguments bound) ∧ s.instance? template bound = some i ∧
      ∀ data, (s.table.symbol template).entity = .template data →
        List.Forall₂ (fun p (x : TemplateArgument) => x.Fits p) data.parameters bound := by
  obtain ⟨_, bound, hbind, hbound, hi⟩ := h
  have hexec := hbind s hs (.refl s)
  refine ⟨bound.arguments, ?_, hbound, hi, fun data hentity => ?_⟩
  · rw [bindArguments, exec_bind, hexec]
    rfl
  · exact fits_of_bindSources hentity (congrArg Prod.fst hexec)

namespace Session

/-! ### An instance has one key -/

def IsFiled (s : Session) : Prop :=
  ∀ scope, ∀ b ∈ (s.table.scope scope).bindings, s.table.IsFiled b

theorem isFiled_start (config : Config) : (start config).IsFiled := by
  intro scope b hb
  have hempty : ((start config).table.scope scope).bindings = [] := by
    obtain ⟨i⟩ := scope
    cases i <;> rfl
  rw [hempty] at hb
  cases hb

theorem Change.isFiled {role : Role} (hs : s.Closed) (h : s.Change role u)
    (hfiled : s.IsFiled) : u.IsFiled :=
  fun scope b hb => ((h.adds hs).binding scope b hb).elim
    (fun hold => (hfiled scope b hold).grows (h.adds hs).grows) id

theorem Run.isFiled {config : Config} (h : (start config).Run s) : s.IsFiled :=
  h.invariant IsFiled (.start config) (fun _ _ hv hchange => hchange.isFiled hv)
    (fun _ _ hfiled => hfiled) (isFiled_start config)

theorem IsFiled.eq_filedAs (hs : s.IsFiled) {scope : ScopeId} {name : String} {id : SymbolId}
    (h : s.table.lookupIn scope name (.singleton .classType) = some id) :
    name = (s.table.symbol id).filedAs := by
  have hkind := List.find?_some h
  rw [KindSet.accepts_singleton, decide_eq_true_eq] at hkind
  obtain ⟨b, hb, rfl⟩ := List.mem_map.mp (List.mem_of_find?_eq_some h)
  obtain ⟨hb, hname⟩ := List.mem_filter.mp hb
  rw [← eq_of_beq hname]
  exact (hs scope b hb).2 hkind.symm

/-- Instances of a template are the same exactly if their keys are. -/
theorem IsFiled.eq_iff_keyFor_eq (hs : s.IsFiled) {template : SymbolId} {bound bound' : Arguments}
    {i j : SymbolId} (hi : s.instance? template bound = some i)
    (hj : s.instance? template bound' = some j) :
    i = j ↔ s.keyFor template bound = s.keyFor template bound' := by
  constructor
  · rintro rfl
    exact (hs.eq_filedAs hi).trans (hs.eq_filedAs hj).symm
  · intro hkeys
    rw [Session.instance?, hkeys] at hi
    exact Option.some.inj (hi.symm.trans hj)

/-! ### What a key tells -/

theorem keyFor_eq_iff {template : SymbolId} {bound bound' : Arguments} :
    s.keyFor template bound = s.keyFor template bound' ↔
      TemplateArgument.encodings (s.table.typeEncoding s.types) bound =
        TemplateArgument.encodings (s.table.typeEncoding s.types) bound' := by
  rw [keyFor, keyFor, instanceKey, instanceKey, String.append_left_inj, String.append_right_inj]

def AvoidsFunctions (s : Session) (id : TypeId) : Prop :=
  ∀ y ∈ (s.types.tree id).symbols, (s.table.symbol y).kind ≠ .function

abbrev AllTypes (property : TypeId → Prop) (args : Arguments) : Prop :=
  ∀ id, Handle.type id ∈ handlesOfArguments args → property id

theorem alikeLists_of_encodings_eq (hs : s.Closed) (hcoded : s.IsCoded) {bound bound' : Arguments}
    (hbound : AllKnown s.Known (handlesOfArguments bound))
    (hbound' : AllKnown s.Known (handlesOfArguments bound'))
    (havoids : AllTypes s.AvoidsFunctions bound) (havoids' : AllTypes s.AvoidsFunctions bound')
    (h : TemplateArgument.encodings (s.table.typeEncoding s.types) bound =
      TemplateArgument.encodings (s.table.typeEncoding s.types) bound') :
    TemplateArgument.AlikeLists s.Resembles bound bound' := by
  obtain ⟨codes, hcodes⟩ := hcoded
  have hspelled : ∀ {args : Arguments}, AllKnown s.Known (handlesOfArguments args) →
      (TemplateArgument.encodings (s.table.typeEncoding s.types) args).toList =
        spell (TemplateArgument.tokensOfList (s.typeCode codes) args) := fun hargs =>
    TemplateArgument.toList_encodings _ fun id hid =>
      s.toList_typeEncoding hs hcodes (hargs (.type id) hid)
  have hcode : ∀ {args : Arguments}, AllKnown s.Known (handlesOfArguments args) →
      IsCode (TemplateArgument.tokensOfList (s.typeCode codes) args) := fun hargs =>
    TemplateArgument.isCode_tokensOfList _ fun id hid =>
      s.isCode_typeCode hs hcodes (hargs (.type id) hid)
  have hunits : ∀ {args : Arguments}, AllKnown s.Known (handlesOfArguments args) →
      AllTypes s.AvoidsFunctions args →
      TemplateArgument.AllUnits (s.table.nestedCode codes) s.types.tree (handlesOfArguments args) :=
    fun hargs havoids id hid y hy => hcodes.isUnit_nestedCode hs.linked
      (hs.symbols_tree (hargs (.type id) hid) y hy) (havoids id hid y hy)
  have htokens := spell_injective (hcode hbound).sound (hcode hbound').sound
    ((hspelled hbound).symm.trans ((congrArg String.toList h).trans (hspelled hbound')))
  -- A closing bracket behind both lists is where they end.
  obtain ⟨halike, _⟩ := TemplateArgument.tokensOfList_cancel bound bound' (hunits hbound havoids)
    (hunits hbound' havoids') (congrArg (· ++ [letter 'E']) htokens)
  exact halike.mono fun a b ha hb =>
    resembles_of_sameCode hs hcodes (hbound (.type a) ha) (hbound' (.type b) hb)

theorem keyFor_eq_iff_alikeLists (hs : s.Closed) (hcoded : s.IsCoded) (template : SymbolId)
    {bound bound' : Arguments} (hbound : AllKnown s.Known (handlesOfArguments bound))
    (hbound' : AllKnown s.Known (handlesOfArguments bound'))
    (havoids : AllTypes s.AvoidsFunctions bound) (havoids' : AllTypes s.AvoidsFunctions bound') :
    s.keyFor template bound = s.keyFor template bound' ↔
      TemplateArgument.AlikeLists s.Resembles bound bound' := by
  rw [keyFor_eq_iff]
  constructor
  · intro h
    exact alikeLists_of_encodings_eq hs hcoded hbound hbound' havoids havoids' h
  · intro halike
    exact (halike.mono fun _ _ _ _ => TypeTree.Alike.encoding_eq).encodings_eq

/-- Whether everything is told apart in arguments whose encodings are compared: types are
over classes and enumerations, and constants that are the same are represented the same. -/
structure TellsApart (s : Session) (bound bound' : Arguments) : Prop where
  types : AllTypes s.IsOverUserTypes bound
  types' : AllTypes s.IsOverUserTypes bound'
  constant : ∀ c ∈ TemplateArgument.constantsOfList bound,
    ∀ d ∈ TemplateArgument.constantsOfList bound', c.same d = true → c = d

theorem TellsApart.separates {bound bound' : Arguments} (h : s.TellsApart bound bound')
    (hs : s.Closed) (hparameters : s.types.HasParameters) (hdistinct : s.HasDistinctNames)
    (hbound : AllKnown s.Known (handlesOfArguments bound))
    (hbound' : AllKnown s.Known (handlesOfArguments bound')) :
    TemplateArgument.Separates s.Resembles (handlesOfArguments bound) (handlesOfArguments bound')
      (TemplateArgument.constantsOfList bound) (TemplateArgument.constantsOfList bound') where
  type a b ha hb := by
    constructor
    · intro hab
      exact hab.eq hs hparameters hdistinct ⟨hbound (.type a) ha, h.types a ha⟩
        ⟨hbound' (.type b) hb, h.types' b hb⟩
    · rintro rfl
      exact .refl s a
  constant := h.constant

/-! ### Two instantiations in a run -/

/-- What a successful instantiation in a run finds at every later point. -/
theorem finds_of_run (hs : s.Closed) {template : SymbolId} {args : List Node} {span : Span}
    (hcall : (Operation.instantiate template args span).IsOn s) {i : SymbolId}
    (hi : (exec (instantiate template args span) s).1 = .ok i)
    (hu : (exec (instantiate template args span) s).2.Run u) (span' : Span) :
    instantiate.Finds u template args span' i := by
  have hleads := leads_instantiate hs hcall.known.head hcall.known.tail span span'
  obtain ⟨hcalled, hgrows⟩ := hleads.changes.preserves hs
  obtain ⟨hclosed, hlater⟩ := hu.preserves hcalled
  exact (hleads.result i hi).later hcalled hclosed hlater
    (hgrows.table.hasSymbol _ hcall.known.head)

/-- Two instantiations of a template return the same class exactly if what their
arguments are bound to has the same key. If no type in the arguments is over a function,
this is so exactly if they are alike: types up to classes with one nested name and
parameter lists that are `void`, constants in their representation. So the instances are
the same exactly if the arguments are, where functions have adjusted parameters, classes
and enumerations have different nested names, and no constants are the same that are
represented differently, as the two zeros are. -/
theorem instance_eq_iff {config : Config} (hs : (start config).Run s) {template : SymbolId}
    {args args' : List Node} {span span' : Span} {i j : SymbolId}
    (hcall : (Operation.instantiate template args span).IsOn s)
    (hi : (exec (instantiate template args span) s).1 = .ok i)
    (ht : (exec (instantiate template args span) s).2.Run t)
    (hcall' : (Operation.instantiate template args' span').IsOn t)
    (hj : (exec (instantiate template args' span') t).1 = .ok j)
    (hu : (exec (instantiate template args' span') t).2.Run u) (hnames : u.HasIdentifiers) :
    ∃ bound bound',
      exec (bindArguments template args span) u = (.ok bound, u) ∧
      exec (bindArguments template args' span') u = (.ok bound', u) ∧
      (i = j ↔ u.keyFor template bound = u.keyFor template bound') ∧
      (AllTypes u.AvoidsFunctions bound → AllTypes u.AvoidsFunctions bound' →
        (i = j ↔ TemplateArgument.AlikeLists u.Resembles bound bound')) ∧
      (u.types.HasParameters → u.HasDistinctNames → u.TellsApart bound bound' →
        (i = j ↔ bound.same bound' = true)) := by
  have hruns : (start config).Run t := (hs.instantiate hcall).trans ht
  have hrunu : (start config).Run u := (hruns.instantiate hcall').trans hu
  have hclosed := hrunu.closed
  -- Both calls find their instances in the last session, so that the keys can be compared there.
  have hfirst : instantiate.Finds u template args span i :=
    finds_of_run hs.closed hcall hi ((ht.instantiate hcall').trans hu) span
  have hsecond : instantiate.Finds u template args' span' j :=
    finds_of_run hruns.closed hcall' hj hu span'
  obtain ⟨bound, hbind, hbound, hi, hfits⟩ := hfirst.binds hclosed
  obtain ⟨bound', hbind', hbound', hj, hfits'⟩ := hsecond.binds hclosed
  obtain ⟨data, hentity⟩ := Symbol.exists_template hfirst.1
  have hkeys := hrunu.isFiled.eq_iff_keyFor_eq hi hj
  have halike : AllTypes u.AvoidsFunctions bound → AllTypes u.AvoidsFunctions bound' →
      (i = j ↔ TemplateArgument.AlikeLists u.Resembles bound bound') := fun havoids havoids' =>
    hkeys.trans (keyFor_eq_iff_alikeLists hclosed (hrunu.isCoded hnames) template hbound hbound'
      havoids havoids')
  refine ⟨bound, bound', hbind, hbind', hkeys, halike, fun hparameters hdistinct htells => ?_⟩
  have havoids : ∀ {args : Arguments}, AllTypes u.IsOverUserTypes args →
      AllTypes u.AvoidsFunctions args := fun hover id hid y hy => (hover id hid y hy).ne_function
  rw [halike (havoids htells.types) (havoids htells.types'),
    TemplateArgument.same_iff_alikeLists (hfits data hentity) (hfits' data hentity)
      (htells.separates hclosed hparameters hdistinct hbound hbound')]

/-- `Box<0.0>` and `Box<-0.0>` are two classes, though their arguments are the same. -/
theorem instance_eq_iff_of_zeros :
    let header := (Operation.beginTemplate [⟨"N", .nonType, none, false, none, .synthesized⟩]
      .synthesized).after (start .standard)
    let s := (Operation.declareClass "Box" .structKey .synthesized).after header
    let zero := [Node.literal (.float ⟨0⟩) .synthesized]
    let negative := [Node.literal (.float ⟨0x8000000000000000⟩) .synthesized]
    let t := (exec (instantiate ⟨1⟩ zero .synthesized) s).2
    let u := (exec (instantiate ⟨1⟩ negative .synthesized) t).2
    ∃ i j x y, (exec (instantiate ⟨1⟩ zero .synthesized) s).1 = .ok i ∧
      (exec (instantiate ⟨1⟩ negative .synthesized) t).1 = .ok j ∧ i ≠ j ∧
      exec (bindArguments ⟨1⟩ zero .synthesized) u = (.ok x, u) ∧
      exec (bindArguments ⟨1⟩ negative .synthesized) u = (.ok y, u) ∧
      u.keyFor ⟨1⟩ x ≠ u.keyFor ⟨1⟩ y ∧ x.same y = true := by
  intro header s zero negative t u
  have hok : ∀ {α : Type} {r : Except Diagnostic α} {a : α}, r.toOption = some a → r = .ok a := by
    intro α r a h
    cases r with
    | error d => cases h
    | ok b => exact congrArg _ (Option.some.inj h)
  have hi : (exec (instantiate ⟨1⟩ zero .synthesized) s).1 = .ok ⟨2⟩ := hok (by decide +kernel)
  have hj : (exec (instantiate ⟨1⟩ negative .synthesized) t).1 = .ok ⟨3⟩ := hok (by decide +kernel)
  have hrun : (start .standard).Run s :=
    (Run.refl.step _ .of_handles_nil).step _ .of_handles_nil
  have hbox : s.table.HasSymbol ⟨1⟩ := show 1 < s.table.symbolCount by decide +kernel
  have hbox' : t.table.HasSymbol ⟨1⟩ := show 1 < t.table.symbolCount by decide +kernel
  have hcall : (Operation.instantiate ⟨1⟩ zero .synthesized).IsOn s :=
    .of_symbol hbox
  have hcall' : (Operation.instantiate ⟨1⟩ negative .synthesized).IsOn t :=
    .of_symbol hbox'
  have hnames : u.HasIdentifiers := by
    rintro ⟨n⟩ hid horigin
    have hcount : u.table.symbolCount = 4 := by decide +kernel
    have hlt : n < 4 := lt_of_lt_of_eq hid hcount
    have hinstances : ∀ id ∈ [(⟨2⟩ : SymbolId), ⟨3⟩], (u.table.symbol id).origin?.isSome := by
      decide +kernel
    have hdeclared : (u.table.symbol ⟨0⟩).name = "N" ∧ (u.table.symbol ⟨1⟩).name = "Box" := by
      decide +kernel
    rcases (show n = 0 ∨ n = 1 ∨ n = 2 ∨ n = 3 by omega) with rfl | rfl | rfl | rfl
    · rw [hdeclared.1]
      exact ⟨'N', [], by simp, by decide⟩
    · rw [hdeclared.2]
      exact ⟨'B', ['o', 'x'], by simp, by decide⟩
    · exact absurd (hinstances ⟨2⟩ (by simp)) (by simp [horigin])
    · exact absurd (hinstances ⟨3⟩ (by simp)) (by simp [horigin])
  have hmatch : ∀ {r r' : Except Diagnostic Arguments} {x y : Arguments}, r = .ok x → r' = .ok y →
      (match r, r' with
        | .ok x, .ok y => x.same y
        | _, _ => false) = true → x.same y = true := by
    rintro _ _ x y rfl rfl h
    exact h
  obtain ⟨x, y, hx, hy, hkeys, _⟩ := instance_eq_iff hrun hcall hi .refl hcall' hj .refl hnames
  have hsame : x.same y = true :=
    hmatch (congrArg Prod.fst hx) (congrArg Prod.fst hy) (by decide +kernel)
  have hne : (⟨2⟩ : SymbolId) ≠ ⟨3⟩ := by decide
  exact ⟨⟨2⟩, ⟨3⟩, x, y, hi, hj, hne, hx, hy, fun h => hne (hkeys.mpr h), hsame⟩

end Session

end TemplateAnalysis
