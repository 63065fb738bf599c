import TemplateAnalysis.Proofs.Session.Runs

/-!
# The memo of instances

The names of a scope are the memo of the instances beside their template: an instance is
bound to the key that its arguments had when it was registered. The key is not stored
anywhere else, and asking for an instance computes it anew. Since it is made of names and
types that stay, what is computed later is the key that the instance is found under.
-/

namespace TemplateAnalysis

open Session

/-- Arguments go with a list of parameters also when the list has been given defaults. -/
theorem ParameterList.Receive.grows {ps qs : ParameterList} {args : Arguments}
    (h : ps.Receive args) (hgrows : List.Forall₂ TemplateParameter.Grows ps qs) :
    qs.Receive args := by
  induction h generalizing qs with
  | nil =>
    cases hgrows
    exact .nil
  | cons harg _ ih =>
    cases hgrows with
    | cons hparameter hrest => exact .cons (hparameter.valueType ▸ harg) (ih hrest)

theorem SymbolTable.symbol_declareInstance (t : SymbolTable) (scope : ScopeId)
    (key shown : String) (keyword : ClassKey) (origin : InstanceOrigin) (span : Span) :
    (t.declareInstance scope key shown keyword origin span).2.symbol t.nextSymbol =
      ⟨shown, key, .ofInstance (t.scopePath scope) key, scope, some t.nextScope, false, none, span,
        .classType ⟨keyword, [], [], some origin⟩⟩ :=
  symbol_pushContainer_new

namespace Session

variable {s u : Session} {i : SymbolId} {origin : InstanceOrigin}

theorem Closed.origin_known (hs : s.Closed) (h : (s.table.symbol i).origin? = some origin) :
    s.table.HasSymbol origin.template ∧ AllKnown s.Known (handlesOfArguments origin.arguments) := by
  have hknown := (hs.symbol i (SymbolTable.has_of_origin h)).known
  rw [Symbol.origin?] at h
  cases hentity : (s.table.symbol i).entity with
  | classType data =>
    rw [hentity] at h hknown
    have horigin : data.origin = some origin := h
    have hhandles : AllKnown s.Known origin.handles := fun x hx =>
      hknown x (by simp [Entity.handles, ClassData.handles, horigin, hx])
    exact ⟨hhandles.head, hhandles.tail⟩
  | _ =>
    rw [hentity] at h
    cases h

/-- Whether an instance stands beside its template, which is one of a class with as many
parameters as the instance has arguments, and is found there under the key that its
arguments have in this session. -/
structure IsMemoized (s : Session) (i : SymbolId) (origin : InstanceOrigin) : Prop where
  template : ∃ data, (s.table.symbol origin.template).entity = .template data ∧
    data.entity.kind = .classType ∧ data.parameters.Receive origin.arguments
  enclosing : (s.table.symbol i).enclosing = (s.table.symbol origin.template).enclosing
  key : s.keyFor origin.template origin.arguments = (s.table.symbol i).mangled
  found : s.instance? origin.template origin.arguments = some i

theorem IsMemoized.later (h : s.IsMemoized i origin) (hs : s.Closed) (hu : u.Closed)
    (hgrows : s.Grows u) (hi : (s.table.symbol i).origin? = some origin) :
    u.IsMemoized i origin := by
  obtain ⟨htemplate, hargs⟩ := hs.origin_known hi
  have hinstance := hgrows.table.symbol i (SymbolTable.has_of_origin hi)
  have hsymbol := hgrows.table.symbol origin.template htemplate
  refine ⟨?_, ?_, ?_, hs.instance?_eq hu hgrows htemplate hargs h.found⟩
  · obtain ⟨data, hdata, hkind, hreceive⟩ := h.template
    obtain ⟨data', hdata', hlater⟩ := hsymbol.template_entity hdata
    exact ⟨data', hdata', hlater.kind.trans hkind, hreceive.grows hlater.parameters⟩
  · rw [hinstance.enclosing, hsymbol.enclosing, h.enclosing]
  · rw [hinstance.mangled, ← h.key, keyFor, keyFor, hsymbol.mangled,
      hs.instanceKey_eq hu hgrows _ hargs]

theorem isMemoized_register (hs : s.Closed) {template : SymbolId} {data : TemplateData}
    {keyword : ClassKey} {args : Arguments} {shown : String} {span : Span}
    (hchange : s.Change .making { s with
      table := (s.table.declareInstance (s.table.symbol template).enclosing
        (s.keyFor template args) shown keyword ⟨template, args⟩ span).2 })
    (htemplate : s.table.HasSymbol template)
    (hentity : (s.table.symbol template).entity = .template data)
    (hkind : data.entity.kind = .classType) (hargs : AllKnown s.Known (handlesOfArguments args))
    (hunknown : s.instance? template args = none) (hreceive : data.parameters.Receive args) :
    IsMemoized { s with
      table := (s.table.declareInstance (s.table.symbol template).enclosing
        (s.keyFor template args) shown keyword ⟨template, args⟩ span).2 } s.table.nextSymbol
      ⟨template, args⟩ := by
  have hclosed := hchange.closed hs
  have hgrows := hchange.grows hs
  have hsame := (registers_declareInstance hchange).old template htemplate
  have hnew := s.table.symbol_declareInstance (s.table.symbol template).enclosing
    (s.keyFor template args) shown keyword ⟨template, args⟩ span
  refine ⟨⟨data, (congrArg Symbol.entity hsame).trans hentity, hkind, hreceive⟩, ?_, ?_, ?_⟩
  · rw [hsame]
    exact (congrArg Symbol.enclosing hnew :)
  · rw [keyFor, hsame, hs.instanceKey_eq hclosed hgrows _ hargs]
    exact (congrArg Symbol.mangled hnew).symm
  · rw [← hs.lookupIn_instanceKey hclosed hgrows htemplate hargs]
    have horigin : AllKnown s.Known (InstanceOrigin.handles ⟨template, args⟩) :=
      hargs.cons htemplate
    exact lookupIn_declareInstance hs (hs.symbol template htemplate).enclosing_has shown keyword
      horigin span hunknown

def HasMemo (s : Session) : Prop :=
  ∀ i origin, (s.table.symbol i).origin? = some origin → s.IsMemoized i origin

theorem Change.hasMemo {role : Role} (hs : s.Closed) (h : s.Change role u) (hmemo : s.HasMemo) :
    u.HasMemo := by
  have hclosed := h.closed hs
  have hgrows := h.grows hs
  intro i origin hi
  have hold : (s.table.symbol i).origin? = some origin → u.IsMemoized i origin := fun hi =>
    (hmemo i origin hi).later hs hclosed hgrows hi
  cases role with
  | plain => exact hold (h.keepsClasses.origins i origin hi)
  | making =>
    have hregister := h
    cases h with
    | edit id f has edit =>
      have hid := (SymbolTable.hasSymbol_modifySymbol _ _ _ _).mp (SymbolTable.has_of_origin hi)
      exact hold ((hgrows.table.symbol i hid).origin?_eq.symm.trans hi)
    | register template data keyword args shown span has entity templated known unknown typed =>
      have hregisters := registers_declareInstance hregister
      rcases hregisters.new i (SymbolTable.has_of_origin hi) with hid | rfl
      · exact hold (hregisters.old i hid ▸ hi)
      · obtain ⟨keyword', hopen⟩ := hregisters.isOpen
        have horigin : some ⟨template, args⟩ = some origin := by
          rw [← hi, Symbol.origin?, hopen.entity]
          rfl
        cases horigin
        exact isMemoized_register hs hregister has entity templated known unknown typed

theorem Run.hasMemo {config : Config} (h : (start config).Run s) : s.HasMemo :=
  h.keeps HasMemo (.start config) (fun _ _ hv hchange hmemo => hchange.hasMemo hv hmemo)
    (fun _ _ hv hw hgrows hmemo i origin hi => (hmemo i origin hi).later hv hw hgrows hi)
    fun _ _ hi => absurd (SymbolTable.has_of_origin hi) (Nat.not_lt_zero _)

/-- In every session that a run leads to, an instance stands beside its template, which is one
of a class, has an argument for each parameter, and is what is found there under the key that
its arguments have now, which is its internal name. -/
theorem found_of_origin {config : Config} (hs : (start config).Run s)
    (hi : (s.table.symbol i).origin? = some origin) :
    ∃ data keyword, (s.table.symbol origin.template).entity = .template data ∧
      data.entity = .classTemplate keyword ∧
      origin.arguments.length = data.parameters.length ∧
      (s.table.symbol i).enclosing = (s.table.symbol origin.template).enclosing ∧
      instanceKey (s.table.typeEncoding s.types) (s.table.symbol origin.template).mangled
        origin.arguments = (s.table.symbol i).mangled ∧
      s.table.lookupIn (s.table.symbol origin.template).enclosing (s.table.symbol i).mangled
        (.singleton .classType) = some i := by
  obtain ⟨⟨data, hdata, hkind, hreceive⟩, henclosing, hkey, hfound⟩ := hs.hasMemo i origin hi
  have hkeyword : ∃ keyword, data.entity = .classTemplate keyword := by
    cases hentity : data.entity with
    | classTemplate keyword => exact ⟨keyword, rfl⟩
    | _ =>
      rw [hentity] at hkind
      cases hkind
  obtain ⟨keyword, hkeyword⟩ := hkeyword
  rw [instance?, hkey] at hfound
  exact ⟨data, keyword, hdata, hkeyword, hreceive.length_eq.symm, henclosing, hkey, hfound⟩

/-- `Box<1>` is found by its key after another instantiation of its template has failed, and
after the template has got a body. -/
theorem found_of_origin_box :
    let header := (Operation.beginTemplate [⟨"N", .nonType, none, false, none, .synthesized⟩]
      .synthesized).after (start .standard)
    let box := (Operation.declareClass "Box" .structKey .synthesized).after header
    let made := (Operation.instantiate ⟨1⟩ [.literal (.int 1) .synthesized] .synthesized).after box
    let failed := (Operation.instantiate ⟨1⟩ [] .synthesized).after made
    let s := (Operation.defineClass ⟨1⟩ ⟨.structKey, "Box", [], [], .synthesized⟩).after failed
    ∃ args, (s.table.symbol ⟨2⟩).origin?.map (·.template) = some ⟨1⟩ ∧
      s.table.lookupIn .global (instanceKey (s.table.typeEncoding s.types) "3Box" args)
        (.singleton .classType) = some ⟨2⟩ := by
  intro header box made failed s
  have hbox : box.table.HasSymbol ⟨1⟩ ∧ made.table.HasSymbol ⟨1⟩ ∧ failed.table.HasSymbol ⟨1⟩ := by
    decide +kernel
  have hheader : (start .standard).Run box :=
    (Run.refl.step _ .of_handles_nil).step _ .of_handles_nil
  have hmade : (start .standard).Run made :=
    hheader.step _ (.of_symbol hbox.1)
  have hfailed : (start .standard).Run failed :=
    hmade.step _ (.of_symbol hbox.2.1)
  have hrun : (start .standard).Run s :=
    hfailed.step _ (.of_symbol hbox.2.2)
  have horigin : (s.table.symbol ⟨2⟩).origin?.map (·.template) = some ⟨1⟩ := by decide +kernel
  have hnames : (s.table.symbol ⟨1⟩).mangled = "3Box" ∧
      (s.table.symbol ⟨1⟩).enclosing = .global := by decide +kernel
  obtain ⟨⟨template, args⟩, hi, rfl⟩ := Option.map_eq_some_iff.mp horigin
  obtain ⟨_, _, _, _, _, _, hkey, hfound⟩ := found_of_origin hrun hi
  refine ⟨args, horigin, ?_⟩
  rw [← hnames.1, hkey, ← hnames.2]
  exact hfound

end Session

end TemplateAnalysis
