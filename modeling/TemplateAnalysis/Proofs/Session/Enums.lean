import TemplateAnalysis.Proofs.Session.Symbols

/-!
# Declaring enumerations is a sequence of changes

Enumerators are declared one after the other, each under a name that was free, and stay
when a later one fails.
-/

namespace TemplateAnalysis

open Session Analysis

variable {s : Session}

theorem leads_declareEnum (hs : s.Closed) (name : String) (isScoped : Bool)
    {underlying : Option TypeId} (h : ∀ type, underlying = some type → s.types.Has type)
    (span : Span) : Leads s (declareEnum name isScoped underlying span) fun _ _ => True := by
  rw [declareEnum]
  have hknown : AllKnown s.Known (Entity.enumeration ⟨isScoped, underlying, []⟩).handles := by
    cases underlying with
    | none => exact AllKnown.nil
    | some type => exact AllKnown.nil.cons (x := .type type) (h type rfl)
  exact Leads.get_bind (Leads.bind hs (leads_declare hs name .enumeration span
    (fun _ _ _ => rfl) hknown trivial) fun _ _ _ _ _ => Leads.pure trivial)

/-- The enum that enumerators are declared for, as it is in a session. -/
structure Session.EnumSite.IsOf (site : EnumSite) (id : SymbolId) (u : Session) : Prop where
  has : u.table.HasSymbol id
  own : (u.table.symbol id).scope = some site.own
  enumeration : ∃ data, (u.table.symbol id).entity = .enumeration data ∧
    (site.around = if data.isScoped then none else some (u.table.symbol id).enclosing) ∧
    site.underlying = data.underlying.bind u.types.primitive?

theorem Session.Closed.underlying_eq (hs : s.Closed) {u : Session} (hgrows : s.Grows u)
    {id : SymbolId} (hid : s.table.HasSymbol id) {data : EnumData}
    (hdata : (s.table.symbol id).entity = .enumeration data) :
    data.underlying.bind u.types.primitive? = data.underlying.bind s.types.primitive? := by
  have hknown := (hs.symbol id hid).known
  rw [hdata] at hknown
  cases hunderlying : data.underlying with
  | none => rfl
  | some type =>
    exact hgrows.types.primitive?_eq (hknown (.type type) (by simp [Entity.handles, hunderlying]))

theorem Session.EnumSite.IsOf.grows {site : EnumSite} {id : SymbolId} {u : Session}
    (hs : s.Closed) (h : site.IsOf id s) (hgrows : s.Grows u) : site.IsOf id u := by
  obtain ⟨hhas, hown, data, hdata, haround, hunderlying⟩ := h
  have hsymbol := hgrows.table.symbol id hhas
  obtain ⟨data', hdata', hisScoped, hsame⟩ := hsymbol.enumeration_entity hdata
  refine ⟨hgrows.table.hasSymbol _ hhas, hsymbol.scope _ hown, data', hdata', ?_, ?_⟩
  · rw [hsymbol.enclosing, hisScoped]
    exact haround
  · rw [hsame, hs.underlying_eq hgrows hhas hdata]
    exact hunderlying

theorem Symbol.IsEnumeratorOf.grows {x y e f : Symbol} (h : x.IsEnumeratorOf e) (hx : x.Grows y)
    (he : e.Grows f) : y.IsEnumeratorOf f := by
  obtain ⟨⟨value, hvalue⟩, hscope⟩ := h
  refine ⟨⟨value, hx.enumerator_iff.mpr hvalue⟩, ?_⟩
  rw [hx.enclosing]
  exact he.scope _ hscope

theorem Session.EnumSite.isOf_of_convert {site : EnumSite} {given value : Constant} {span : Span}
    (h : site.convert given span = .ok value) : value.IsOf site.underlying := by
  unfold EnumSite.convert at h
  cases hunderlying : site.underlying with
  | none => exact value.isOf_none
  | some type =>
    rw [hunderlying] at h
    exact Constant.isOf_of_convert (mapError_eq_ok.mp h)

theorem SymbolTable.symbol_insert_enumerator (t : SymbolTable) (site : EnumSite) (name : String)
    (value : Constant) (span : Span) :
    (site.insert t name value span).2.symbol t.nextSymbol = ⟨name, sourceName name,
      .ofName (t.qualify site.own name), site.own, none, false, none, span, .enumerator value⟩ ∧
    ∀ j, t.HasSymbol j → (site.insert t name value span).2.symbol j = t.symbol j := by
  have hsame : ∀ j, (site.insert t name value span).2.symbol j =
      (t.insertEntity site.own name (.enumerator value) span).2.symbol j := by
    intro j
    unfold EnumSite.insert
    cases site.around <;> rfl
  have hextends : SymbolTable.Extends (fun _ => True) t
      (t.insertEntity site.own name (.enumerator value) span).2 :=
    (SymbolTable.Extends.refl t).pushSymbol name trivial
  exact ⟨(hsame _).trans (t.symbol_insertEntity _ _ _ _), fun j hj =>
    (hsame j).trans (hextends.old j hj)⟩

theorem leads_insertEnumerator {site : EnumSite} {id : SymbolId} (hsite : site.IsOf id s)
    {name : String} (hname : site.hasName s.table name = false) {value : Constant}
    (hvalue : value.IsOf site.underlying) (span : Span) :
    Leads s (changeTable fun t => site.insert t name value span) fun i u =>
      u.table.HasSymbol i ∧ (u.table.symbol i).IsEnumeratorOf (u.table.symbol id) ∧
        ∀ j, s.table.HasSymbol j → u.table.symbol j = s.table.symbol j := by
  obtain ⟨hid, hown, data, hdata, haround, hunderlying⟩ := hsite
  obtain ⟨hnew, hold⟩ := s.table.symbol_insert_enumerator site name value span
  refine .change (exec_changeTable s _) (.enumerate id data site name value span hdata hown haround
    hname hunderlying hvalue) ⟨?_, ⟨⟨value, ?_⟩, ?_⟩, hold⟩
  · have hhas : (s.table.insertEntity site.own name (.enumerator value) span).2.HasSymbol
        s.table.nextSymbol := (s.table.hasSymbol_pushSymbol _ _ _).mpr (.inr rfl)
    simp only [EnumSite.insert]
    cases site.around with
    | none => exact hhas
    | some scope => exact (SymbolTable.Grows.expose _ _ _ _).hasSymbol _ hhas
  · exact congrArg Symbol.entity hnew
  · rw [show (site.insert s.table name value span).1 = s.table.nextSymbol from rfl, hnew,
      hold id hid]
    exact hown

theorem leads_declareEnumerators {site : EnumSite} {id : SymbolId} :
    ∀ (enumerators : List EnumeratorSpecifier) {s : Session} (next : Constant), s.Closed →
      site.IsOf id s →
      Leads s (declareEnumerators site next enumerators) fun ids u =>
        (∀ i ∈ ids, u.table.HasSymbol i ∧ (u.table.symbol i).IsEnumeratorOf (u.table.symbol id)) ∧
          ∀ j, s.table.HasSymbol j → u.table.symbol j = s.table.symbol j
  | [], s, _, _, _ => by
    rw [declareEnumerators]
    exact Leads.pure ⟨fun i hi => (by cases hi), fun _ _ => rfl⟩
  | ⟨name, value, span⟩ :: rest, s, next, hs, hsite => by
    rw [declareEnumerators]
    refine Leads.get_bind ?_
    by_cases hname : site.hasName s.table name = true
    · rw [if_pos hname]
      exact Leads.throw_bind _ _
    · rw [if_neg hname]
      have hvalue : Leads s ((value.map evaluate).getD (return next)) fun _ u => u = s := by
        cases value with
        | none => exact Leads.pure rfl
        | some node => exact .changes_of_eq (exec_evaluate s node) .refl fun _ _ => rfl
      refine Leads.bind hs hvalue fun given u hu _ _ => ?_
      subst hu
      refine Leads.ofExcept_bind fun converted hconverted =>
        Leads.ofExcept_bind fun following _ => ?_
      refine Leads.bind hs (leads_insertEnumerator hsite (Bool.eq_false_iff.mpr hname)
        (EnumSite.isOf_of_convert hconverted) span) fun i v hi hv hgrows => ?_
      obtain ⟨hhas, hdeclared, hold⟩ := hi
      refine Leads.bind hv (leads_declareEnumerators rest following hv (hsite.grows hs hgrows))
        fun ids w hids _ hgrows' => Leads.pure ⟨fun j hj => ?_, fun j hj => ?_⟩
      · rcases List.mem_cons.mp hj with rfl | hj
        · exact ⟨hgrows'.table.hasSymbol _ hhas, hdeclared.grows (hgrows'.table.symbol _ hhas)
            (hgrows'.table.symbol id (hgrows.table.hasSymbol id hsite.has))⟩
        · exact hids.1 j hj
      · exact (hids.2 j (hgrows.table.hasSymbol j hj)).trans (hold j hj)

theorem leads_defineEnum (hs : s.Closed) {id : SymbolId} (hid : s.table.HasSymbol id)
    (enumerators : List EnumeratorSpecifier) (span : Span) :
    Leads s (defineEnum id enumerators span) fun _ _ => True := by
  rw [defineEnum]
  refine Leads.symbol_bind ?_
  cases hentity : (s.table.symbol id).entity with
  | enumeration data =>
    simp only
    split
    · exact Leads.throw_bind _ _
    · rename_i hundefined
      refine Leads.bind hs (leads_ownScope hs hid span) fun own u hown hu _ => ?_
      obtain ⟨rfl, hown, _⟩ := hown
      refine Leads.get_bind ?_
      have hsite : EnumSite.IsOf ⟨own, if data.isScoped then none else
          some (u.table.symbol id).enclosing, data.underlying.bind u.types.primitive?⟩ id u :=
        ⟨hid, hown, data, hentity, rfl, rfl⟩
      refine Leads.bind hu (leads_declareEnumerators enumerators (.int 0) hu hsite)
        fun ids v hids hv hgrows => Leads.modifyTable_comp (g := (·.markDefined id)) ?_
      have hhas := hgrows.table.hasSymbol _ hid
      -- Declaring the enumerators has left the enum as it was.
      have hsame := hids.2 id hid
      have hlist : Leads v (modifyTable (·.modifyEnum id fun data =>
          { data with enumerators := ids })) fun _ w => w.table.HasSymbol id := by
        refine .change (exec_modifyTable v _) (.edit_of_eq (y := { v.table.symbol id with
          entity := .enumeration { data with enumerators := ids } }) hhas ?_
          (.enumerators data (hsame ▸ hentity) ids (fun i hi => (hids.1 i hi).1)
            (by rw [hsame]; exact Bool.eq_false_iff.mpr hundefined) fun i hi => (hids.1 i hi).2))
          ((SymbolTable.hasSymbol_modifySymbol _ _ _ _).mpr hhas)
        rw [hsame, hentity]
      exact Leads.bind hv hlist fun _ w hw _ _ => leads_markDefined hw
  | _ => exact Leads.throw _

end TemplateAnalysis
