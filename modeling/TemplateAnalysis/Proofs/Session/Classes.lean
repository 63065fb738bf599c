import TemplateAnalysis.Proofs.Session.Declarations

/-!
# Declaring classes is a sequence of changes

Bases are registered and members declared one after the other, in the scope of the class;
a member may be a class that is defined in turn.
-/

namespace TemplateAnalysis

open Session Analysis

variable {s : Session}

theorem leads_declareClass (hs : s.Closed) (name : String) (key : ClassKey) (span : Span) :
    Leads s (declareClass name key span) fun id u => u.table.HasSymbol id := by
  rw [declareClass]
  refine Leads.inHeader_bind (Leads.get_bind ?_)
  refine Leads.bind hs (leads_declare hs name .classType span
    (fun _ _ _ => ⟨rfl, rfl, rfl⟩) AllKnown.nil trivial) fun declared u hdeclared hu _ => ?_
  by_cases hopen : (s.table.scope s.current).isOpenHeader = true
  · simp only [if_pos hopen]
    refine Leads.bind hu (leads_enterTemplate hu (hopen ▸ hdeclared) rfl false span)
      fun _ v _ _ hgrows => Leads.pure (hgrows.table.hasSymbol _ hdeclared.has)
  · simp only [if_neg hopen]
    exact Leads.pure hdeclared.has

theorem leads_declareMemberEntity (hs : s.Closed) {member : Member}
    (h : AllKnown s.Known member.handles) :
    Leads s (declareMemberEntity member) fun _ _ => True := by
  obtain ⟨access, specifiers, declarator, bitWidth, initializer, span⟩ := member
  rw [declareMemberEntity]
  have hsimple := leads_declareSimple hs h.left.left.left h.left.left.right initializer span
  split
  · exact Leads.throw_bind _ _
  · exact Leads.bind hs hsimple fun _ _ _ _ _ => Leads.pure trivial

/-- What can be completed is a class template without a body or a class that is not
complete. -/
theorem completionFault?_eq_none {target : Symbol} (h : completionFault? target = none) :
    (∃ data, target.entity = .template data ∧ data.entity.kind = .classType ∧
      data.isEntityDefined = false) ∨
    ∃ data, target.entity = .classType data ∧ target.isDefined = false := by
  unfold completionFault? at h
  split at h
  · rename_i hentity
    split at h
    · cases h
    · rename_i hundefined
      exact .inl ⟨_, hentity, rfl, Bool.eq_false_iff.mpr hundefined⟩
  · rename_i data hentity
    split at h
    · cases h
    · rename_i hundefined
      exact .inr ⟨data, hentity, Bool.eq_false_iff.mpr hundefined⟩
  · cases h

theorem changes_completeClass {id : SymbolId} (hid : s.table.IsClass id) (key : ClassKey)
    {members : List Node} (hmembers : AllKnown s.Known (handlesOfNodes members)) :
    s.Changes { s with
      table := (s.table.modifyClass id fun data =>
        { data with key, members }).markDefined id } := by
  obtain ⟨data, hdata⟩ := hid.entity
  have hfill : s.Change .making { s with
      table := s.table.modifyClass id fun data => { data with key, members } } := by
    refine .edit_of_eq (y := { s.table.symbol id with
      entity := .classType { data with key, members } }) hid.1 ?_
        (.fill data hdata key members hmembers)
    rw [hdata]
  refine .tail (.single ⟨_, hfill⟩) ⟨_, .edit id _ ?_ .define⟩
  exact (s.table.hasSymbol_modifySymbol _ _ _).mpr hid.1

/-- A step that completes a class in the end. The class was not complete when the step
began, so it is none of those that have to stay. -/
theorem Leads.complete_bind {α : Type} {x : Analysis α} {f : α → Analysis Unit}
    {post : α → Session → Prop} (hs : s.Closed) {id : SymbolId} {data : ClassData}
    (hopen : s.IsOpenClass id data) (hx : Leads s x post)
    (hf : ∀ a u, post a u → u.Closed → s.Grows u → ∃ v, exec (f a) u = (.ok (), v) ∧
      u.Changes v ∧ ∀ other, other ≠ id → v.table.symbol other = u.table.symbol other) :
    Leads s (x >>= f) fun _ _ => True := by
  obtain ⟨hclosed, hgrows⟩ := hx.changes.preserves hs
  cases hr : (exec x s).1 with
  | error d =>
    have hbind := exec_bind_error hr f
    refine ⟨hbind ▸ hx.changes, hbind ▸ hx.keeps, fun b hb => ?_, fun _ _ => trivial⟩
    rw [hbind] at hb
    cases hb
  | ok a =>
    obtain ⟨v, hexec, hchanges, hsame⟩ := hf a _ (hx.result a hr) hclosed hgrows
    have hbind : exec (x >>= f) s = (.ok (), v) := (exec_bind_ok hr f).trans hexec
    have hlater := (hchanges.preserves hclosed).2
    have hstays : ∀ i data, i ≠ id → (exec x s).2.table.IsCompleteClass i data →
        v.table.IsCompleteClass i data := by
      rintro i data hne hi
      rwa [SymbolTable.IsCompleteClass, hsame i hne]
    refine ⟨hbind ▸ hx.changes.trans hchanges, ?_, fun b hb => ?_, fun _ _ => trivial⟩
    · rw [hbind]
      intro i data' hi
      refine hstays i data' ?_ (hx.keeps i data' hi)
      rintro rfl
      cases hopen.undefined.symm.trans hi.2
    · rw [hbind]
      intro i origin hnone horigin body hbody
      -- An instance that is new is not the class that is completed, which was there before.
      have hne : i ≠ id := by
        rintro rfl
        rw [((hgrows.trans hlater).table.symbol i hopen.has).origin?_eq, hnone] at horigin
        cases horigin
      have horigin' : ((exec x s).2.table.symbol i).origin? = some origin := hsame i hne ▸ horigin
      obtain ⟨data', hdata, hholds⟩ := hx.completes a hr i origin hnone horigin' body hbody
      exact ⟨data', hstays i data' hne hdata, hholds.later hlater⟩

mutual

/-- Completing a class leads somewhere; a failure leaves it with the bases and members
that came before. -/
theorem leads_defineClass : ∀ (specifier : ClassSpecifier) {s : Session} {id : SymbolId},
    s.Closed → s.table.HasSymbol id → AllKnown s.Known specifier.handles →
    Leads s (defineClass id specifier) fun _ _ => True
  | ⟨key, name, bases, members, span⟩, s, id, hs, hid, h => by
    rw [defineClass]
    refine Leads.symbol_bind ?_
    cases hfault : completionFault? (s.table.symbol id) with
    | some cause => exact Leads.throw _
    | none =>
      rcases completionFault?_eq_none hfault with ⟨data, hdata, hkind, hundefined⟩ |
        ⟨data, hdata, hundefined⟩
      · rw [hdata]
        refine .change (exec_modifyTable s _) (.edit_of_eq (y := { s.table.symbol id with
          entity := .template { data with
            entity := .classTemplate key
            pattern := some ⟨key, name, bases, members, span⟩
            isEntityDefined := true } }) hid ?_
          (.pattern data hdata hundefined hkind ⟨key, name, bases, members, span⟩ h)) trivial
        rw [hdata]
      · have hopen : s.IsOpenClass id data := ⟨hid, hdata, hundefined⟩
        rw [hdata]
        have hmembers : Leads s (do
            bases.forM (registerBase instantiate id)
            let own ← ownScope id span
            inScope own (declareMembers members)) fun _ _ => True := by
          refine Leads.bind hs (leads_registerBases (steady_instantiate _) hs hopen h.left)
            fun _ u _ hu hgrows => ?_
          have hid' := hgrows.table.hasSymbol _ hid
          refine Leads.bind hu (leads_ownScope hu hid' span) fun own v hown hv _ => ?_
          obtain ⟨rfl, _, hhas⟩ := hown
          exact Leads.inScope hu hhas (leads_declareMembers members (hu.enter hhas)
            fun x hx => hgrows.known (h.right x hx))
        have hcomplete := Leads.complete_bind (f := fun _ => modifyTable fun t =>
          (t.modifyClass id fun data => { data with key, members }).markDefined id)
          hs hopen hmembers fun _ u _ hu hgrows => ⟨_, exec_modifyTable u _, changes_completeClass
            (hgrows.table.isClass ⟨hid, by rw [Symbol.kind, hdata]; rfl⟩) key
            (hgrows.allKnown h.right), fun other hother => ?_⟩
        · simpa only [bind_assoc] using hcomplete
        · rw [SymbolTable.markDefined, SymbolTable.symbol_modifySymbol, if_neg fun h => hother h.1]
          exact (u.table.symbol_modifySymbol id other _).trans (if_neg fun h => hother h.1)
termination_by structural specifier => specifier

theorem leads_declareMembers : ∀ (members : List Node) {s : Session}, s.Closed →
    AllKnown s.Known (handlesOfNodes members) → Leads s (declareMembers members) fun _ _ => True
  | [], s, _, _ => by
    rw [declareMembers]
    exact Leads.pure trivial
  | member :: rest, s, hs, h => by
    rw [declareMembers]
    exact Leads.bind hs (leads_declareMember member hs h.left) fun _ u _ hu hgrows =>
      leads_declareMembers rest hu (hgrows.allKnown h.right)
termination_by structural members => members

theorem leads_declareMember : ∀ (member : Node) {s : Session}, s.Closed →
    AllKnown s.Known member.handles → Leads s (declareMember member) fun _ _ => True
  | .member declaration, s, hs, h => by
    rw [declareMember]
    exact leads_declareMemberEntity hs h
  | .staticAssert assertion, s, _, _ => by
    rw [declareMember]
    exact leads_checkStaticAssert assertion
  | .classBody specifier, s, hs, h => by
    rw [declareMember]
    exact Leads.bind hs (leads_declareClass hs specifier.name specifier.key specifier.span)
      fun id u hid hu hgrows => leads_defineClass specifier hu hid (hgrows.allKnown h)
  | .name _ _ _, _, _, _ | .paren _ _, _, _, _ | .literal _ _, _, _, _
  | .typeParameter _ _ _, _, _, _ | .valueParameter _ _ _, _, _, _ | .unary _ _ _, _, _, _
  | .binary _ _ _ _, _, _, _ | .conditional _ _ _ _, _, _, _ | .typeId _ _ _, _, _, _
  | .resolvedType _ _ _, _, _, _ | .templateId _ _ _ _, _, _, _ | .packExpansion _ _, _, _, _
  | .base _, _, _, _ => Leads.throw _
termination_by structural member => member

end

end TemplateAnalysis
