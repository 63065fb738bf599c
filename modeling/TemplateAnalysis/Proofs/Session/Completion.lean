import TemplateAnalysis.Proofs.Session.CompleteInstances

/-!
# Complete once

A class, an enum or a class template is completed once. The body of a template and the
enumerators of an enum are set only while they are missing, and whatever fills in a class
leaves those alone that are complete. So what is complete at some point of a run is the
same at every later point, and completing it again is refused before anything happens.
-/

namespace TemplateAnalysis

open Session Analysis

/-! ### Enums -/

def SymbolTable.IsCompleteEnum (t : SymbolTable) (id : SymbolId) (data : EnumData) : Prop :=
  (t.symbol id).entity = .enumeration data ∧ (t.symbol id).isDefined = true

/-- An enum is as it was before it was edited, or it was not complete and has got symbols of
its scope for its enumerators. -/
theorem Symbol.Edit.enumeration_cases {s : Session} {id : SymbolId} {x y : Symbol} {role : Role}
    (h : Symbol.Edit s id x role y) {data : EnumData} (hdata : y.entity = .enumeration data) :
    x.entity = .enumeration data ∨ x.isDefined = false ∧ ∀ i ∈ data.enumerators,
      s.table.HasSymbol i ∧ (s.table.symbol i).IsEnumeratorOf x := by
  cases h with
  | remember | define => exact .inl hdata
  | enumerators data' entity ids known undefined declared =>
    cases hdata
    exact .inr ⟨undefined, fun i hi => ⟨known i hi, declared i hi⟩⟩
  | _ => cases hdata

namespace Session

variable {s u : Session} {id : SymbolId}

theorem Change.keepsEnum {role : Role} (h : s.Change role u) {data : EnumData}
    (hdata : s.table.IsCompleteEnum id data) : u.table.IsCompleteEnum id data := by
  have hid := SymbolTable.has_of_entity hdata.1 (by simp)
  rcases h.extends_or_edit with hextends | ⟨other, f, hedit, htable⟩
  · rw [SymbolTable.IsCompleteEnum, hextends.old id hid]
    exact hdata
  · rw [SymbolTable.IsCompleteEnum, htable, SymbolTable.symbol_modifySymbol]
    split
    · rename_i hsame
      obtain ⟨rfl, _⟩ := hsame
      refine ⟨?_, hedit.grows.isDefined hdata.2⟩
      obtain ⟨data', hdata', _⟩ := hedit.grows.enumeration_entity hdata.1
      rcases hedit.enumeration_cases hdata' with hkept | ⟨hundefined, _⟩
      · rw [hdata', ← hkept, hdata.1]
      · rw [hdata.2] at hundefined
        cases hundefined
    · exact hdata

theorem Run.keepsEnum (h : s.Run u) (hs : s.Closed) {data : EnumData}
    (hdata : s.table.IsCompleteEnum id data) : u.table.IsCompleteEnum id data :=
  h.invariant (fun v => v.table.IsCompleteEnum id data) hs
    (fun _ _ _ hchange hdata => hchange.keepsEnum hdata) (fun _ _ hdata => hdata) hdata

def ListsEnumerators (s : Session) : Prop :=
  ∀ id data, (s.table.symbol id).entity = .enumeration data → ∀ i ∈ data.enumerators,
    s.table.HasSymbol i ∧ (s.table.symbol i).IsEnumeratorOf (s.table.symbol id)

theorem Change.listsEnumerators {role : Role} (hs : s.Closed) (h : s.Change role u)
    (hlists : s.ListsEnumerators) : u.ListsEnumerators := by
  have hgrows := (h.grows hs).table
  intro id data hdata i hi
  have hid := SymbolTable.has_of_entity hdata (by simp)
  -- Enumerators of an enum that there was stay what they are.
  have hkept : s.table.HasSymbol id → s.table.HasSymbol i ∧
      (s.table.symbol i).IsEnumeratorOf (s.table.symbol id) →
      u.table.HasSymbol i ∧ (u.table.symbol i).IsEnumeratorOf (u.table.symbol id) :=
    fun hold ⟨hhas, hof⟩ =>
      ⟨hgrows.hasSymbol i hhas, hof.grows (hgrows.symbol i hhas) (hgrows.symbol id hold)⟩
  rcases h.extends_or_edit with hextends | ⟨other, f, hedit, htable⟩
  · rcases hextends.added id hid with hold | hnew
    · exact hkept hold (hlists id data (hextends.old id hold ▸ hdata) i hi)
    · rw [hdata] at hnew
      rw [show data.enumerators = [] from hnew] at hi
      cases hi
  · rw [htable, SymbolTable.hasSymbol_modifySymbol] at hid
    refine hkept hid ?_
    rw [htable, SymbolTable.symbol_modifySymbol] at hdata
    split at hdata
    · rename_i hsame
      obtain ⟨rfl, _⟩ := hsame
      rcases hedit.enumeration_cases hdata with hsame | ⟨_, hdeclared⟩
      · exact hlists _ data hsame i hi
      · exact hdeclared i hi
    · exact hlists id data hdata i hi

theorem Run.listsEnumerators {config : Config} (h : (start config).Run s) : s.ListsEnumerators :=
  h.invariant ListsEnumerators (.start config)
    (fun _ _ hv hchange hlists => hchange.listsEnumerators hv hlists) (fun _ _ hlists => hlists)
    fun _ _ hdata => absurd (SymbolTable.has_of_entity hdata (by simp)) (Nat.not_lt_zero _)

/-! ### Completing again -/

/-- Whether completing a class or a class template is refused, without any effect. -/
def RefusesClass (u : Session) (id : SymbolId) : Prop :=
  ∀ specifier : ClassSpecifier, exec (defineClass id specifier) u =
    (.error ⟨.redefinition (u.table.symbol id).name, specifier.span⟩, u)

def RefusesEnum (u : Session) (id : SymbolId) : Prop :=
  ∀ enumerators span, exec (defineEnum id enumerators span) u =
    (.error ⟨.redefinition (u.table.symbol id).name, span⟩, u)

theorem refusesClass_of_fault
    (h : completionFault? (u.table.symbol id) = some (.redefinition (u.table.symbol id).name)) :
    u.RefusesClass id := by
  rintro ⟨key, name, bases, members, span⟩
  rw [defineClass, exec_bind, exec_symbol]
  simp only [h]
  rfl

theorem refusesClass_of_class {data : ClassData} (h : u.table.IsCompleteClass id data) :
    u.RefusesClass id := by
  refine refusesClass_of_fault ?_
  simp [completionFault?, h.1, h.2]

theorem refusesClass_of_template {data : TemplateData}
    (hentity : (u.table.symbol id).entity = .template data)
    (hkind : data.entity.kind = .classType) (hdefined : data.isEntityDefined = true) :
    u.RefusesClass id := by
  obtain ⟨parameters, entity, pattern, isDefined⟩ := data
  cases entity with
  | classTemplate key =>
    refine refusesClass_of_fault ?_
    simp only at hdefined
    simp [completionFault?, hentity, hdefined]
  | _ => cases hkind

theorem refusesEnum_of_enum {data : EnumData} (h : u.table.IsCompleteEnum id data) :
    u.RefusesEnum id := by
  intro enumerators span
  rw [defineEnum, exec_bind, exec_symbol]
  simp only [h.1, h.2]
  rfl

/-! ### What is complete stays -/

/-- What is complete of a symbol in one session is in another one what it was, and cannot
be completed again. -/
structure Freezes (s u : Session) (id : SymbolId) : Prop where
  isDefined : (s.table.symbol id).isDefined = true → (u.table.symbol id).isDefined = true
  /-- The key, the bases and the members of a class. -/
  classType : ∀ data, s.table.IsCompleteClass id data →
    u.table.IsCompleteClass id data ∧ u.RefusesClass id
  /-- The enumerators of an enum, with their values. -/
  enumeration : ∀ data, s.table.IsCompleteEnum id data →
    u.table.IsCompleteEnum id data ∧ u.RefusesEnum id ∧ ∀ i ∈ data.enumerators, ∃ value,
      (s.table.symbol i).entity = .enumerator value ∧ (u.table.symbol i).entity = .enumerator value
  /-- The pattern of a template. -/
  template : ∀ data, (s.table.symbol id).entity = .template data → data.isEntityDefined = true →
    ∃ later, (u.table.symbol id).entity = .template later ∧ later.isEntityDefined = true ∧
      later.pattern = data.pattern ∧ (data.entity.kind = .classType → u.RefusesClass id)

/-- What is complete at some point of a run is at every later point what it was, whatever
succeeds or fails in between, and completing it again is refused. -/
theorem freezes_of_run {config : Config} (hs : (start config).Run s) (hu : s.Run u)
    (hid : s.table.HasSymbol id) : s.Freezes u id := by
  have hclosed := hs.closed
  have hgrows := (hu.preserves hclosed).2.table
  have hsymbol := hgrows.symbol id hid
  refine ⟨hsymbol.isDefined, fun data hdata => ?_, fun data hdata => ?_,
    fun data hdata hdefined => ?_⟩
  · have hlater := hu.keepsComplete hclosed id data hdata
    exact ⟨hlater, refusesClass_of_class hlater⟩
  · have hlater := hu.keepsEnum hclosed hdata
    refine ⟨hlater, refusesEnum_of_enum hlater, fun i hi => ?_⟩
    obtain ⟨hhas, ⟨value, hvalue⟩, _⟩ := hs.listsEnumerators id data hdata.1 i hi
    exact ⟨value, hvalue, (hgrows.symbol i hhas).enumerator_iff.mpr hvalue⟩
  · obtain ⟨data', hdata', hlater⟩ := hsymbol.template_entity hdata
    obtain ⟨hdefined', hpattern⟩ := hlater.defined hdefined
    exact ⟨data', hdata', hdefined', hpattern, fun hkind =>
      refusesClass_of_template hdata' (hlater.kind.trans hkind) hdefined'⟩

/-- A class, an enum with one enumerator and a class template, each of them complete, stay so
when the template is instantiated and the class is completed again, which fails. -/
theorem freezes_of_run_base :
    let base := (Operation.defineClass ⟨0⟩ ⟨.structKey, "Base", [], [], .synthesized⟩).after
      ((Operation.declareClass "Base" .structKey .synthesized).after (start .standard))
    let color := (Operation.declareEnum "Color" true none .synthesized).after base
    let colors := (Operation.defineEnum ⟨1⟩ [⟨"red", none, .synthesized⟩] .synthesized).after color
    let header := (Operation.beginTemplate [⟨"N", .nonType, none, false, none, .synthesized⟩]
      .synthesized).after colors
    let box := (Operation.declareClass "Box" .classKey .synthesized).after header
    let s := (Operation.defineClass ⟨4⟩ ⟨.classKey, "Box",
      [⟨.publicly, false, .name "Base" ⟨0⟩ .synthesized, false, .synthesized⟩], [],
      .synthesized⟩).after box
    let made := (Operation.instantiate ⟨4⟩ [.literal (.int 1) .synthesized] .synthesized).after s
    let u := (Operation.defineClass ⟨0⟩ ⟨.classKey, "Base", [], [], .synthesized⟩).after made
    ((s.table.symbol ⟨0⟩).isDefined = true ∧ (s.table.symbol ⟨1⟩).isDefined = true ∧
      (s.body? ⟨4⟩).isSome = true) ∧ s.Freezes u ⟨0⟩ ∧ s.Freezes u ⟨1⟩ ∧ s.Freezes u ⟨4⟩ := by
  intro base color colors header box s made u
  have hclass : ((Operation.declareClass "Base" .structKey .synthesized).after
    (start .standard)).table.HasSymbol ⟨0⟩ := by decide +kernel
  have henum : color.table.HasSymbol ⟨1⟩ := by decide +kernel
  have hbox : box.table.HasSymbol ⟨0⟩ ∧ box.table.HasSymbol ⟨4⟩ := by decide +kernel
  have hsymbols : s.table.HasSymbol ⟨0⟩ ∧ s.table.HasSymbol ⟨1⟩ ∧ s.table.HasSymbol ⟨4⟩ ∧
    made.table.HasSymbol ⟨0⟩ := by decide +kernel
  have hcolor : (start .standard).Run color :=
    ((Run.refl.step _ .of_handles_nil).step _ (.of_symbol hclass)).step _ .of_handles_nil
  have hcolors : (start .standard).Run colors :=
    hcolor.step _ (.of_symbol henum)
  have hheader : (start .standard).Run box :=
    (hcolors.step _ .of_handles_nil).step _ .of_handles_nil
  have hrun : (start .standard).Run s := hheader.step _
    (.of_known (allKnown_cons_symbol hbox.2 (allKnown_cons_symbol hbox.1 AllKnown.nil)))
  have hlater : s.Run u :=
    (Run.refl.step _ (.of_symbol hsymbols.2.2.1)).step _ (.of_symbol hsymbols.2.2.2)
  exact ⟨by decide +kernel, freezes_of_run hrun hlater hsymbols.1,
    freezes_of_run hrun hlater hsymbols.2.1, freezes_of_run hrun hlater hsymbols.2.2.1⟩

end Session

end TemplateAnalysis
