import Mathlib.Data.List.Forall2
import TemplateAnalysis.Proofs.Outcome
import TemplateAnalysis.Template.Parameter

/-!
# Merging lists of parameters

Every declaration of a template brings a list of parameters, and the lists are merged one by
one. Two lists merge if their parameters are compatible position by position, and what they
merge to is compatible with a third list exactly if each of them is. So declarations merge
exactly if every two of them do, in whatever order they come.
-/

namespace TemplateAnalysis

namespace TemplateParameter

variable {p q r : TemplateParameter}

structure IsCompatible (p q : TemplateParameter) : Prop where
  kind : p.kind = q.kind
  valueType : p.valueType = q.valueType
  isPack : p.isPack = q.isPack
  /-- At most one of them has a default. -/
  default : p.defaultArgument = none ∨ q.defaultArgument = none

/-- Whether a parameter is one of two but for its default, which is that of either. -/
structure IsMergeOf (m p q : TemplateParameter) : Prop where
  same : m = { p with defaultArgument := m.defaultArgument }
  default : ∀ node, m.defaultArgument = some node ↔
    p.defaultArgument = some node ∨ q.defaultArgument = some node

theorem sameShape_eq_true :
    p.sameShape q = true ↔ p.kind = q.kind ∧ p.valueType = q.valueType ∧ p.isPack = q.isPack := by
  simp [sameShape, and_assoc]

theorem IsCompatible.symm (h : p.IsCompatible q) : q.IsCompatible p :=
  ⟨h.kind.symm, h.valueType.symm, h.isPack.symm, h.default.symm⟩

theorem IsCompatible.isMergeOf (h : p.IsCompatible q) : (p.withDefaultOf q).IsMergeOf p q := by
  refine ⟨rfl, fun node => ?_⟩
  rcases h.default with hnone | hnone <;> simp [withDefaultOf, hnone]

/-- What two parameters merge to leaves room for a third exactly if both do. -/
theorem IsCompatible.withDefaultOf_iff (h : p.IsCompatible q) :
    (p.withDefaultOf q).IsCompatible r ↔ p.IsCompatible r ∧ q.IsCompatible r := by
  constructor
  · rintro ⟨hkind, htype, hpack, hdefault⟩
    have hdefaults : (p.defaultArgument = none ∧ q.defaultArgument = none) ∨
        r.defaultArgument = none := by simpa [withDefaultOf] using hdefault
    exact ⟨⟨hkind, htype, hpack, hdefaults.imp_left And.left⟩,
      h.kind.symm.trans hkind, h.valueType.symm.trans htype, h.isPack.symm.trans hpack,
      hdefaults.imp_left And.right⟩
  · rintro ⟨hp, hq⟩
    refine ⟨hp.kind, hp.valueType, hp.isPack, ?_⟩
    rcases hp.default with hnone | hnone
    · exact hq.default.imp_left fun hnone' => by simp [withDefaultOf, hnone, hnone']
    · exact .inr hnone

theorem IsCompatible.withDefaultOf_comm (h : q.IsCompatible r) (p : TemplateParameter) :
    (p.withDefaultOf q).withDefaultOf r = (p.withDefaultOf r).withDefaultOf q := by
  rcases h.default with hnone | hnone <;> simp [withDefaultOf, hnone]

end TemplateParameter

namespace ParameterList

open TemplateParameter (withDefaultOf)

variable {ps qs rs merged : ParameterList} {name : String} {span : Span}

/-- Whether two lists have one length, and compatible parameters at every position. -/
def IsCompatible (ps qs : ParameterList) : Prop :=
  List.Forall₂ TemplateParameter.IsCompatible ps qs

/-! ### Two lists -/

theorem IsCompatible.symm (h : ps.IsCompatible qs) : qs.IsCompatible ps :=
  h.flip.imp fun _ _ h => h.symm

theorem IsCompatible.isCompatible (h : ps.IsCompatible qs) {index : Nat}
    {p q : TemplateParameter} (hp : ps[index]? = some p) (hq : qs[index]? = some q) :
    p.IsCompatible q := by
  obtain ⟨hindex, rfl⟩ := List.getElem?_eq_some_iff.mp hp
  obtain ⟨hindex', rfl⟩ := List.getElem?_eq_some_iff.mp hq
  exact h.get hindex hindex'

theorem checkAgreement_eq_ok (hlength : ps.length = qs.length) (index : Nat) :
    checkAgreement name index ps qs = .ok () ↔ ps.IsCompatible qs := by
  induction ps generalizing qs index with
  | nil =>
    obtain rfl := List.eq_nil_of_length_eq_zero hlength.symm
    exact ⟨fun _ => .nil, fun _ => rfl⟩
  | cons p ps ih =>
    cases qs with
    | nil => cases hlength
    | cons q qs =>
      rw [checkAgreement, IsCompatible, List.forall₂_cons, ← IsCompatible,
        ← ih (Nat.succ.inj hlength) (index + 1)]
      split
      · rename_i hshape
        rw [Bool.not_eq_true', ← Bool.not_eq_true, TemplateParameter.sameShape_eq_true] at hshape
        constructor
        · rintro ⟨⟩
        · rintro ⟨h, -⟩
          exact absurd ⟨h.kind, h.valueType, h.isPack⟩ hshape
      · rename_i hshape
        rw [Bool.not_eq_true', Bool.not_eq_false, TemplateParameter.sameShape_eq_true] at hshape
        obtain ⟨hkind, htype, hpack⟩ := hshape
        split
        · rename_i hboth
          constructor
          · rintro ⟨⟩
          · rintro ⟨h, -⟩
            rcases h.default with hnone | hnone <;> simp [hnone] at hboth
        · rename_i hboth
          have hdefault : p.defaultArgument = none ∨ q.defaultArgument = none := by
            cases hp : p.defaultArgument with
            | none => exact .inl rfl
            | some node => exact .inr (by simpa [hp] using hboth)
          exact ⟨fun h => ⟨⟨hkind, htype, hpack, hdefault⟩, h⟩, And.right⟩

/-- Lists merge exactly if they are compatible. -/
theorem merge_eq_ok : ps.merge qs name span = .ok merged ↔
    ps.IsCompatible qs ∧ merged = ps.zipWith withDefaultOf qs := by
  constructor
  · intro h
    rw [merge] at h
    split at h
    · cases h
    · rename_i hlength
      obtain ⟨_, hagree, h⟩ := bind_eq_ok.mp h
      exact ⟨(checkAgreement_eq_ok (not_not.mp hlength) 0).mp hagree, (pure_eq_ok.mp h).symm⟩
  · rintro ⟨h, rfl⟩
    rw [merge, if_neg (not_not.mpr h.length_eq), (checkAgreement_eq_ok h.length_eq 0).mpr h]
    rfl

theorem length_of_merge (h : ps.merge qs name span = .ok merged) :
    ps.length = qs.length ∧ merged = ps.zipWith withDefaultOf qs :=
  (merge_eq_ok.mp h).imp_left List.Forall₂.length_eq

theorem succeeds_merge_iff : Succeeds (ps.merge qs name span) ↔ ps.IsCompatible qs :=
  ⟨fun ⟨_, h⟩ => (merge_eq_ok.mp h).1, fun h => ⟨_, merge_eq_ok.mpr ⟨h, rfl⟩⟩⟩

/-! ### Three lists -/

theorem IsCompatible.zipWith_iff (h : ps.IsCompatible qs) :
    IsCompatible (ps.zipWith withDefaultOf qs) rs ↔ ps.IsCompatible rs ∧ qs.IsCompatible rs := by
  induction h generalizing rs with
  | nil => exact (and_self_iff).symm
  | cons hp _ ih =>
    cases rs with
    | nil => exact ⟨nofun, nofun⟩
    | cons r rs =>
      simp only [List.zipWith_cons_cons, IsCompatible, List.forall₂_cons] at ih ⊢
      rw [hp.withDefaultOf_iff, ih]
      tauto

theorem IsCompatible.zipWith_comm (h : qs.IsCompatible rs) :
    ∀ ps : ParameterList, (ps.zipWith withDefaultOf qs).zipWith withDefaultOf rs =
      (ps.zipWith withDefaultOf rs).zipWith withDefaultOf qs := by
  induction h with
  | nil => exact fun ps => by cases ps <;> rfl
  | cons hq _ ih =>
    intro ps
    cases ps with
    | nil => rfl
    | cons p ps =>
      simp only [List.zipWith_cons_cons]
      rw [hq.withDefaultOf_comm p, ih ps]

/-- A list merges with two others exactly if every two of the three are compatible. -/
theorem merge_merge_eq_ok {name' : String} {span' : Span} :
    (do let both ← ps.merge qs name span; both.merge rs name' span') = .ok merged ↔
      (ps.IsCompatible qs ∧ ps.IsCompatible rs ∧ qs.IsCompatible rs) ∧
        merged = (ps.zipWith withDefaultOf qs).zipWith withDefaultOf rs := by
  rw [bind_eq_ok]
  constructor
  · rintro ⟨both, hboth, hmerged⟩
    obtain ⟨hqs, rfl⟩ := merge_eq_ok.mp hboth
    obtain ⟨hrs, rfl⟩ := merge_eq_ok.mp hmerged
    exact ⟨⟨hqs, hqs.zipWith_iff.mp hrs⟩, rfl⟩
  · rintro ⟨⟨hqs, hrs⟩, rfl⟩
    exact ⟨_, merge_eq_ok.mpr ⟨hqs, rfl⟩, merge_eq_ok.mpr ⟨hqs.zipWith_iff.mpr hrs, rfl⟩⟩

/-- Two lists can be merged into one in either order. -/
theorem agree_merge_merge (ps qs rs : ParameterList) (name name' : String) (span span' : Span) :
    Agree (do let both ← ps.merge qs name span; both.merge rs name' span')
      (do let both ← ps.merge rs name' span'; both.merge qs name span) := by
  intro merged
  rw [merge_merge_eq_ok, merge_merge_eq_ok]
  constructor
  · rintro ⟨⟨hqs, hrs, hboth⟩, rfl⟩
    exact ⟨⟨hrs, hqs, hboth.symm⟩, hboth.zipWith_comm ps⟩
  · rintro ⟨⟨hrs, hqs, hboth⟩, rfl⟩
    exact ⟨⟨hqs, hrs, hboth.symm⟩, hboth.zipWith_comm ps⟩

example :
    let p : TemplateParameter := ⟨"V", .nonType, none, false, none, .synthesized⟩
    let q := { p with defaultArgument := some (.literal (.int 1) .synthesized) }
    (do let both ← merge [p, p] [p, q] "Box" .synthesized; both.merge [q, p] "Box" .synthesized) =
      .ok [q, q] := rfl

/-! ### Any number of lists -/

structure Declaration where
  parameters : ParameterList
  name : String
  span : Span

/-- A list with those of some declarations merged into it, one after the other. -/
def mergeAll (ps : ParameterList) (ds : List Declaration) : Except Diagnostic ParameterList :=
  ds.foldlM (fun ps d => ps.merge d.parameters d.name d.span) ps

theorem mergeAll_cons (ps : ParameterList) (d : Declaration) (ds : List Declaration) :
    ps.mergeAll (d :: ds) =
      ps.merge d.parameters d.name d.span >>= fun both => both.mergeAll ds :=
  List.foldlM_cons

/-- Declarations merge exactly if every two of them are compatible. -/
theorem succeeds_mergeAll_iff {ds : List Declaration} : Succeeds (ps.mergeAll ds) ↔
    (ps :: ds.map (·.parameters)).Pairwise IsCompatible := by
  induction ds generalizing ps with
  | nil => exact ⟨fun _ => List.pairwise_singleton _ _, fun _ => .pure ps⟩
  | cons d ds ih =>
    have hcons : Succeeds (ps.mergeAll (d :: ds)) ↔ ps.IsCompatible d.parameters ∧
        Succeeds (mergeAll (ps.zipWith withDefaultOf d.parameters) ds) := by
      rw [mergeAll_cons]
      constructor
      · rintro ⟨merged, h⟩
        obtain ⟨both, hboth, hrest⟩ := bind_eq_ok.mp h
        obtain ⟨hd, rfl⟩ := merge_eq_ok.mp hboth
        exact ⟨hd, merged, hrest⟩
      · rintro ⟨hd, merged, hrest⟩
        exact ⟨merged, bind_eq_ok.mpr ⟨_, merge_eq_ok.mpr ⟨hd, rfl⟩, hrest⟩⟩
    rw [hcons, ih, List.map_cons, List.pairwise_cons, List.pairwise_cons, List.pairwise_cons,
      List.forall_mem_cons]
    constructor
    · rintro ⟨hd, hrest, hpairs⟩
      have hboth := fun rs hrs => hd.zipWith_iff.mp (hrest rs hrs)
      exact ⟨⟨hd, fun rs hrs => (hboth rs hrs).1⟩, fun rs hrs => (hboth rs hrs).2, hpairs⟩
    · rintro ⟨⟨hd, hps⟩, hds, hpairs⟩
      exact ⟨hd, fun rs hrs => hd.zipWith_iff.mpr ⟨hps rs hrs, hds rs hrs⟩, hpairs⟩

/-- Declarations can be merged in any order. -/
theorem agree_mergeAll_of_perm {ds es : List Declaration} (h : ds.Perm es) :
    ∀ ps : ParameterList, Agree (ps.mergeAll ds) (ps.mergeAll es) := by
  induction h with
  | nil => exact fun ps => .refl _
  | cons d _ ih =>
    intro ps
    rw [mergeAll_cons, mergeAll_cons]
    exact (Agree.refl _).bind ih
  | swap d e ds =>
    intro ps
    simp only [mergeAll_cons, ← bind_assoc]
    exact (agree_merge_merge ps _ _ _ _ _ _).bind fun both => .refl _
  | trans _ _ ih ih' => exact fun ps merged => (ih ps merged).trans (ih' ps merged)

end ParameterList

end TemplateAnalysis
