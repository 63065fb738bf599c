import TemplateAnalysis.Proofs.Session.Resolution
import TemplateAnalysis.Proofs.TypeGraph.Qualification

/-!
# Steps that succeed from a session on

`Attains s step post` says that a step succeeds in every session that `s` may grow to, only
adds to it, and returns what satisfies `post`. A step that has returned something attains
what it has returned, since it returns this again; a step that has not been taken yet attains
something if its parts do. For types that is the tree they unfold to: steps that form the
same tree return the same type, whichever of them is taken first.
-/

namespace TemplateAnalysis

open Session Analysis

variable {α β : Type} {s u v : Session}

/-- A step succeeds from a session on, with what it returns satisfying a property. -/
def Session.Attains (s : Session) (step : Analysis α) (post : α → Session → Prop) : Prop :=
  ∀ u, u.Closed → s.Grows u →
    ∃ a v, exec step u = (.ok a, v) ∧ v.Closed ∧ u.Grows v ∧ post a v

namespace Session.Attains

variable {post : α → Session → Prop} {next : β → Session → Prop} {step : Analysis α}

theorem later (h : s.Attains step post) (hgrows : s.Grows u) : u.Attains step post :=
  fun v hv hlater => h v hv (hgrows.trans hlater)

theorem congr {other : Analysis α} (h : s.Attains other post)
    (heq : ∀ u, u.Closed → s.Grows u → exec step u = exec other u) : s.Attains step post := by
  intro u hu hgrows
  rw [heq u hu hgrows]
  exact h u hu hgrows

theorem of_again {a : α} (h : ∀ u, u.Closed → s.Grows u → exec step u = (.ok a, u))
    (hpost : ∀ u, u.Closed → s.Grows u → post a u) : s.Attains step post :=
  fun u hu hgrows => ⟨a, u, h u hu hgrows, hu, .refl u, hpost u hu hgrows⟩

theorem pure {a : α} (hpost : ∀ u, u.Closed → s.Grows u → post a u) :
    s.Attains (Pure.pure a) post := of_again (fun u _ _ => exec_pure u a) hpost

theorem bind {f : α → Analysis β} (h : s.Attains step post)
    (hf : ∀ a u, u.Closed → s.Grows u → post a u → u.Attains (f a) next) :
    s.Attains (step >>= f) next := by
  intro u hu hgrows
  obtain ⟨a, v, hexec, hv, hlater, ha⟩ := h u hu hgrows
  obtain ⟨b, w, hexec', hw, hlater', hb⟩ := hf a v hv (hgrows.trans hlater) ha v hv (.refl v)
  exact ⟨b, w, exec_bind_eq_ok.mpr ⟨a, v, hexec, hexec'⟩, hw, hlater.trans hlater', hb⟩

theorem of_exec {a : α} (h : s.Attains step post) (hs : s.Closed)
    (hexec : exec step s = (.ok a, u)) : u.Closed ∧ s.Grows u ∧ post a u := by
  obtain ⟨b, v, hstep, hv, hgrows, hb⟩ := h s hs (.refl s)
  cases hexec.symm.trans hstep
  exact ⟨hv, hgrows, hb⟩

end Session.Attains

theorem Steady.attains {first second : Analysis α} {post : α → Session → Prop} {a : α}
    (h : Steady s first second post) (hexec : exec first s = (.ok a, u)) :
    u.Attains second fun b _ => b = a := by
  have hagain := h.again a (by rw [hexec])
  rw [hexec] at hagain
  exact .of_again hagain fun _ _ _ => rfl

theorem Steady.preserves {first second : Analysis α} {post : α → Session → Prop} {a : α}
    (h : Steady s first second post) (hs : s.Closed) (hexec : exec first s = (.ok a, u)) :
    u.Closed ∧ s.Grows u ∧ post a u := by
  obtain ⟨hclosed, hgrows⟩ := h.changes.preserves hs
  have hpost := h.result a (by rw [hexec])
  rw [hexec] at hclosed hgrows hpost
  exact ⟨hclosed, hgrows, hpost⟩

/-! ### Forming types -/

def Session.Unfolds (s : Session) (tree : TypeTree) (id : TypeId) : Prop :=
  s.types.Has id ∧ s.types.tree id = tree

/-- A step returns a type that unfolds to a tree, from a session on. -/
abbrev Session.Forms (s : Session) (step : Analysis TypeId) (tree : TypeTree) : Prop :=
  s.Attains step fun id u => u.Unfolds tree id

variable {tree : TypeTree} {id : TypeId} {step : Analysis TypeId}

namespace Session.Unfolds

theorem grows (h : s.Unfolds tree id) (hs : s.Closed) (hu : u.Closed) (hgrows : s.Grows u) :
    u.Unfolds tree id :=
  ⟨hgrows.types.has h.1, (hgrows.types.tree_eq hs.types hu.types h.1).trans h.2⟩

theorem eq {other : TypeId} (h : s.Unfolds tree id) (h' : s.Unfolds tree other) (hs : s.Closed) :
    id = other := TypeGraph.tree_injective hs.types h.1 h'.1 (h.2.trans h'.2.symm)

theorem isOn (h : s.Unfolds tree id) {op : TypeGraph.Operation} (hop : op.operands = [id]) :
    op.IsOn s.types := TypeGraph.Operation.isOn_of_operands hop h.1

end Session.Unfolds

theorem Steady.forms {first second : Analysis TypeId} {post : TypeId → Session → Prop}
    (h : Steady s first second post) (hexec : exec first s = (.ok id, u)) (hu : u.Closed)
    (hid : u.types.Has id) : u.Forms second (u.types.tree id) := by
  have hagain := h.again id (by rw [hexec])
  rw [hexec] at hagain
  exact .of_again hagain fun v hv hgrows => Session.Unfolds.grows ⟨hid, rfl⟩ hu hv hgrows

theorem forms_onTypes (op : TypeGraph.Operation) {f : TypeGraph → TypeId × TypeGraph}
    (hf : ∀ g, op.apply g = .ok (f g)) (hon : op.IsOn s.types) (hsymbols : op.symbols = [])
    (htree : ∀ u : Session, u.Closed → s.Grows u → (f u.types).2.tree (f u.types).1 = tree) :
    s.Forms (onTypes f) tree := by
  intro u hu hgrows
  have honu : op.IsOn u.types := fun o ho => hgrows.types.has (hon o ho)
  have hafter : op.after u.types = (f u.types).2 := by rw [TypeGraph.Operation.after, hf]
  have hclosed : Closed { u with types := (f u.types).2 } :=
    hafter ▸ hu.form honu (by simp [hsymbols])
  have hlater : u.Grows { u with types := (f u.types).2 } :=
    hafter ▸ .of_types (TypeGraph.Operation.after_canonical hu.types honu).2
  have hhas : (f u.types).2.Has (f u.types).1 :=
    TypeGraph.Operation.has_of_apply hu.types honu (hf u.types)
  exact ⟨_, _, exec_onTypes u f, hclosed, hlater, hhas, htree u hu hgrows⟩

theorem forms_qualify (h : s.Unfolds tree id) (hs : s.Closed) (q : Qualifiers) :
    s.Forms (onTypes (·.qualify id q)) (tree.qualify q) :=
  forms_onTypes (.qualify id q) (fun _ => rfl) (h.isOn rfl) rfl fun u hu hgrows => by
    have hlater := h.grows hs hu hgrows
    rw [TypeGraph.tree_qualify hu.types hlater.1, hlater.2]

theorem forms_unqualified (h : s.Unfolds tree id) (hs : s.Closed) :
    s.Forms (onTypes (·.unqualified id)) tree.unqualified :=
  forms_onTypes (.unqualified id) (fun _ => rfl) (h.isOn rfl) rfl fun u hu hgrows => by
    have hlater := h.grows hs hu hgrows
    rw [TypeGraph.tree_unqualified hu.types hlater.1, hlater.2]

theorem forms_pointer (h : s.Unfolds tree id) (hs : s.Closed) (q : Qualifiers) :
    s.Forms (onTypes (·.pointer id q)) (.pointer tree q) :=
  forms_onTypes (.pointer id q) (fun _ => rfl) (h.isOn rfl) rfl fun u hu hgrows => by
    have hlater := h.grows hs hu hgrows
    rw [TypeGraph.tree_pointer hu.types hlater.1, hlater.2]

theorem forms_array (h : s.Unfolds tree id) (hs : s.Closed) (bound : Option UInt64) :
    s.Forms (onTypes (·.array id bound)) (.array tree bound) :=
  forms_onTypes (.array id bound) (fun _ => rfl) (h.isOn rfl) rfl fun u hu hgrows => by
    have hlater := h.grows hs hu hgrows
    rw [TypeGraph.tree_array hu.types hlater.1, hlater.2]

theorem forms_keywordType {keywords : KeywordSet} {p : Primitive}
    (h : Primitive.ofKeywords keywords = .ok p) (span : Span) :
    s.Forms (keywordType keywords span) (.base (.primitive p keywords.qualifiers)) := by
  have hform : s.Forms (onTypes (·.primitive p keywords.qualifiers))
      (.base (.primitive p keywords.qualifiers)) :=
    forms_onTypes (.primitive p keywords.qualifiers) (fun _ => rfl)
      (TypeGraph.Operation.isOn_of_operands_nil rfl) rfl
      fun u hu _ => TypeGraph.tree_base hu.types _
  exact hform.congr fun u _ _ => by rw [exec_keywordType, h]

/-- What succeeds behind a check succeeds without it, and the check has found no fault. -/
theorem exec_rejectType_bind_eq_ok {fault? : TypeGraph → Option TypeFault} {span : Span}
    {f : Unit → Analysis α} {a : α} (h : exec (rejectType fault? span >>= f) s = (.ok a, u)) :
    fault? s.types = none ∧ exec (f ()) s = (.ok a, u) := by
  rw [exec_bind, exec_rejectType] at h
  cases hfault : fault? s.types with
  | none =>
    rw [hfault] at h
    exact ⟨rfl, h⟩
  | some fault =>
    rw [hfault] at h
    cases h

theorem Session.Attains.checked {fault? : TypeGraph → Option TypeFault} {span : Span}
    (h : s.Forms step tree) (hfault : ∀ u : Session, u.Closed → s.Grows u → fault? u.types = none) :
    s.Forms (do rejectType fault? span; step) tree := by
  refine h.congr fun u hu hgrows => ?_
  rw [exec_bind, exec_rejectType, hfault u hu hgrows]

end TemplateAnalysis
