import Mathlib.Tactic.Common

/-!
# Outcomes that are a success

A computation in `Except` succeeds exactly when each of its parts does, with the
results that are passed on.
-/

namespace TemplateAnalysis

section

variable {ε ε' α β : Type}

theorem bind_eq_ok {x : Except ε α} {f : α → Except ε β} {b : β} :
    (x >>= f) = .ok b ↔ ∃ a, x = .ok a ∧ f a = .ok b := by
  cases x <;> simp [bind, Except.bind]

theorem pure_eq_ok {a b : α} : (pure a : Except ε α) = .ok b ↔ a = b := by
  simp [pure, Except.pure]

theorem mapError_eq_ok {f : ε → ε'} {x : Except ε α} {a : α} :
    x.mapError f = .ok a ↔ x = .ok a := by
  cases x <;> simp [Except.mapError]

theorem map_eq_ok {f : α → β} {x : Except ε α} {b : β} :
    x.map f = .ok b ↔ ∃ a, x = .ok a ∧ f a = b := by
  cases x <;> simp [Except.map]

theorem toOption_eq_some {x : Except ε α} {a : α} : x.toOption = some a ↔ x = .ok a := by
  cases x <;> simp [Except.toOption]

/-- Whatever a computation succeeds with has a property. -/
def Yields (x : Except ε α) (post : α → Prop) : Prop := ∀ a, x = .ok a → post a

namespace Yields

variable {post : α → Prop} {next : β → Prop}

theorem error (e : ε) : Yields (.error e : Except ε α) post := fun _ h => by cases h

theorem ok {a : α} (h : post a) : Yields (.ok a : Except ε α) post := fun b hb => by
  cases hb
  exact h

theorem any (x : Except ε α) : Yields x fun _ => True := fun _ _ => trivial

theorem pure {a : α} (h : post a) : Yields (Pure.pure a : Except ε α) post := ok h

theorem bind {x : Except ε α} {f : α → Except ε β} (hx : Yields x post)
    (hf : ∀ a, post a → Yields (f a) next) : Yields (x >>= f) next := by
  intro b hb
  obtain ⟨a, ha, hfa⟩ := bind_eq_ok.mp hb
  exact hf a (hx a ha) b hfa

theorem mapM {f : α → Except ε β} {xs : List α} (h : ∀ x ∈ xs, Yields (f x) next) :
    Yields (xs.mapM f) fun ys => ∀ y ∈ ys, next y := by
  induction xs with
  | nil => exact Yields.pure (by simp)
  | cons x xs ih =>
    rw [List.mapM_cons]
    refine Yields.bind (h x (by simp)) fun y hy => ?_
    refine Yields.bind (ih fun z hz => h z (by simp [hz])) fun ys hys => ?_
    exact Yields.pure (by simpa using ⟨hy, hys⟩)

end Yields

def Succeeds (x : Except ε α) : Prop := ∃ a, x = .ok a

namespace Succeeds

theorem ok (a : α) : Succeeds (.ok a : Except ε α) := ⟨a, rfl⟩

theorem pure (a : α) : Succeeds (Pure.pure a : Except ε α) := ok a

theorem bind {x : Except ε α} {f : α → Except ε β} (hx : Succeeds x)
    (hf : ∀ a, x = .ok a → Succeeds (f a)) : Succeeds (x >>= f) := by
  obtain ⟨a, ha⟩ := hx
  obtain ⟨b, hb⟩ := hf a ha
  exact ⟨b, bind_eq_ok.mpr ⟨a, ha, hb⟩⟩

theorem mapM {f : α → Except ε β} {xs : List α} (h : ∀ x ∈ xs, Succeeds (f x)) :
    Succeeds (xs.mapM f) := by
  induction xs with
  | nil => exact pure []
  | cons x xs ih =>
    rw [List.mapM_cons]
    refine (h x List.mem_cons_self).bind fun y _ => ?_
    exact (ih fun z hz => h z (List.mem_cons_of_mem _ hz)).bind fun ys _ => pure (y :: ys)

end Succeeds

/-- Whatever a computation fails with has a property. -/
def FailsOnly (x : Except ε α) (fault : ε → Prop) : Prop := ∀ e, x = .error e → fault e

namespace FailsOnly

variable {fault : ε → Prop}

theorem ok (a : α) : FailsOnly (.ok a : Except ε α) fault := fun e h => by cases h

theorem pure (a : α) : FailsOnly (Pure.pure a : Except ε α) fault := ok a

theorem error {e : ε} (h : fault e) : FailsOnly (.error e : Except ε α) fault := fun d hd => by
  cases hd
  exact h

theorem mono {weaker : ε → Prop} {x : Except ε α} (hx : FailsOnly x fault)
    (h : ∀ e, fault e → weaker e) : FailsOnly x weaker := fun e he => h e (hx e he)

theorem bind {x : Except ε α} {f : α → Except ε β} (hx : FailsOnly x fault)
    (hf : ∀ a, x = .ok a → FailsOnly (f a) fault) : FailsOnly (x >>= f) fault := by
  cases x with
  | ok a => exact hf a rfl
  | error d => exact error (hx d rfl)

theorem mapError {x : Except ε α} {f : ε → ε'} {fault : ε' → Prop} (h : ∀ e, fault (f e)) :
    FailsOnly (x.mapError f) fault := by
  cases x with
  | ok a => exact ok a
  | error e => exact error (h e)

theorem mapM {f : α → Except ε β} {xs : List α} (h : ∀ x ∈ xs, FailsOnly (f x) fault) :
    FailsOnly (xs.mapM f) fault := by
  induction xs with
  | nil => exact pure []
  | cons x xs ih =>
    rw [List.mapM_cons]
    refine (h x List.mem_cons_self).bind fun y _ => ?_
    exact (ih fun z hz => h z (List.mem_cons_of_mem _ hz)).bind fun ys _ => pure (y :: ys)

theorem foldlM {f : β → α → Except ε β} (h : ∀ b a, FailsOnly (f b a) fault) {xs : List α}
    {b : β} : FailsOnly (xs.foldlM f b) fault := by
  induction xs generalizing b with
  | nil => exact pure b
  | cons x xs ih => exact (h b x).bind fun _ _ => ih

end FailsOnly

/-- The second computation succeeds with what the first one succeeds with. -/
def Persists (x y : Except ε α) : Prop := ∀ a, x = .ok a → y = .ok a

namespace Persists

theorem refl (x : Except ε α) : Persists x x := fun _ h => h

theorem bind {x y : Except ε α} {f g : α → Except ε β} (hxy : Persists x y)
    (hfg : ∀ a, Persists (f a) (g a)) : Persists (x >>= f) (y >>= g) := by
  intro b hb
  obtain ⟨a, ha, hfa⟩ := bind_eq_ok.mp hb
  exact bind_eq_ok.mpr ⟨a, hxy a ha, hfg a b hfa⟩

theorem mapError {x y : Except ε α} (hxy : Persists x y) (f : ε → ε') :
    Persists (x.mapError f) (y.mapError f) := fun a ha =>
  mapError_eq_ok.mpr (hxy a (mapError_eq_ok.mp ha))

end Persists

/-- The computations succeed with the same results. They may fail in different ways. -/
def Agree (x y : Except ε α) : Prop := ∀ a, x = .ok a ↔ y = .ok a

namespace Agree

theorem refl (x : Except ε α) : Agree x x := fun _ => Iff.rfl

theorem errors (d e : ε) : Agree (.error d : Except ε α) (.error e) := by simp [Agree]

theorem bind {x y : Except ε α} {f g : α → Except ε β} (hxy : Agree x y)
    (hfg : ∀ a, Agree (f a) (g a)) : Agree (x >>= f) (y >>= g) := by
  intro b
  simp only [bind_eq_ok]
  apply exists_congr
  intro a
  rw [hxy a, hfg a b]

theorem mapM {f g : α → Except ε β} {xs : List α} (h : ∀ x ∈ xs, Agree (f x) (g x)) :
    Agree (xs.mapM f) (xs.mapM g) := by
  induction xs with
  | nil => exact refl _
  | cons x xs ih =>
    rw [List.mapM_cons, List.mapM_cons]
    apply (h x List.mem_cons_self).bind
    intro y
    apply (ih fun z hz => h z (List.mem_cons_of_mem x hz)).bind
    intro ys
    exact refl _

theorem foldlM {f g : β → α → Except ε β} {xs : List α}
    (h : ∀ b, ∀ x ∈ xs, Agree (f b x) (g b x)) (b : β) :
    Agree (xs.foldlM f b) (xs.foldlM g b) := by
  induction xs generalizing b with
  | nil => exact refl _
  | cons x xs ih =>
    rw [List.foldlM_cons, List.foldlM_cons]
    apply (h b x List.mem_cons_self).bind
    intro c
    exact ih (fun d y hy => h d y (List.mem_cons_of_mem x hy)) c

/-- A branch is taken on the result, so that the other one does not matter. -/
theorem ite {x y x' y' : Except ε α} {c : Prop} [Decidable c] (h : c → Agree x y)
    (h' : ¬ c → Agree x' y') : Agree (if c then x else x') (if c then y else y') := by
  split
  · exact h ‹_›
  · exact h' ‹_›

end Agree

end

end TemplateAnalysis
