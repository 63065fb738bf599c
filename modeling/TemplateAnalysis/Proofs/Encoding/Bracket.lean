import TemplateAnalysis.Proofs.Encoding.Token

/-!
# Brackets in internal names

`N`, `I`, `J` and `F` open a bracket, and `E` closes the one that was opened last.
Where a bracket ends is therefore a matter of counting, whatever stands in it, so that
the name of a symbol can be split off a text without being read.
-/

namespace TemplateAnalysis

namespace Token

def opens : Token → Bool
  | letter c => c == 'N' || c == 'I' || c == 'J' || c == 'F'
  | _ => false

def closes : Token → Bool
  | letter c => c == 'E'
  | _ => false

/-- What stands behind the bracket around `depth` brackets that are open. -/
def behind : Nat → List Token → List Token
  | _, [] => []
  | depth, t :: ts =>
    if t.opens then behind (depth + 1) ts
    else if t.closes then
      if depth = 0 then ts else behind (depth - 1) ts
    else behind depth ts

/-- Whether every bracket of a sequence is closed in it, and closes none outside. -/
def Balanced (ts : List Token) : Prop := ∀ depth r, behind depth (ts ++ r) = behind depth r

namespace Balanced

theorem nil : Balanced [] := fun _ _ => rfl

theorem append {ts us : List Token} (hts : Balanced ts) (hus : Balanced us) :
    Balanced (ts ++ us) := fun depth r => by
  rw [List.append_assoc, hts depth, hus depth]

theorem singleton {t : Token} (hopens : t.opens = false) (hcloses : t.closes = false) :
    Balanced [t] := fun depth r => by
  rw [List.singleton_append, behind, if_neg (by simp [hopens]), if_neg (by simp [hcloses])]

theorem cons {t : Token} {ts : List Token} (hopens : t.opens = false) (hcloses : t.closes = false)
    (hts : Balanced ts) : Balanced (t :: ts) := (singleton hopens hcloses).append hts

theorem bracket {t : Token} {ts : List Token} (hopens : t.opens = true) (hts : Balanced ts) :
    Balanced (t :: ts ++ [letter 'E']) := fun depth r => by
  rw [List.cons_append, List.cons_append, behind, if_pos hopens, List.append_assoc,
    hts (depth + 1), List.singleton_append, behind, if_neg (by decide), if_pos (by decide),
    if_neg (Nat.succ_ne_zero depth), Nat.add_sub_cancel]

theorem flatMap {α : Type} {f : α → List Token} {xs : List α} (h : ∀ x ∈ xs, Balanced (f x)) :
    Balanced (xs.flatMap f) := by
  induction xs with
  | nil => exact nil
  | cons x xs ih =>
    exact (h x List.mem_cons_self).append (ih fun y hy => h y (List.mem_cons_of_mem _ hy))

end Balanced

/-- Where a bracket ends can be seen. -/
theorem bracket_cancel {ts us r r' : List Token} (hts : Balanced ts) (hus : Balanced us)
    (h : ts ++ letter 'E' :: r = us ++ letter 'E' :: r') : ts = us ∧ r = r' := by
  have hbehind : ∀ {ts r : List Token}, Balanced ts → behind 0 (ts ++ letter 'E' :: r) = r := by
    intro ts r hts
    rw [hts 0, behind, if_neg (by decide), if_pos (by decide), if_pos rfl]
  have hrest : r = r' := (hbehind hts).symm.trans (h ▸ hbehind hus)
  subst hrest
  exact ⟨List.append_cancel_right h, rfl⟩

def IsPlain (c : Char) : Prop :=
  c.isDigit = false ∧ c ≠ 'A' ∧ c ≠ 'L' ∧ (letter c).opens = false ∧ (letter c).closes = false

instance (c : Char) : Decidable (IsPlain c) := inferInstanceAs (Decidable (_ ∧ _))

/-- Whether tokens may stand anywhere in an internal name. -/
structure IsCode (ts : List Token) : Prop where
  sound : ∀ t ∈ ts, t.IsSound
  balanced : Balanced ts

namespace IsCode

theorem nil : IsCode [] := ⟨fun _ h => (List.not_mem_nil h).elim, .nil⟩

theorem append {ts us : List Token} (hts : IsCode ts) (hus : IsCode us) : IsCode (ts ++ us) :=
  ⟨fun t ht => (List.mem_append.mp ht).elim (hts.sound t) (hus.sound t),
    hts.balanced.append hus.balanced⟩

theorem cons {t : Token} {ts : List Token} (hsound : t.IsSound) (hopens : t.opens = false)
    (hcloses : t.closes = false) (hts : IsCode ts) : IsCode (t :: ts) :=
  ⟨List.forall_mem_cons.mpr ⟨hsound, hts.sound⟩, .cons hopens hcloses hts.balanced⟩

theorem letter {c : Char} {ts : List Token} (hc : IsPlain c) (hts : IsCode ts) :
    IsCode (Token.letter c :: ts) :=
  .cons ⟨hc.1, hc.2.1, hc.2.2.1⟩ hc.2.2.2.1 hc.2.2.2.2 hts

theorem bracket {t : Token} {ts : List Token} (hsound : t.IsSound) (hopens : t.opens = true)
    (hts : IsCode ts) : IsCode (t :: ts ++ [Token.letter 'E']) where
  sound u hu := by
    rcases List.mem_append.mp hu with hu | hu
    · exact List.forall_mem_cons.mpr ⟨hsound, hts.sound⟩ u hu
    · rw [List.mem_singleton.mp hu]
      exact ⟨rfl, by decide, by decide⟩
  balanced := .bracket hopens hts.balanced

theorem flatMap {α : Type} {f : α → List Token} {xs : List α} (h : ∀ x ∈ xs, IsCode (f x)) :
    IsCode (xs.flatMap f) where
  sound t ht := by
    obtain ⟨x, hx, ht⟩ := List.mem_flatMap.mp ht
    exact (h x hx).sound t ht
  balanced := .flatMap fun x hx => (h x hx).balanced

end IsCode

/-- The tokens of a symbol's name: one name, the key of an instance, or a nested name. -/
inductive IsUnit : List Token → Prop
  | single (n : String) : IsUnit [name n]
  | key (n : String) {ts : List Token} (balanced : Balanced ts) :
    IsUnit (name n :: letter 'I' :: (ts ++ [letter 'E']))
  | nested {ts : List Token} (balanced : Balanced ts) : IsUnit (letter 'N' :: (ts ++ [letter 'E']))

/-- Whether a sequence goes on as if a name were that of a template. -/
def StartsKey (ts : List Token) : Prop := ts.head? = some (letter 'I')

/-- Where the name of a symbol ends can be seen: the name of a template goes on where
that of an instance does. -/
theorem IsUnit.cancel {ts us r r' : List Token} (hts : IsUnit ts) (hus : IsUnit us)
    (hr : ¬ StartsKey r) (hr' : ¬ StartsKey r') (h : ts ++ r = us ++ r') : ts = us ∧ r = r' := by
  cases hts with
  | single n =>
    cases hus with
    | single m =>
      obtain ⟨hname, hrest⟩ := List.cons.inj h
      exact ⟨by rw [hname], hrest⟩
    | key m _ => exact absurd (congrArg List.head? (List.cons.inj h).2) hr
    | nested _ => cases (List.cons.inj h).1
  | @key n inner hinner =>
    cases hus with
    | single m => exact absurd (congrArg List.head? (List.cons.inj h).2).symm hr'
    | @key m inner' hinner' =>
      simp only [List.cons_append, List.append_assoc, List.cons.injEq, true_and,
        List.nil_append] at h
      obtain ⟨hname, hrest⟩ := h
      obtain ⟨rfl, rfl⟩ := bracket_cancel hinner hinner' hrest
      exact ⟨by rw [hname], rfl⟩
    | nested _ => cases (List.cons.inj h).1
  | @nested inner hinner =>
    cases hus with
    | single m => cases (List.cons.inj h).1
    | key m _ => cases (List.cons.inj h).1
    | @nested inner' hinner' =>
      simp only [List.cons_append, List.append_assoc, List.cons.injEq, true_and,
        List.nil_append] at h
      obtain ⟨rfl, hrest⟩ := bracket_cancel hinner hinner' h
      exact ⟨rfl, hrest⟩

end Token

end TemplateAnalysis
