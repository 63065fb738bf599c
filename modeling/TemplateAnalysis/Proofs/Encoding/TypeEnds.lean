import TemplateAnalysis.Proofs.Encoding.Alike

/-!
# Reading types off their tokens

A type starts with its own qualifiers and a token that tells its sort, so that it can
be read off whatever stands behind it, up to the types that are like it.
-/

namespace TemplateAnalysis.TypeTree

open Token

variable {codes : SymbolId → List Token}

/-! ### Where a type starts -/

def ownQualifiers : TypeTree → Qualifiers
  | base key => key.qualifiers
  | pointer _ q | function _ _ _ q => q
  | lvalueReference _ | rvalueReference _ | array _ _ => .none

def sort : TypeTree → Nat
  | base (.primitive _ _) => 0
  | base (.symbol _ _) => 1
  | pointer _ _ => 2
  | lvalueReference _ => 3
  | rvalueReference _ => 4
  | array _ _ => 5
  | function _ _ _ _ => 6

/-- The sort of the types that go on with a token behind their own qualifiers; tokens
that no type goes on with have a sort of their own. -/
def leadSort : Token → Nat
  | name _ => 1
  | bound _ => 5
  | constant _ => 7
  | letter c =>
    if c = 'N' then 1 else if c = 'P' then 2 else if c = 'R' then 3 else if c = 'O' then 4
    else if c = 'F' then 6 else if c ∈ ['V', 'K', 'I', 'J', 'E', 'z'] then 7 else 0

theorem sort_lt (t : TypeTree) : t.sort < 7 := by
  cases t with
  | base key => cases key <;> simp [sort]
  | _ => simp [sort]

/-- A type is its own qualifiers, a token that tells its sort, and more. -/
theorem tokens_eq_append (t : TypeTree) (h : ∀ s ∈ t.symbols, IsUnit (codes s)) :
    ∃ x xs, t.tokens codes = t.ownQualifiers.tokens ++ x :: xs ∧ leadSort x = t.sort := by
  cases t with
  | base key =>
    cases key with
    | primitive p q =>
      obtain ⟨x, xs, hx, hsort⟩ : ∃ x xs, p.tokens = x :: xs ∧ leadSort x = 0 := by
        cases p <;> exact ⟨_, _, rfl, by decide⟩
      exact ⟨x, xs, congrArg (q.tokens ++ ·) hx, hsort⟩
    | symbol s q =>
      obtain ⟨x, xs, hx, hsort⟩ : ∃ x xs, codes s = x :: xs ∧ leadSort x = 1 := by
        have hunit := h s (by simp [symbols, BaseKey.symbols])
        generalize codes s = ts at hunit
        cases hunit with
        | single n => exact ⟨_, _, rfl, rfl⟩
        | key n _ => exact ⟨_, _, rfl, rfl⟩
        | nested _ => exact ⟨_, _, rfl, rfl⟩
      exact ⟨x, xs, congrArg (q.tokens ++ ·) hx, hsort⟩
  | pointer target q => exact ⟨_, _, rfl, rfl⟩
  | lvalueReference referee => exact ⟨_, _, rfl, rfl⟩
  | rvalueReference referee => exact ⟨_, _, rfl, rfl⟩
  | array element n => exact ⟨_, _, rfl, rfl⟩
  | function result parameters variadic q => exact ⟨_, _, rfl, rfl⟩

def IsUnqualified (x : Token) : Prop := x ≠ letter 'V' ∧ x ≠ letter 'K'

theorem isUnqualified_of_leadSort {x : Token} (h : leadSort x < 7) : IsUnqualified x := by
  refine ⟨?_, ?_⟩ <;> rintro rfl <;> exact absurd h (by decide)

/-- Where qualifiers end can be seen, if none follow. -/
theorem qualifiers_cancel {q q' : Qualifiers} {x y : Token} {xs ys : List Token}
    (hx : IsUnqualified x) (hy : IsUnqualified y)
    (h : q.tokens ++ x :: xs = q'.tokens ++ y :: ys) : q = q' ∧ x :: xs = y :: ys := by
  obtain ⟨c, v⟩ := q
  obtain ⟨c', v'⟩ := q'
  cases c <;> cases v <;> cases c' <;> cases v' <;>
    simp only [Qualifiers.tokens, if_true, if_false, List.nil_append, List.cons_append,
      List.cons.injEq, Bool.false_eq_true, true_and] at h ⊢
  all_goals first
    | exact h
    | exact absurd h.1 hx.1
    | exact absurd h.1 hx.2
    | exact absurd h.1.symm hy.1
    | exact absurd h.1.symm hy.2
    | exact absurd (Token.letter.inj h.1) (by decide)

theorem start_cancel {t u : TypeTree} (ht : ∀ s ∈ t.symbols, IsUnit (codes s))
    (hu : ∀ s ∈ u.symbols, IsUnit (codes s)) {r r' : List Token}
    (h : t.tokens codes ++ r = u.tokens codes ++ r') :
    t.ownQualifiers = u.ownQualifiers ∧ t.sort = u.sort := by
  obtain ⟨x, xs, hx, hsort⟩ := tokens_eq_append t ht
  obtain ⟨y, ys, hy, hsort'⟩ := tokens_eq_append u hu
  rw [hx, hy, List.append_assoc, List.append_assoc] at h
  obtain ⟨hqualifiers, hrest⟩ :=
    qualifiers_cancel (isUnqualified_of_leadSort (hsort ▸ t.sort_lt))
      (isUnqualified_of_leadSort (hsort' ▸ u.sort_lt)) h
  exact ⟨hqualifiers, by rw [← hsort, ← hsort', (List.cons.inj hrest).1]⟩

def IsStart (x : Token) : Prop := leadSort x < 7 ∨ x = letter 'V' ∨ x = letter 'K'

theorem exists_isStart (t : TypeTree) (h : ∀ s ∈ t.symbols, IsUnit (codes s)) :
    ∃ x xs, t.tokens codes = x :: xs ∧ IsStart x := by
  obtain ⟨x, xs, hx, hsort⟩ := tokens_eq_append t h
  have hlead : IsStart x := .inl (hsort ▸ t.sort_lt)
  rw [hx]
  obtain ⟨c, v⟩ := t.ownQualifiers
  cases v with
  | true => exact ⟨_, _, rfl, .inr (.inl rfl)⟩
  | false =>
    cases c with
    | true => exact ⟨_, _, rfl, .inr (.inr rfl)⟩
    | false => exact ⟨x, xs, rfl, hlead⟩

theorem not_startsKey_cons {x : Token} {r : List Token} (h : x ≠ letter 'I') :
    ¬ StartsKey (x :: r) := fun hstart => h (Option.some.inj hstart)

theorem not_startsKey_tokens (t : TypeTree) (h : ∀ s ∈ t.symbols, IsUnit (codes s))
    (r : List Token) : ¬ StartsKey (t.tokens codes ++ r) := by
  obtain ⟨x, xs, hx, hstart⟩ := exists_isStart t h
  rw [hx]
  refine not_startsKey_cons ?_
  rintro rfl
  revert hstart
  simp [IsStart, leadSort]

/-! ### Where a type ends -/

/-- The fundamental type at the start of some tokens, with the tokens behind it. -/
def readPrimitive : List Token → Option (Primitive × List Token)
  | letter 'v' :: r => some (.void, r)
  | letter 'b' :: r => some (.bool, r)
  | letter 'c' :: r => some (.char, r)
  | letter 'a' :: r => some (.signedChar, r)
  | letter 'h' :: r => some (.unsignedChar, r)
  | letter 'w' :: r => some (.wideChar, r)
  | letter 'D' :: letter 's' :: r => some (.char16, r)
  | letter 'D' :: letter 'i' :: r => some (.char32, r)
  | letter 's' :: r => some (.short, r)
  | letter 't' :: r => some (.unsignedShort, r)
  | letter 'i' :: r => some (.int, r)
  | letter 'j' :: r => some (.unsignedInt, r)
  | letter 'l' :: r => some (.long, r)
  | letter 'm' :: r => some (.unsignedLong, r)
  | letter 'x' :: r => some (.longLong, r)
  | letter 'y' :: r => some (.unsignedLongLong, r)
  | letter 'f' :: r => some (.float, r)
  | letter 'd' :: r => some (.double, r)
  | letter 'e' :: r => some (.longDouble, r)
  | _ => none

theorem readPrimitive_tokens (p : Primitive) (r : List Token) :
    readPrimitive (p.tokens ++ r) = some (p, r) := by
  cases p <;> rfl

theorem primitive_cancel {p p' : Primitive} {r r' : List Token}
    (h : p.tokens ++ r = p'.tokens ++ r') : p = p' ∧ r = r' := by
  have hread := readPrimitive_tokens p r
  rw [h, readPrimitive_tokens] at hread
  cases hread
  exact ⟨rfl, rfl⟩

theorem base_primitive_cancel {p : Primitive} {q : Qualifiers} {u : TypeTree}
    (hu : ∀ s ∈ u.symbols, IsUnit (codes s)) {r r' : List Token}
    (h : (base (.primitive p q)).tokens codes ++ r = u.tokens codes ++ r') :
    u = base (.primitive p q) ∧ r = r' := by
  obtain ⟨hqualifiers, hsort⟩ := start_cancel (by simp [symbols, BaseKey.symbols]) hu h
  cases u with
  | base key =>
    cases key with
    | primitive p' q' =>
      obtain rfl : q = q' := hqualifiers
      rw [tokens, tokens, List.append_assoc, List.append_assoc] at h
      obtain ⟨rfl, hrest⟩ := primitive_cancel (List.append_cancel_left h)
      exact ⟨rfl, hrest⟩
    | symbol s q' => cases hsort
  | _ => cases hsort

/-- User-defined types with one name. -/
abbrev SameCode (codes : SymbolId → List Token) (s s' : SymbolId) : Prop := codes s = codes s'

theorem ne_tokens_append {x : Token} (hx : ¬ IsStart x) {u : TypeTree}
    (hu : ∀ s ∈ u.symbols, IsUnit (codes s)) (r r' : List Token) :
    x :: r ≠ u.tokens codes ++ r' := by
  obtain ⟨y, ys, hy, hstart⟩ := exists_isStart u hu
  rw [hy]
  intro h
  exact hx ((List.cons.inj h).1 ▸ hstart)

/-- Whether a list of types may end before a token. -/
structure IsStop (x : Token) : Prop where
  not_start : ¬ IsStart x
  ne_key : x ≠ letter 'I'

theorem isStop_close : IsStop (letter 'E') := ⟨by simp [IsStart, leadSort], by simp⟩

theorem isStop_variadic : IsStop (letter 'z') := ⟨by simp [IsStart, leadSort], by simp⟩

theorem not_startsKey_tokensOfList {x : Token} (hx : IsStop x) {ts : List TypeTree}
    (hts : ∀ s ∈ symbolsOfList ts, IsUnit (codes s)) (r : List Token) :
    ¬ StartsKey (tokensOfList codes ts ++ x :: r) := by
  cases ts with
  | nil => exact not_startsKey_cons hx.ne_key
  | cons t ts =>
    rw [tokensOfList, List.append_assoc]
    exact not_startsKey_tokens t (fun s hs => hts s (List.mem_append_left _ hs)) _

/-- What stands behind the parameters of a function: first the token that says
whether there may be more. -/
theorem variadic_append (variadic : Bool) (r : List Token) :
    ∃ x rest, (if variadic then [letter 'z'] else []) ++ letter 'E' :: r = x :: rest ∧
      IsStop x := by
  cases variadic with
  | true => exact ⟨_, _, rfl, isStop_variadic⟩
  | false => exact ⟨_, _, rfl, isStop_close⟩

theorem variadic_cancel (variadic variadic' : Bool) {r r' : List Token}
    (h : (if variadic then [letter 'z'] else []) ++ letter 'E' :: r =
      (if variadic' then [letter 'z'] else []) ++ letter 'E' :: r') :
    variadic = variadic' ∧ r = r' := by
  cases variadic <;> cases variadic' <;> simp_all

/-- A list that is encoded as `void`, and is not empty, is the list of `void`. -/
theorem void_cancel {us : List TypeTree} (hus : ∀ s ∈ symbolsOfList us, IsUnit (codes s))
    {x y : Token} {r r' : List Token} (hx : IsStop x) (hy : IsStop y)
    (h : letter 'v' :: x :: r = tokensOfList codes us ++ y :: r') :
    us = [base (.primitive .void .none)] ∧ x :: r = y :: r' := by
  cases us with
  | nil =>
    refine absurd (.inl ?_) ((List.cons.inj h).1 ▸ hy.not_start)
    decide
  | cons u us =>
    rw [tokensOfList, List.append_assoc] at h
    obtain ⟨rfl, hrest⟩ := base_primitive_cancel (p := .void) (q := .none)
      (fun s hs => hus s (List.mem_append_left _ hs)) h
    cases us with
    | nil => exact ⟨rfl, hrest⟩
    | cons u us =>
      rw [tokensOfList, List.append_assoc] at hrest
      exact absurd hrest (ne_tokens_append hx.not_start
        (fun s hs => hus s (List.mem_append_right _ (List.mem_append_left _ hs))) _ _)

theorem not_startsKey_parameterList {ps : List TypeTree}
    (hps : ∀ s ∈ symbolsOfList ps, IsUnit (codes s)) (variadic : Bool) (r : List Token) :
    ¬ StartsKey (parameterListTokens ps.isEmpty (tokensOfList codes ps) variadic ++
      letter 'E' :: r) := by
  rw [parameterListTokens]
  split
  · exact not_startsKey_cons (by simp)
  · obtain ⟨x, rest, hx, hstop⟩ := variadic_append variadic r
    rw [List.append_assoc, hx]
    exact not_startsKey_tokensOfList hstop hps rest

/-- Where a parameter list ends can be seen, given that where its types end can. -/
theorem parameterList_cancel {ps qs : List TypeTree}
    (hps : ∀ s ∈ symbolsOfList ps, IsUnit (codes s))
    (hqs : ∀ s ∈ symbolsOfList qs, IsUnit (codes s))
    (hcancel : ∀ {x y : Token} {r r' : List Token}, IsStop x → IsStop y →
      tokensOfList codes ps ++ x :: r = tokensOfList codes qs ++ y :: r' →
        AlikeLists (SameCode codes) ps qs ∧ x :: r = y :: r')
    {variadic variadic' : Bool} {r r' : List Token}
    (h : parameterListTokens ps.isEmpty (tokensOfList codes ps) variadic ++ letter 'E' :: r =
      parameterListTokens qs.isEmpty (tokensOfList codes qs) variadic' ++ letter 'E' :: r') :
    (AlikeLists (SameCode codes) ps qs ∨ variadic = false ∧ IsVoidList ps ∧ IsVoidList qs) ∧
      variadic = variadic' ∧ r = r' := by
  have hempty : ∀ {ts : List TypeTree} {variadic : Bool},
      (ts.isEmpty && !variadic) = true → ts = [] ∧ variadic = false := by
    intro ts variadic h
    rw [Bool.and_eq_true, List.isEmpty_iff, Bool.not_eq_true'] at h
    exact h
  rw [parameterListTokens, parameterListTokens] at h
  obtain ⟨x, rest, hx, hstop⟩ := variadic_append variadic r
  obtain ⟨y, rest', hy, hstop'⟩ := variadic_append variadic' r'
  -- Without parameters, and if there are never more, the list is written as that of `void`.
  by_cases hp : (ps.isEmpty && !variadic) = true
  · obtain ⟨rfl, rfl⟩ := hempty hp
    rw [if_pos hp] at h
    by_cases hq : (qs.isEmpty && !variadic') = true
    · obtain ⟨rfl, rfl⟩ := hempty hq
      rw [if_pos hq] at h
      exact ⟨.inl .nil, rfl, (List.cons.inj (List.cons.inj h).2).2⟩
    · rw [if_neg hq, List.append_assoc, hy] at h
      obtain ⟨rfl, hrest⟩ := void_cancel hqs isStop_close hstop' h
      rw [← hy] at hrest
      obtain ⟨hvariadic, hend⟩ := variadic_cancel false variadic' hrest
      exact ⟨.inr ⟨rfl, .inl rfl, .inr rfl⟩, hvariadic, hend⟩
  · rw [if_neg hp, List.append_assoc, hx] at h
    by_cases hq : (qs.isEmpty && !variadic') = true
    · obtain ⟨rfl, rfl⟩ := hempty hq
      rw [if_pos hq] at h
      obtain ⟨rfl, hrest⟩ := void_cancel hps isStop_close hstop h.symm
      rw [← hx] at hrest
      obtain ⟨hvariadic, hend⟩ := variadic_cancel false variadic hrest
      exact ⟨.inr ⟨hvariadic.symm, .inr rfl, .inl rfl⟩, hvariadic.symm, hend.symm⟩
    · rw [if_neg hq, List.append_assoc, hy] at h
      obtain ⟨halike, hrest⟩ := hcancel hstop hstop' h
      rw [← hx, ← hy] at hrest
      exact ⟨.inl halike, variadic_cancel variadic variadic' hrest⟩

mutual

/-- Where a type ends can be seen, and what is read is like it. -/
theorem tokens_cancel : ∀ (t u : TypeTree), (∀ s ∈ t.symbols, IsUnit (codes s)) →
    (∀ s ∈ u.symbols, IsUnit (codes s)) → ∀ {r r' : List Token}, ¬ StartsKey r →
    ¬ StartsKey r' → t.tokens codes ++ r = u.tokens codes ++ r' →
      t.Alike (SameCode codes) u ∧ r = r'
  | base (.primitive p q), u, _, hu, r, r', _, _, h => by
    obtain ⟨rfl, hrest⟩ := base_primitive_cancel hu h
    exact ⟨.primitive p q, hrest⟩
  | base (.symbol s q), u, ht, hu, r, r', hr, hr', h => by
    obtain ⟨hqualifiers, hsort⟩ := start_cancel ht hu h
    cases u with
    | base key =>
      cases key with
      | primitive p' q' => cases hsort
      | symbol s' q' =>
        obtain rfl : q = q' := hqualifiers
        rw [tokens, tokens, List.append_assoc, List.append_assoc] at h
        obtain ⟨hcodes, hrest⟩ := IsUnit.cancel (ht s (by simp [symbols, BaseKey.symbols]))
          (hu s' (by simp [symbols, BaseKey.symbols])) hr hr' (List.append_cancel_left h)
        exact ⟨.symbol hcodes q, hrest⟩
    | _ => cases hsort
  | pointer t q, u, ht, hu, r, r', hr, hr', h => by
    obtain ⟨hqualifiers, hsort⟩ := start_cancel ht hu h
    cases u with
    | pointer u q' =>
      obtain rfl : q = q' := hqualifiers
      rw [tokens, tokens, List.append_assoc, List.append_assoc] at h
      obtain ⟨halike, hrest⟩ := tokens_cancel t u ht hu hr hr'
        (List.cons.inj (List.append_cancel_left h)).2
      exact ⟨.pointer halike q, hrest⟩
    | base key => cases key <;> cases hsort
    | _ => cases hsort
  | lvalueReference t, u, ht, hu, r, r', hr, hr', h => by
    obtain ⟨_, hsort⟩ := start_cancel ht hu h
    cases u with
    | lvalueReference u =>
      obtain ⟨halike, hrest⟩ := tokens_cancel t u ht hu hr hr' (List.cons.inj h).2
      exact ⟨.lvalueReference halike, hrest⟩
    | base key => cases key <;> cases hsort
    | _ => cases hsort
  | rvalueReference t, u, ht, hu, r, r', hr, hr', h => by
    obtain ⟨_, hsort⟩ := start_cancel ht hu h
    cases u with
    | rvalueReference u =>
      obtain ⟨halike, hrest⟩ := tokens_cancel t u ht hu hr hr' (List.cons.inj h).2
      exact ⟨.rvalueReference halike, hrest⟩
    | base key => cases key <;> cases hsort
    | _ => cases hsort
  | array t n, u, ht, hu, r, r', hr, hr', h => by
    obtain ⟨_, hsort⟩ := start_cancel ht hu h
    cases u with
    | array u n' =>
      obtain ⟨hbound, hrest⟩ := List.cons.inj h
      obtain ⟨halike, hrest⟩ := tokens_cancel t u ht hu hr hr' hrest
      obtain rfl := Token.bound.inj hbound
      exact ⟨.array halike n, hrest⟩
    | base key => cases key <;> cases hsort
    | _ => cases hsort
  | function t ps variadic q, u, ht, hu, r, r', hr, hr', h => by
    obtain ⟨hqualifiers, hsort⟩ := start_cancel ht hu h
    cases u with
    | function u qs variadic' q' =>
      obtain rfl : q = q' := hqualifiers
      have hps := fun s hs => ht s (List.mem_append_right _ hs)
      have hqs := fun s hs => hu s (List.mem_append_right _ hs)
      rw [tokens, tokens] at h
      simp only [List.append_assoc, List.cons_append, List.nil_append] at h
      -- The returned type ends where the parameters start, which is not as a name goes on.
      obtain ⟨halike, hrest⟩ := tokens_cancel t u (fun s hs => ht s (List.mem_append_left _ hs))
        (fun s hs => hu s (List.mem_append_left _ hs)) (not_startsKey_parameterList hps variadic r)
        (not_startsKey_parameterList hqs variadic' r') (List.cons.inj (List.append_cancel_left h)).2
      obtain ⟨hparameters, hvariadic, hend⟩ := parameterList_cancel hps hqs
        (fun hx hy => tokensOfList_cancel ps qs hps hqs hx hy) hrest
      subst hvariadic
      rcases hparameters with halikes | ⟨rfl, hvoid, hvoid'⟩
      · exact ⟨.function halike halikes variadic q, hend⟩
      · exact ⟨.void halike hvoid hvoid' q, hend⟩
    | base key => cases key <;> cases hsort
    | _ => cases hsort
termination_by structural t => t

/-- Where a list of types ends can be seen, if what follows is no type. -/
theorem tokensOfList_cancel : ∀ (ts us : List TypeTree),
    (∀ s ∈ symbolsOfList ts, IsUnit (codes s)) → (∀ s ∈ symbolsOfList us, IsUnit (codes s)) →
    ∀ {x y : Token} {r r' : List Token},
    IsStop x → IsStop y → tokensOfList codes ts ++ x :: r = tokensOfList codes us ++ y :: r' →
      AlikeLists (SameCode codes) ts us ∧ x :: r = y :: r'
  | [], [], _, _, _, _, _, _, _, _, h => ⟨.nil, h⟩
  | [], u :: us, _, hus, x, y, r, r', hx, _, h => by
    rw [tokensOfList, tokensOfList, List.nil_append, List.append_assoc] at h
    exact absurd h (ne_tokens_append hx.not_start
      (fun s hs => hus s (List.mem_append_left _ hs)) r _)
  | t :: ts, [], hts, _, x, y, r, r', _, hy, h => by
    rw [tokensOfList, tokensOfList, List.nil_append, List.append_assoc] at h
    exact absurd h.symm (ne_tokens_append hy.not_start
      (fun s hs => hts s (List.mem_append_left _ hs)) r' _)
  | t :: ts, u :: us, hts, hus, x, y, r, r', hx, hy, h => by
    have hts' := fun s hs => hts s (List.mem_append_right _ hs)
    have hus' := fun s hs => hus s (List.mem_append_right _ hs)
    rw [tokensOfList, tokensOfList, List.append_assoc, List.append_assoc] at h
    obtain ⟨halike, hrest⟩ := tokens_cancel t u (fun s hs => hts s (List.mem_append_left _ hs))
      (fun s hs => hus s (List.mem_append_left _ hs)) (not_startsKey_tokensOfList hx hts' r)
      (not_startsKey_tokensOfList hy hus' r') h
    obtain ⟨halikes, hrest⟩ := tokensOfList_cancel ts us hts' hus' hx hy hrest
    exact ⟨.cons halike halikes, hrest⟩
termination_by structural ts => ts

end

/-! ### Signatures -/

theorem exists_isUnqualified_parameterList {ps : List TypeTree}
    (hps : ∀ s ∈ symbolsOfList ps, IsUnit (codes s)) (hparameters : AreParameters ps)
    (variadic : Bool) (r : List Token) :
    ∃ x xs, parameterListTokens ps.isEmpty (tokensOfList codes ps) variadic ++ letter 'E' :: r =
      x :: xs ∧ IsUnqualified x := by
  cases ps with
  | nil => cases variadic <;> exact ⟨_, _, rfl, by simp [IsUnqualified]⟩
  | cons p ps =>
    obtain ⟨x, xs, hx, hsort⟩ := tokens_eq_append p fun s hs => hps s (List.mem_append_left _ hs)
    have hnone : p.ownQualifiers = .none := by
      have hp := hparameters.1.1
      cases p with
      | base key => exact hp.1
      | pointer target q => exact hp
      | lvalueReference referee | rvalueReference referee => rfl
      | array element n | function result ps variadic q => exact hp.elim
    rw [hnone] at hx
    rw [parameterListTokens, tokensOfList, hx]
    exact ⟨x, _, rfl, isUnqualified_of_leadSort (hsort ▸ p.sort_lt)⟩

/-- What functions with one signature have in common. -/
theorem signature_cancel {ps qs : List TypeTree} (hps : ∀ s ∈ symbolsOfList ps, IsUnit (codes s))
    (hqs : ∀ s ∈ symbolsOfList qs, IsUnit (codes s)) (hparameters : AreParameters ps)
    (hparameters' : AreParameters qs) {variadic variadic' : Bool} {q q' : Qualifiers}
    (h : signatureTokens codes ps variadic q = signatureTokens codes qs variadic' q') :
    AlikeLists (SameCode codes) ps qs ∧ variadic = variadic' ∧ q = q' := by
  obtain ⟨x, xs, hx, hunqualified⟩ :=
    exists_isUnqualified_parameterList hps hparameters variadic []
  obtain ⟨y, ys, hy, hunqualified'⟩ :=
    exists_isUnqualified_parameterList hqs hparameters' variadic' []
  have hclosed := congrArg (· ++ [letter 'E']) h
  simp only [signatureTokens, List.append_assoc, hx, hy] at hclosed
  obtain ⟨hqualifiers, hrest⟩ := qualifiers_cancel hunqualified hunqualified' hclosed
  rw [← hx, ← hy] at hrest
  obtain ⟨hlists, hvariadic, _⟩ := parameterList_cancel hps hqs
    (fun hx hy => tokensOfList_cancel ps qs hps hqs hx hy) hrest
  refine ⟨hlists.elim id fun hvoid => ?_, hvariadic, hqualifiers⟩
  rw [hvoid.2.1.eq_nil hparameters, hvoid.2.2.eq_nil hparameters']
  exact .nil

end TemplateAnalysis.TypeTree
