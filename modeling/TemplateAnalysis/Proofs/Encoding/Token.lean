import TemplateAnalysis.Fingerprint
import TemplateAnalysis.Template.Key
import TemplateAnalysis.TypeGraph.Spelling

/-!
# Tokens of internal names

An internal name is a sequence of tokens: letters, sized names, array bounds and
constants. The first character of a token tells its sort, and each sort ends where it
can be seen to end, so that the tokens can be read off the text.
-/

namespace TemplateAnalysis

/-! ### Digits -/

/-- Where a run of characters of one sort ends can be seen. -/
theorem append_cancel_of_takeWhile {p : Char → Bool} {xs ys r r' : List Char}
    (hxs : ∀ c ∈ xs, p c = true) (hys : ∀ c ∈ ys, p c = true)
    (hr : ∀ c ∈ r.head?, p c = false) (hr' : ∀ c ∈ r'.head?, p c = false)
    (h : xs ++ r = ys ++ r') : xs = ys ∧ r = r' := by
  have htake : ∀ {zs t : List Char}, (∀ c ∈ zs, p c = true) → (∀ c ∈ t.head?, p c = false) →
      (zs ++ t).takeWhile p = zs := by
    intro zs t hzs ht
    rw [List.takeWhile_append_of_pos hzs]
    cases t with
    | nil => simp
    | cons c t => simp [ht c rfl]
  have heq : xs = ys := by rw [← htake hxs hr, h, htake hys hr']
  subst heq
  exact ⟨rfl, List.append_cancel_left h⟩

theorem toDigits_ten_injective {m n : Nat} (h : Nat.toDigits 10 m = Nat.toDigits 10 n) : m = n := by
  rw [← Nat.ofDigitChars_ten_toDigits (n := m), h, Nat.ofDigitChars_ten_toDigits]

theorem isDigit_of_mem_toDigits {n : Nat} : ∀ c ∈ Nat.toDigits 10 n, c.isDigit = true :=
  fun _ h => Nat.isDigit_of_mem_toDigits (by decide) (by decide) h

theorem toDigits_cancel {m n : Nat} {r r' : List Char} (hr : ∀ c ∈ r.head?, c.isDigit = false)
    (hr' : ∀ c ∈ r'.head?, c.isDigit = false)
    (h : Nat.toDigits 10 m ++ r = Nat.toDigits 10 n ++ r') : m = n ∧ r = r' := by
  obtain ⟨hdigits, hrest⟩ :=
    append_cancel_of_takeWhile isDigit_of_mem_toDigits isDigit_of_mem_toDigits hr hr' h
  exact ⟨toDigits_ten_injective hdigits, hrest⟩

theorem mem_toDigits_sixteen {n : Nat} :
    ∀ c ∈ Nat.toDigits 16 n, ∃ d < 16, c = Nat.digitChar d := by
  induction n using Nat.base_induction 16 (by decide) with
  | single m hm =>
    intro c hc
    rw [Nat.toDigits_of_lt_base hm, List.mem_singleton] at hc
    exact ⟨m, hm, hc⟩
  | digit m k hk hm ih =>
    intro c hc
    rw [← Nat.toDigits_append_toDigits (by decide) hm hk, Nat.toDigits_of_lt_base hk,
      List.mem_append, List.mem_singleton] at hc
    exact hc.elim (ih c) fun h => ⟨k, hk, h⟩

def hexDigitValue (c : Char) : Nat := "0123456789abcdef".toList.idxOf c

def hexValue (init : Nat) (digits : List Char) : Nat :=
  digits.foldl (fun n c => 16 * n + hexDigitValue c) init

theorem hexDigitValue_digitChar : ∀ d < 16, hexDigitValue (Nat.digitChar d) = d := by decide

theorem hexValue_append (init : Nat) (xs ys : List Char) :
    hexValue init (xs ++ ys) = hexValue (hexValue init xs) ys := List.foldl_append

theorem hexValue_toDigits (n : Nat) : hexValue 0 (Nat.toDigits 16 n) = n := by
  induction n using Nat.base_induction 16 (by decide) with
  | single m hm => simp [hexValue, Nat.toDigits_of_lt_base hm, hexDigitValue_digitChar m hm]
  | digit m k hk hm ih =>
    rw [← Nat.toDigits_append_toDigits (by decide) hm hk, Nat.toDigits_of_lt_base hk,
      hexValue_append, ih]
    simp [hexValue, hexDigitValue_digitChar k hk]

theorem hexValue_zeros (n : Nat) : hexValue 0 (List.replicate n '0') = 0 := by
  induction n with
  | zero => rfl
  | succ n ih =>
    rw [List.replicate_succ]
    exact ih

theorem hexadecimal_word_injective {v w : UInt64} (h : Hexadecimal.word v = Hexadecimal.word w) :
    v = w := by
  have hvalue : ∀ w : UInt64, hexValue 0 (Hexadecimal.word w).toList = w.toNat := by
    intro w
    rw [Hexadecimal.word, String.toList_ofList, hexValue_append, hexValue_zeros, hexValue_toDigits]
  exact UInt64.toNat_inj.mp (by rw [← hvalue v, h, hvalue w])

/-! ### Constants -/

namespace Constant

/-- What stands between `L` and `E` in the encoding of a constant. -/
def body : Constant → List Char
  | int v => 'i' :: (if v.toInt < 0 then ['n'] else []) ++ Nat.toDigits 10 v.toInt.natAbs
  | uint v => 'j' :: Nat.toDigits 10 v.toNat
  | bool b => ['b', if b then '1' else '0']
  | float v => 'd' :: v.hex.toList

theorem toList_encoding (c : Constant) : c.encoding.toList = 'L' :: (c.body ++ ['E']) := by
  cases c with
  | int v =>
    rw [encoding]
    by_cases h : v.toInt < 0 <;> simp [body, h]
  | uint v => simp [encoding, body]
  | bool b => cases b <;> simp [encoding, body]
  | float v => simp [encoding, body]

/-- The encoding of a constant ends with its first `E`. -/
theorem not_mem_body (c : Constant) : 'E' ∉ c.body := by
  have hdecimal : ∀ n, 'E' ∉ Nat.toDigits 10 n := fun n h => by
    have hdigit := isDigit_of_mem_toDigits 'E' h
    revert hdigit
    decide
  have hhexadecimal : ∀ n, 'E' ∉ Nat.toDigits 16 n := fun n h => by
    obtain ⟨d, hd, heq⟩ := mem_toDigits_sixteen 'E' h
    revert heq
    revert d
    decide
  cases c with
  | int v =>
    rw [body]
    split <;> simp [hdecimal]
  | uint v => simp [body, hdecimal]
  | bool b => cases b <;> simp [body]
  | float v => simp [body, Binary64.hex, Hexadecimal.word, hhexadecimal]

theorem body_injective {c d : Constant} (h : c.body = d.body) : c = d := by
  have hsign : ∀ {n m : Nat}, 'n' :: Nat.toDigits 10 n ≠ Nat.toDigits 10 m := fun {n m} h => by
    have hdigit := isDigit_of_mem_toDigits (n := m) 'n' (h ▸ List.mem_cons_self)
    revert hdigit
    decide
  cases c with
  | int v =>
    cases d with
    | int w =>
      have hword : v.toInt = w.toInt := by
        simp only [body, List.cons_append, List.cons.injEq, true_and] at h
        by_cases hv : v.toInt < 0 <;> by_cases hw : w.toInt < 0 <;>
          simp only [hv, hw, if_true, if_false, List.cons_append, List.nil_append] at h
        · have habs := toDigits_ten_injective (List.cons.inj h).2
          omega
        · exact absurd h hsign
        · exact absurd h.symm hsign
        · have habs := toDigits_ten_injective h
          omega
      rw [Int64.toInt.inj hword]
    | _ => simp [body] at h
  | uint v =>
    cases d with
    | uint w =>
      have hword := toDigits_ten_injective (List.cons.inj h).2
      rw [UInt64.toNat_inj.mp hword]
    | _ => simp [body] at h
  | bool b =>
    cases d with
    | bool b' =>
      cases b <;> cases b' <;> simp [body] at h ⊢
    | _ => simp [body] at h
  | float v =>
    cases d with
    | float w =>
      have hbits := hexadecimal_word_injective (String.toList_inj.mp (List.cons.inj h).2)
      rw [show v = w from congrArg Binary64.mk hbits]
    | _ => simp [body] at h

theorem encoding_cancel {c d : Constant} {r r' : List Char}
    (h : c.encoding.toList ++ r = d.encoding.toList ++ r') : c = d ∧ r = r' := by
  have hend : ∀ {c : Constant}, ∀ x ∈ c.body, (x != 'E') = true := fun x hx => by
    rw [bne_iff_ne]
    rintro rfl
    exact not_mem_body _ hx
  rw [toList_encoding, toList_encoding] at h
  simp only [List.cons_append, List.append_assoc, List.cons.injEq, true_and, List.nil_append] at h
  obtain ⟨hbody, hrest⟩ := append_cancel_of_takeWhile hend hend (by simp) (by simp) h
  exact ⟨body_injective hbody, (List.cons.inj hrest).2⟩

end Constant

/-! ### Tokens -/

/-- Whether a name may be that of a declaration: it has a first character, which is no
digit. -/
def IsIdentifier (name : String) : Prop :=
  ∃ c rest, name.toList = c :: rest ∧ c.isDigit = false

inductive Token where
  | letter (c : Char)
  | name (name : String)
  | bound (n : Option UInt64)
  | constant (c : Constant)

namespace Token

def spelling : Token → List Char
  | letter c => [c]
  | name n => (sourceName n).toList
  | bound n => (arrayBoundEncoding n).toList
  | constant c => c.encoding.toList

/-- Whether the sort of a token can be told by its first character. -/
def IsSound : Token → Prop
  | letter c => c.isDigit = false ∧ c ≠ 'A' ∧ c ≠ 'L'
  | name n => IsIdentifier n
  | bound _ | constant _ => True

theorem spelling_name (n : String) :
    (name n).spelling = Nat.toDigits 10 n.utf8ByteSize ++ n.toList := by
  simp [spelling, sourceName]

theorem spelling_bound (n : Option UInt64) :
    (bound n).spelling = 'A' :: ((n.map (Nat.toDigits 10 ·.toNat)).getD [] ++ ['_']) := by
  cases n <;> simp [spelling, arrayBoundEncoding]

end Token

/-- Two names of one size that start the same text are the same. -/
theorem name_cancel {v w : String} {r r' : List Char} (hsize : v.utf8ByteSize = w.utf8ByteSize)
    (h : v.toList ++ r = w.toList ++ r') : v = w ∧ r = r' := by
  have hshort : ∀ {v w : String} {x : List Char}, v.utf8ByteSize = w.utf8ByteSize →
      w.toList = v.toList ++ x → v = w := by
    intro v w x hsize h
    have hw : w = v ++ String.ofList x := String.toList_injective (by simp [h])
    have hx : (String.ofList x).utf8ByteSize = 0 := by
      rw [hw, String.utf8ByteSize_append] at hsize
      omega
    rw [hw, String.utf8ByteSize_eq_zero_iff.mp hx, String.append_empty]
  have heq : v = w := by
    rcases List.append_eq_append_iff.mp h with ⟨x, hw, _⟩ | ⟨x, hv, _⟩
    · exact hshort hsize hw
    · exact (hshort hsize.symm hv).symm
  subst heq
  exact ⟨rfl, List.append_cancel_left h⟩

namespace Token

def sortOf (c : Char) : Nat :=
  if c.isDigit then 1 else if c = 'A' then 2 else if c = 'L' then 3 else 0

def sort : Token → Nat
  | letter _ => 0
  | name _ => 1
  | bound _ => 2
  | constant _ => 3

/-- The first character of a token tells its sort. -/
theorem spelling_eq_cons {t : Token} (h : t.IsSound) :
    ∃ c rest, t.spelling = c :: rest ∧ sortOf c = t.sort := by
  cases t with
  | letter c => exact ⟨c, [], rfl, by simp [sortOf, sort, h.1, h.2.1, h.2.2]⟩
  | name n =>
    cases hdigits : Nat.toDigits 10 n.utf8ByteSize with
    | nil => exact absurd hdigits Nat.toDigits_ne_nil
    | cons c rest =>
      have hdigit := isDigit_of_mem_toDigits (n := n.utf8ByteSize) c (hdigits ▸ List.mem_cons_self)
      exact ⟨c, rest ++ n.toList, by simp [spelling_name, hdigits], by simp [sortOf, sort, hdigit]⟩
  | bound n => exact ⟨'A', _, spelling_bound n, rfl⟩
  | constant c => exact ⟨'L', _, c.toList_encoding, rfl⟩

/-- Where a token ends can be seen. -/
theorem spelling_cancel {t u : Token} (ht : t.IsSound) (hu : u.IsSound) {r r' : List Char}
    (h : t.spelling ++ r = u.spelling ++ r') : t = u ∧ r = r' := by
  have hsort : t.sort = u.sort := by
    obtain ⟨c, rest, hspelling, hc⟩ := spelling_eq_cons ht
    obtain ⟨d, rest', hspelling', hd⟩ := spelling_eq_cons hu
    rw [hspelling, hspelling'] at h
    rw [← hc, ← hd, (List.cons.inj h).1]
  cases t with
  | letter c =>
    cases u with
    | letter d =>
      obtain ⟨rfl, hrest⟩ := List.cons.inj h
      exact ⟨rfl, hrest⟩
    | _ => cases hsort
  | name v =>
    cases u with
    | name w =>
      have hstart : ∀ {w : String} {r : List Char}, IsIdentifier w →
          ∀ c ∈ (w.toList ++ r).head?, c.isDigit = false := by
        rintro w r ⟨c, rest, hw, hc⟩ x hx
        rw [hw] at hx
        cases hx
        exact hc
      rw [spelling_name, spelling_name, List.append_assoc, List.append_assoc] at h
      obtain ⟨hsize, hnames⟩ := toDigits_cancel (hstart ht) (hstart hu) h
      obtain ⟨rfl, hrest⟩ := name_cancel hsize hnames
      exact ⟨rfl, hrest⟩
    | _ => cases hsort
  | bound m =>
    cases u with
    | bound n =>
      rw [spelling_bound, spelling_bound] at h
      simp only [List.cons_append, List.append_assoc, List.cons.injEq, true_and,
        List.nil_append] at h
      have hdigits : ∀ n : Option UInt64,
          ∀ c ∈ (n.map (Nat.toDigits 10 ·.toNat)).getD [], c.isDigit = true := by
        intro n c hc
        cases n with
        | none => cases hc
        | some n => exact isDigit_of_mem_toDigits c hc
      obtain ⟨hbounds, hrest⟩ := append_cancel_of_takeWhile (hdigits m) (hdigits n)
        (by simp) (by simp) h
      refine ⟨?_, (List.cons.inj hrest).2⟩
      -- A bound that is left out has no digits, and every number has one.
      cases m with
      | none =>
        cases n with
        | none => rfl
        | some n => exact absurd hbounds.symm Nat.toDigits_ne_nil
      | some m =>
        cases n with
        | none => exact absurd hbounds Nat.toDigits_ne_nil
        | some n => rw [UInt64.toNat_inj.mp (toDigits_ten_injective hbounds)]
    | _ => cases hsort
  | constant c =>
    cases u with
    | constant d =>
      obtain ⟨rfl, hrest⟩ := Constant.encoding_cancel h
      exact ⟨rfl, hrest⟩
    | _ => cases hsort

end Token

def spell (ts : List Token) : List Char := ts.flatMap Token.spelling

@[simp] theorem spell_nil : spell [] = [] := rfl

@[simp] theorem spell_cons (t : Token) (ts : List Token) :
    spell (t :: ts) = t.spelling ++ spell ts := rfl

@[simp] theorem spell_append (ts us : List Token) : spell (ts ++ us) = spell ts ++ spell us :=
  List.flatMap_append

/-- Tokens can be read off their text. -/
theorem spell_injective {ts us : List Token} (hts : ∀ t ∈ ts, t.IsSound)
    (hus : ∀ u ∈ us, u.IsSound) (h : spell ts = spell us) : ts = us := by
  have hnil : ∀ {t : Token} {ts : List Token}, t.IsSound → spell (t :: ts) ≠ [] := by
    intro t ts ht hspell
    obtain ⟨c, rest, hspelling, _⟩ := Token.spelling_eq_cons ht
    rw [spell_cons, hspelling] at hspell
    cases hspell
  induction ts generalizing us with
  | nil =>
    cases us with
    | nil => rfl
    | cons u us => exact absurd h.symm (hnil (hus u List.mem_cons_self))
  | cons t ts ih =>
    cases us with
    | nil => exact absurd h (hnil (hts t List.mem_cons_self))
    | cons u us =>
      obtain ⟨rfl, hrest⟩ := Token.spelling_cancel (hts t List.mem_cons_self)
        (hus u List.mem_cons_self) h
      rw [ih (fun x hx => hts x (List.mem_cons_of_mem _ hx))
        (fun x hx => hus x (List.mem_cons_of_mem _ hx)) hrest]

end TemplateAnalysis
