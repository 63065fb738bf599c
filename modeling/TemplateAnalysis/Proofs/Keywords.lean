import Mathlib.Data.List.Sublists
import Mathlib.Tactic.Common
import TemplateAnalysis.Primitive
import TemplateAnalysis.Proofs.Outcome

/-!
# Which keywords spell a fundamental type

The name of a fundamental type is made of words, which may stand in any order and among
keywords that specify no type. A type that is told by a size and a sign is also meant where
words are left out or added that say nothing more: `int`, the sign `signed`, and `long` beside
a `long long`. `KeywordSet.Spells` is this rule. It does not mention how
`Primitive.ofKeywords` goes about it, which accepts exactly the sets that spell a type.
-/

namespace TemplateAnalysis

/-! ### Sets of keywords -/

namespace Keyword

def isTypeSpecifier : Keyword → Bool
  | const | volatile | static | external | mutable | threadLocal | inline | virtual | explicit
  | constexpr | friend | typedef => false
  | _ => true

theorem exists_ctorIdx {i : Nat} (hi : i < 26) : ∃ k : Keyword, k.ctorIdx = i := by
  have hall : ∀ j : Fin 26, ∃ k ∈ all, k.ctorIdx = j := by decide
  obtain ⟨k, -, hk⟩ := hall ⟨i, hi⟩
  exact ⟨k, hk⟩

end Keyword

namespace KeywordSet

variable {s t : KeywordSet} {ks : List Keyword}

theorem ext_contains (h : ∀ k, s.contains k = t.contains k) : s = t := by
  obtain ⟨a⟩ := s
  obtain ⟨b⟩ := t
  rw [mk.injEq]
  refine BitVec.eq_of_getLsbD_eq fun i hi => ?_
  obtain ⟨k, rfl⟩ := Keyword.exists_ctorIdx hi
  exact h k

theorem contains_singleton (j k : Keyword) : (singleton j).contains k = decide (k = j) := by
  cases j <;> cases k <;> rfl

theorem contains_ofList (k : Keyword) : (ofList ks).contains k = decide (k ∈ ks) := by
  induction ks with
  | nil => simp [ofList]
  | cons j rest ih =>
    rw [ofList, List.foldr_cons, contains_union, contains_singleton]
    rw [ofList] at ih
    rw [ih]
    simp

theorem contains_typeSpecifiers (k : Keyword) : typeSpecifiers.contains k = k.isTypeSpecifier := by
  cases k <;> rfl

theorem inter_inter_self : (s.inter t).inter t = s.inter t :=
  ext_contains fun k => by simp

theorem isEmpty_iff : s.isEmpty = true ↔ ∀ k, s.contains k = false := by
  constructor
  · intro h k
    rw [isEmpty, beq_iff_eq] at h
    rw [contains, h]
    simp
  · intro h
    have hempty : s = empty := ext_contains fun k => (h k).trans (contains_empty k).symm
    rw [hempty]
    rfl

end KeywordSet

/-! ### Words -/

namespace Primitive

/-- The words that the name of a type is made of. -/
def words : Primitive → List Keyword
  | void => [.void]
  | bool => [.bool]
  | char => [.char]
  | signedChar => [.signed, .char]
  | unsignedChar => [.unsigned, .char]
  | wideChar => [.wchar]
  | char16 => [.char16]
  | char32 => [.char32]
  | short => [.short]
  | unsignedShort => [.unsigned, .short]
  | int => [.int]
  | unsignedInt => [.unsigned, .int]
  | long => [.long]
  | unsignedLong => [.unsigned, .long]
  | longLong => [.longLong]
  | unsignedLongLong => [.unsigned, .longLong]
  | float => [.float]
  | double => [.double]
  | longDouble => [.long, .double]

/-- Whether a type is told by a size and a sign. -/
def isSized : Primitive → Bool
  | short | unsignedShort | int | unsignedInt | long | unsignedLong | longLong
  | unsignedLongLong => true
  | _ => false

/-- Whether a word says nothing that the other words of a type do not say. -/
def isRedundant (p : Primitive) : Keyword → Bool
  | .int => p.isSized
  | .signed => p.isSized && decide (Keyword.unsigned ∉ p.words)
  | .long => decide (Keyword.longLong ∈ p.words)
  | _ => false

end Primitive

/-- Whether the type specifiers among some keywords are the words of a type, up to those that
are redundant. -/
structure KeywordSet.Spells (s : KeywordSet) (p : Primitive) : Prop where
  specifies : ∃ k, k.isTypeSpecifier = true ∧ s.contains k = true
  words : ∀ k, k.isTypeSpecifier = true → p.isRedundant k = false →
    (s.contains k = true ↔ k ∈ p.words)

namespace Primitive

variable {s t : KeywordSet} {p : Primitive}

/-! ### What is read -/

theorem ofKeywords_congr (h : s.inter .typeSpecifiers = t.inter .typeSpecifiers) :
    ofKeywords s = ofKeywords t := by
  rw [ofKeywords, ofKeywords, h]

def tellingWords (p : Primitive) : List Keyword := p.words.filter (!p.isRedundant ·)

theorem isTypeSpecifier_of_mem_words {k : Keyword} (h : k ∈ p.words) :
    k.isTypeSpecifier = true := by
  have hwords : ∀ p ∈ all, ∀ k ∈ p.words, k.isTypeSpecifier = true := by decide
  exact hwords p p.mem_all k h

theorem mem_of_isRedundant {k : Keyword} (h : p.isRedundant k = true) :
    k ∈ [Keyword.int, .signed, .long] := by
  cases k with
  | int | signed | long => decide
  | _ => cases h

theorem typeSpecifiers_of_spells (h : s.Spells p) : s.inter .typeSpecifiers =
    .ofList (p.tellingWords ++ [.int, .signed, .long].filter fun k =>
      p.isRedundant k && s.contains k) := by
  refine KeywordSet.ext_contains fun k => ?_
  rw [KeywordSet.contains_inter, KeywordSet.contains_typeSpecifiers, KeywordSet.contains_ofList,
    Bool.eq_iff_iff, decide_eq_true_eq, Bool.and_eq_true_iff, List.mem_append, tellingWords,
    List.mem_filter, List.mem_filter, Bool.and_eq_true_iff]
  cases hredundant : p.isRedundant k with
  | true =>
    have hmem := mem_of_isRedundant hredundant
    have hspecifier : k.isTypeSpecifier = true := by
      have hall : ∀ k ∈ [Keyword.int, .signed, .long], k.isTypeSpecifier = true := by decide
      exact hall k hmem
    simp [hmem, hspecifier]
  | false =>
    constructor
    · rintro ⟨hcontains, hspecifier⟩
      exact .inl ⟨(h.words k hspecifier hredundant).mp hcontains, rfl⟩
    · rintro (⟨hmem, -⟩ | ⟨-, hfalse, -⟩)
      · have hspecifier := isTypeSpecifier_of_mem_words hmem
        exact ⟨(h.words k hspecifier hredundant).mpr hmem, hspecifier⟩
      · cases hfalse

/-- What tells a type apart is read as the type, with any of the words that are redundant. -/
theorem ofKeywords_tellingWords : ∀ p ∈ all, ∀ more ∈ [Keyword.int, .signed, .long].sublists,
    (∀ k ∈ more, p.isRedundant k = true) → p.tellingWords ++ more ≠ [] →
      ofKeywords (.ofList (p.tellingWords ++ more)) = .ok p := by
  -- Three words are ever redundant, so there are eight cases for each type.
  decide +kernel

theorem ofKeywords_of_spells (h : s.Spells p) : ofKeywords s = .ok p := by
  have heq := typeSpecifiers_of_spells h
  set more := [Keyword.int, .signed, .long].filter fun k => p.isRedundant k && s.contains k
  have hmore : ∀ k ∈ more, p.isRedundant k = true := fun k hk =>
    (Bool.and_eq_true_iff.mp (List.mem_filter.mp hk).2).1
  have hne : p.tellingWords ++ more ≠ [] := by
    intro hnil
    obtain ⟨k, hspecifier, hk⟩ := h.specifies
    have hcontains := congrArg (·.contains k) heq
    simp [hnil, hspecifier, hk, KeywordSet.contains_typeSpecifiers,
      KeywordSet.contains_ofList] at hcontains
  have hread := ofKeywords_tellingWords p p.mem_all more
    (List.mem_sublists.mpr List.filter_sublist) hmore hne
  rw [← hread]
  refine ofKeywords_congr ?_
  rw [← heq, KeywordSet.inter_inter_self]

theorem spells_of_inter (h : (s.inter .typeSpecifiers).Spells p) : s.Spells p := by
  have hcontains : ∀ k, k.isTypeSpecifier = true →
      (s.inter .typeSpecifiers).contains k = s.contains k := fun k hk => by
    rw [KeywordSet.contains_inter, KeywordSet.contains_typeSpecifiers, hk, Bool.and_true]
  obtain ⟨k, hspecifier, hk⟩ := h.specifies
  refine ⟨⟨k, hspecifier, hcontains k hspecifier ▸ hk⟩, fun k hspecifier hredundant => ?_⟩
  rw [← hcontains k hspecifier]
  exact h.words k hspecifier hredundant

theorem spells_of_eq_words (h : t = .ofList p.words) : t.Spells p := by
  have hwords : ∀ p ∈ all, p.words ≠ [] := by decide
  obtain ⟨k, hk⟩ := List.exists_mem_of_ne_nil _ (hwords p p.mem_all)
  subst h
  refine ⟨⟨k, isTypeSpecifier_of_mem_words hk, ?_⟩, fun k _ _ => ?_⟩
  · rw [KeywordSet.contains_ofList, decide_eq_true hk]
  · rw [KeywordSet.contains_ofList, decide_eq_true_eq]

theorem eq_words_of_ofExactKeywords? (h : ofExactKeywords? t = some p) : t = .ofList p.words := by
  rw [ofExactKeywords?, List.lookup_eq_some_iff] at h
  obtain ⟨before, after, hlist, -⟩ := h
  have hmem : (t, p) ∈ before ++ (t, p) :: after := by simp
  rw [← hlist] at hmem
  simp only [List.mem_cons, Prod.mk.injEq, List.not_mem_nil, or_false] at hmem
  rcases hmem with ⟨rfl, rfl⟩ | ⟨rfl, rfl⟩ | ⟨rfl, rfl⟩ | ⟨rfl, rfl⟩ | ⟨rfl, rfl⟩ | ⟨rfl, rfl⟩ |
    ⟨rfl, rfl⟩ | ⟨rfl, rfl⟩ <;> rfl

theorem mem_words_ofCharKeywords {isSigned isUnsigned : Bool}
    (hsigns : ¬ (isSigned && isUnsigned) = true) (k : Keyword) :
    k ∈ (ofCharKeywords isSigned isUnsigned).words ↔
      k = .signed ∧ isSigned = true ∨ k = .unsigned ∧ isUnsigned = true ∨ k = .char := by
  cases isSigned <;> cases isUnsigned <;> simp_all [ofCharKeywords, words]

theorem eq_words_of_char (hsigns : ¬ (t.contains .signed && t.contains .unsigned) = true)
    (h : t.diff (.ofList [.signed, .unsigned]) = .singleton .char) :
    t = .ofList (ofCharKeywords (t.contains .signed) (t.contains .unsigned)).words := by
  refine KeywordSet.ext_contains fun k => ?_
  rw [KeywordSet.contains_ofList, Bool.eq_iff_iff, decide_eq_true_eq,
    mem_words_ofCharKeywords hsigns]
  rcases eq_or_ne k .signed with rfl | hsigned
  · simp
  rcases eq_or_ne k .unsigned with rfl | hunsigned
  · simp
  have hk := congrArg (·.contains k) h
  simp only [KeywordSet.contains_diff, KeywordSet.contains_ofList,
    KeywordSet.contains_singleton] at hk
  simp_all

/-- What a size and a sign are read as has the words of the size. -/
structure IsSizedBy (p : Primitive) (sizes : KeywordSet) (isUnsigned : Bool) : Prop where
  sized : p.isSized = true
  unsigned : isUnsigned = decide (Keyword.unsigned ∈ p.words)
  short : sizes.contains .short = decide (Keyword.short ∈ p.words)
  longLong : sizes.contains .longLong = decide (Keyword.longLong ∈ p.words)
  long : Keyword.longLong ∉ p.words → sizes.contains .long = decide (Keyword.long ∈ p.words)

theorem isSizedBy_of_ofSizeKeywords {isUnsigned : Bool}
    (h : ofSizeKeywords t isUnsigned = .ok p) : p.IsSizedBy t isUnsigned := by
  rw [ofSizeKeywords] at h
  by_cases hempty : t.isEmpty = true
  · rw [if_pos hempty] at h
    have hnone := KeywordSet.isEmpty_iff.mp hempty
    cases isUnsigned <;> cases h <;> exact ⟨rfl, rfl, hnone _, hnone _, fun _ => hnone _⟩
  rw [if_neg hempty] at h
  by_cases hshort : t = .singleton .short
  · rw [if_pos hshort] at h
    subst hshort
    cases isUnsigned <;> cases h <;> exact ⟨rfl, rfl, rfl, rfl, fun _ => rfl⟩
  rw [if_neg hshort] at h
  by_cases hlong : t = .singleton .long
  · rw [if_pos hlong] at h
    subst hlong
    cases isUnsigned <;> cases h <;> exact ⟨rfl, rfl, rfl, rfl, fun _ => rfl⟩
  rw [if_neg hlong] at h
  by_cases hlongLong : (t.contains .longLong && !t.contains .short) = true
  · rw [if_pos hlongLong] at h
    rw [Bool.and_eq_true_iff, Bool.not_eq_true'] at hlongLong
    cases isUnsigned <;> cases h <;>
      exact ⟨rfl, rfl, hlongLong.2, hlongLong.1, fun h => absurd (by decide) h⟩
  · rw [if_neg hlongLong] at h
    cases h

theorem IsSizedBy.of_inter {isUnsigned : Bool}
    (h : p.IsSizedBy (t.inter (.ofList [.short, .long, .longLong])) isUnsigned) :
    p.IsSizedBy t isUnsigned where
  sized := h.sized
  unsigned := h.unsigned
  short := by simpa [KeywordSet.contains_ofList] using h.short
  longLong := by simpa [KeywordSet.contains_ofList] using h.longLong
  long hlong := by simpa [KeywordSet.contains_ofList] using h.long hlong

def sizing : List Keyword := [.signed, .unsigned, .short, .long, .longLong, .int]

/-- A size and a sign spell the type that has both, if no other words stand beside them. -/
theorem IsSizedBy.spells (h : p.IsSizedBy t (t.contains .unsigned))
    (hne : ¬ t.isEmpty = true)
    (hsigns : t.contains .unsigned = true → t.contains .signed = false)
    (hrest : ∀ k, k ∉ sizing → t.contains k = false) : t.Spells p := by
  have hwords : ∀ p ∈ all, p.isSized = true →
      (∀ k ∈ p.words, k ∈ sizing) ∧ Keyword.signed ∉ p.words := by decide
  obtain ⟨hsizing, hsigned⟩ := hwords p p.mem_all h.sized
  refine ⟨?_, fun k _ hredundant => ?_⟩
  · rw [KeywordSet.isEmpty_iff, not_forall] at hne
    obtain ⟨k, hk⟩ := hne
    have hspecifiers : ∀ k ∈ sizing, k.isTypeSpecifier = true := by decide
    exact ⟨k, hspecifiers k (not_imp_comm.mp (hrest k) hk), eq_true_of_ne_false hk⟩
  by_cases hk : k ∈ sizing
  · simp only [sizing, List.mem_cons, List.not_mem_nil, or_false] at hk
    rcases hk with rfl | rfl | rfl | rfl | rfl | rfl
    · rw [isRedundant, h.sized, Bool.true_and, decide_eq_false_iff_not, not_not] at hredundant
      have hunsigned : t.contains .unsigned = true := h.unsigned.trans (decide_eq_true hredundant)
      simp [hsigns hunsigned, hsigned]
    · rw [h.unsigned, decide_eq_true_eq]
    · rw [h.short, decide_eq_true_eq]
    · rw [isRedundant, decide_eq_false_iff_not] at hredundant
      rw [h.long hredundant, decide_eq_true_eq]
    · rw [h.longLong, decide_eq_true_eq]
    · rw [isRedundant, h.sized] at hredundant
      cases hredundant
  · simp [hrest k hk, mt (hsizing k) hk]

theorem spells_of_ofKeywords (h : ofKeywords s = .ok p) : s.Spells p := by
  refine spells_of_inter ?_
  -- Three branches return a type: one that is looked up, one of characters, and one that is
  -- told by a size and a sign.
  rw [ofKeywords] at h
  generalize s.inter .typeSpecifiers = t at h ⊢
  by_cases hempty : t.isEmpty = true
  · rw [if_pos hempty] at h
    cases h
  rw [if_neg hempty] at h
  cases hexact : ofExactKeywords? t with
  | some q =>
    rw [hexact] at h
    cases h
    exact spells_of_eq_words (eq_words_of_ofExactKeywords? hexact)
  | none =>
    simp only [hexact] at h
    split_ifs at h with hsigns hchar hunsized hrest
    · cases h
      exact spells_of_eq_words (eq_words_of_char hsigns hunsized)
    · rw [KeywordSet.isEmpty_iff] at hrest
      refine (isSizedBy_of_ofSizeKeywords h).of_inter.spells hempty (fun hunsigned => ?_)
        fun k hk => ?_
      · simpa [hunsigned] using hsigns
      · have hcontains := hrest k
        simp only [sizing, List.mem_cons, List.not_mem_nil, or_false, not_or] at hk
        simpa [KeywordSet.contains_ofList, KeywordSet.contains_singleton, hk] using hcontains

/-- Exactly the sets of keywords that spell a fundamental type are read as one, and as the one
that they spell. -/
theorem ofKeywords_eq_ok_iff : ofKeywords s = .ok p ↔ s.Spells p :=
  ⟨spells_of_ofKeywords, ofKeywords_of_spells⟩

example : ofKeywords (.ofList [.int, .const, .long, .unsigned]) = .ok .unsignedLong := by decide

end Primitive

namespace KeywordSet

variable {s : KeywordSet} {p : Primitive}

instance (s : KeywordSet) (p : Primitive) : Decidable (s.Spells p) :=
  decidable_of_iff ((∃ k ∈ Keyword.all, k.isTypeSpecifier = true ∧ s.contains k = true) ∧
    ∀ k ∈ Keyword.all, k.isTypeSpecifier = true → p.isRedundant k = false →
      (s.contains k = true ↔ k ∈ p.words))
    ⟨fun h => ⟨h.1.imp fun _ hk => hk.2, fun k => h.2 k k.mem_all⟩,
      fun h => ⟨h.specifies.imp fun k hk => ⟨k.mem_all, hk⟩, fun k _ => h.words k⟩⟩

/-- The fundamental type that a set of keywords spells. -/
def spelled? (s : KeywordSet) : Option Primitive := Primitive.all.find? fun p => s.Spells p

theorem spells_of_spelled? (h : s.spelled? = some p) : s.Spells p := by
  rw [spelled?] at h
  simpa using List.find?_some h

theorem spelled?_eq_some_iff : s.spelled? = some p ↔ s.Spells p := by
  refine ⟨spells_of_spelled?, fun h => ?_⟩
  cases hq : s.spelled? with
  | none =>
    rw [spelled?, List.find?_eq_none] at hq
    simpa [h] using hq p p.mem_all
  | some q =>
    -- A set that spells two types would be read as both.
    have hsame := Primitive.ofKeywords_of_spells (spells_of_spelled? hq)
    rw [Primitive.ofKeywords_of_spells h] at hsame
    cases hsame
    rfl

theorem toOption_ofKeywords (s : KeywordSet) : (Primitive.ofKeywords s).toOption = s.spelled? := by
  refine Option.ext fun p => ?_
  rw [toOption_eq_some, Primitive.ofKeywords_eq_ok_iff, spelled?_eq_some_iff]

end KeywordSet

end TemplateAnalysis
