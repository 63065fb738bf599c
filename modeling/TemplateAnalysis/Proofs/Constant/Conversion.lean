import Mathlib.Data.List.Forall2
import TemplateAnalysis.Constant.Conversion
import TemplateAnalysis.Proofs.Outcome
import TemplateAnalysis.Symbol.Basic
import TemplateAnalysis.TypeGraph.Basic

/-!
# Constants of a type

What a constant is converted to is a value of the type: it has the sort of the type, lies
in its range, and converting it again changes nothing.
-/

namespace TemplateAnalysis

theorem toInt_of_signedWord? {n : Int} {w : Int64} (h : signedWord? n = some w) : w.toInt = n := by
  unfold signedWord? at h
  split at h
  · rename_i hrange
    cases h
    exact Int64.toInt_ofInt_of_le hrange.1 (Int.lt_add_one_of_le hrange.2)
  · cases h

theorem toNat_of_unsignedWord? {n : Int} {w : UInt64} (h : unsignedWord? n = some w) :
    (w.toNat : Int) = n := by
  unfold unsignedWord? at h
  split at h
  · rename_i hrange
    cases h
    rw [UInt64.toNat_ofNat_of_lt' (by omega)]
    omega
  · cases h

namespace Constant

def InRange (type : Primitive) (n : Int) : Prop :=
  ∃ least greatest, type.range? = some (least, greatest) ∧ least ≤ n ∧ n ≤ greatest

/-- Whether a constant has the sort of a type, and if it is an integer lies in its range. -/
def Inhabits (type : Primitive) : Constant → Prop
  | bool _ => type = .bool
  | float _ => type.isIntegral = false ∧ type ≠ .void
  | int v => type.isUnsigned = false ∧ InRange type v.toInt
  | uint v => type.isUnsigned = true ∧ type ≠ .bool ∧ InRange type v.toNat

/-- Whether a constant is a value of a type, if there is one: converting it changes nothing. -/
def IsOf (type? : Option Primitive) (c : Constant) : Prop :=
  ∀ type, type? = some type → c.convert type = .ok c

theorem isOf_none (c : Constant) : c.IsOf none := fun _ h => by cases h

variable {c v : Constant} {type : Primitive}

theorem ofInteger?_eq_some {n : Int} (h : ofInteger? type n = some v) :
    v.integer? = some n ∧ InRange type n ∧
      if type.isUnsigned then ∃ w, v = uint w else ∃ w, v = int w := by
  unfold ofInteger? at h
  split at h
  · cases h
  · rename_i least greatest hrange
    split at h
    · rename_i hn
      have hin : InRange type n := ⟨least, greatest, hrange, hn⟩
      split at h
      · rename_i hunsigned
        obtain ⟨w, hw, rfl⟩ := Option.map_eq_some_iff.mp h
        exact ⟨congrArg some (toNat_of_unsignedWord? hw), hin, by simp [hunsigned]⟩
      · rename_i hsigned
        obtain ⟨w, hw, rfl⟩ := Option.map_eq_some_iff.mp h
        exact ⟨congrArg some (toInt_of_signedWord? hw), hin, by simp [hsigned]⟩
    · cases h

/-- What an integral type but `bool` takes of a constant is its integer. -/
theorem convert_of_isIntegral (htype : type.isIntegral = true) (hbool : type ≠ .bool) :
    c.convert type = .ok v ↔ ∃ n, c.integer? = some n ∧ ofInteger? type n = some v := by
  cases hc : c.integer? with
  | none =>
    have hconvert : c.convert type = .error (.constant (.notIntegral c)) := by
      cases type <;>
        first | exact absurd rfl hbool | exact absurd htype (by decide) | simp only [convert, hc]
    simp [hconvert]
  | some n =>
    have hconvert : c.convert type =
        (ofInteger? type n).elim (.error (.constant (.outOfRange c type))) .ok := by
      cases hn : ofInteger? type n <;> cases type <;>
        first
        | exact absurd rfl hbool
        | exact absurd htype (by decide)
        | simp only [convert, hc, hn, Option.elim]
    rw [hconvert]
    cases hn : ofInteger? type n <;> simp [hn]

theorem convert_of_not_isIntegral (htype : type.isIntegral = false) (hvoid : type ≠ .void) :
    c.convert type = .ok (float c.toBinary64) := by
  cases type <;> first | rfl | exact absurd rfl hvoid | cases htype

/-- What a conversion returns, for each sort of type. -/
theorem convert_cases (h : c.convert type = .ok v) :
    (type = .bool ∧ ∃ b, v = bool b) ∨
    (type.isIntegral = false ∧ type ≠ .void ∧ ∃ x, v = float x) ∨
    (type.isIntegral = true ∧ type ≠ .bool ∧ ∃ n, v.integer? = some n ∧
      ofInteger? type n = some v) := by
  by_cases hbool : type = .bool
  · subst hbool
    cases h
    exact .inl ⟨rfl, _, rfl⟩
  · cases htype : type.isIntegral with
    | true =>
      obtain ⟨n, _, hn⟩ := (convert_of_isIntegral htype hbool).mp h
      exact .inr (.inr ⟨rfl, hbool, n, (ofInteger?_eq_some hn).1, hn⟩)
    | false =>
      have hvoid : type ≠ .void := by
        rintro rfl
        cases h
      rw [convert_of_not_isIntegral htype hvoid] at h
      cases h
      exact .inr (.inl ⟨rfl, hvoid, _, rfl⟩)

/-- What was converted to a type converts to itself. -/
theorem convert_convert (h : c.convert type = .ok v) : v.convert type = .ok v := by
  rcases convert_cases h with ⟨rfl, b, rfl⟩ | ⟨htype, hvoid, x, rfl⟩ | ⟨htype, hbool, hn⟩
  · rfl
  · exact convert_of_not_isIntegral htype hvoid
  · exact (convert_of_isIntegral htype hbool).mpr hn

theorem isOf_of_convert (h : c.convert type = .ok v) : v.IsOf (some type) := fun other hother => by
  cases hother
  exact convert_convert h

theorem inhabits_of_convert (h : c.convert type = .ok c) : c.Inhabits type := by
  rcases convert_cases h with ⟨rfl, b, rfl⟩ | ⟨htype, hvoid, x, rfl⟩ | ⟨htype, hbool, n, hc, hn⟩
  · rfl
  · exact ⟨htype, hvoid⟩
  · obtain ⟨_, hrange, hsort⟩ := ofInteger?_eq_some hn
    split at hsort
    · rename_i hunsigned
      obtain ⟨w, rfl⟩ := hsort
      cases hc
      exact ⟨hunsigned, hbool, hrange⟩
    · rename_i hsigned
      obtain ⟨w, rfl⟩ := hsort
      cases hc
      exact ⟨Bool.eq_false_iff.mpr hsigned, hrange⟩

end Constant

def TemplateArgument.HasType (type? : Option Primitive) : TemplateArgument → Prop
  | type _ _ => True
  | value c => c.IsOf type?
  | pack _ elements => ∀ c, value c ∈ elements → c.IsOf type?

abbrev ParameterList.Receive (ps : ParameterList) (args : Arguments) : Prop :=
  List.Forall₂ (fun p (x : TemplateArgument) => x.HasType p.valueType) ps args

/-- Whether the type of an object is not that of a function, and the value recorded for the
object is of the type, where that is fundamental. -/
def Entity.IsTyped (g : TypeGraph) : Entity → Prop
  | object data => g.isFunction data.type = false ∧
      ∀ c, data.value = some c → c.IsOf (g.primitive? data.type)
  | _ => True

end TemplateAnalysis
