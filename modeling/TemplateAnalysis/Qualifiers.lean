/-!
# Qualifiers

The `const` and `volatile` qualification of a type. Qualifiers form a set of two
flags; adding qualifiers is union.
-/

namespace TemplateAnalysis

/-- Which of `const` and `volatile` qualify a type. -/
structure Qualifiers where
  isConst : Bool
  isVolatile : Bool
deriving DecidableEq, Inhabited, Repr

namespace Qualifiers

def none : Qualifiers := ⟨false, false⟩

def union (a b : Qualifiers) : Qualifiers :=
  ⟨a.isConst || b.isConst, a.isVolatile || b.isVolatile⟩

def isNone (q : Qualifiers) : Bool := !q.isConst && !q.isVolatile

@[simp] theorem isNone_iff (q : Qualifiers) : q.isNone = true ↔ q = none := by
  rcases q with ⟨_ | _, _ | _⟩ <;> decide

@[simp] theorem union_none (q : Qualifiers) : q.union none = q := by
  simp [union, none]

@[simp] theorem union_self (q : Qualifiers) : q.union q = q := by
  simp [union]

theorem union_comm (q r : Qualifiers) : q.union r = r.union q := by
  simp [union, Bool.or_comm]

theorem union_assoc (q r s : Qualifiers) : (q.union r).union s = q.union (r.union s) := by
  simp [union, Bool.or_assoc]

/-- The encoding in internal names: `V` stands before `K`. -/
def encoding (q : Qualifiers) : String :=
  (if q.isVolatile then "V" else "") ++ (if q.isConst then "K" else "")

/-- The spelling in source: `const` stands before `volatile`. -/
def spelling : Qualifiers → String
  | ⟨true, true⟩ => "const volatile"
  | ⟨true, false⟩ => "const"
  | ⟨false, true⟩ => "volatile"
  | ⟨false, false⟩ => ""

end Qualifiers

end TemplateAnalysis
