import TemplateAnalysis.Qualifiers

/-!
# Keywords of a decl-specifier sequence

`KeywordSet` is the set of keywords seen before a declarator: qualifiers, type
specifiers, storage classes and function specifiers. `long` written twice counts
as the one keyword `longLong`. The set is a word with one bit per keyword, in
the order of `Keyword.all`.
-/

namespace TemplateAnalysis

/-- A keyword that may stand in a decl-specifier sequence. -/
inductive Keyword where
  | const | volatile
  | void | bool | char | wchar | char16 | char32
  | short | int | long | longLong | signed | unsigned | float | double
  | static | external | mutable | threadLocal
  | inline | virtual | explicit | constexpr | friend | typedef
deriving DecidableEq, Inhabited, Repr

namespace Keyword

/-- Every keyword, in the order in which sets list them. -/
def all : List Keyword :=
  [const, volatile, void, bool, char, wchar, char16, char32, short, int, long, longLong,
   signed, unsigned, float, double, static, external, mutable, threadLocal, inline, virtual,
   explicit, constexpr, friend, typedef]

def name : Keyword → String
  | const => "const"
  | volatile => "volatile"
  | void => "void"
  | bool => "bool"
  | char => "char"
  | wchar => "wchar"
  | char16 => "char16"
  | char32 => "char32"
  | short => "short"
  | int => "int"
  | long => "long"
  | longLong => "long_long"
  | signed => "signed"
  | unsigned => "unsigned"
  | float => "float"
  | double => "double"
  | static => "static"
  | external => "extern"
  | mutable => "mutable"
  | threadLocal => "thread_local"
  | inline => "inline"
  | virtual => "virtual"
  | explicit => "explicit"
  | constexpr => "constexpr"
  | friend => "friend"
  | typedef => "typedef"

def ofName? (text : String) : Option Keyword :=
  all.find? fun k => k.name == text

theorem mem_all (k : Keyword) : k ∈ all := by cases k <;> decide

end Keyword

structure KeywordSet where
  bits : BitVec 26
deriving DecidableEq, Inhabited, Repr

namespace KeywordSet

def empty : KeywordSet := ⟨0⟩

def singleton (k : Keyword) : KeywordSet := ⟨1#26 <<< k.ctorIdx⟩

def union (s t : KeywordSet) : KeywordSet := ⟨s.bits ||| t.bits⟩

def inter (s t : KeywordSet) : KeywordSet := ⟨s.bits &&& t.bits⟩

def diff (s t : KeywordSet) : KeywordSet := ⟨s.bits &&& ~~~t.bits⟩

def ofList (ks : List Keyword) : KeywordSet :=
  ks.foldr (fun k s => (singleton k).union s) empty

def contains (s : KeywordSet) (k : Keyword) : Bool := s.bits.getLsbD k.ctorIdx

def toList (s : KeywordSet) : List Keyword := Keyword.all.filter s.contains

def isEmpty (s : KeywordSet) : Bool := s.bits == 0

def typeSpecifiers : KeywordSet :=
  ofList [.void, .bool, .char, .wchar, .char16, .char32, .short, .int, .long, .longLong,
    .signed, .unsigned, .float, .double]

def qualifiers (s : KeywordSet) : Qualifiers := ⟨s.contains .const, s.contains .volatile⟩

def specifiesType (s : KeywordSet) : Bool := !(s.inter typeSpecifiers).isEmpty

@[simp] theorem contains_empty (k : Keyword) : empty.contains k = false := by
  simp [empty, contains]

@[simp] theorem contains_union (s t : KeywordSet) (k : Keyword) :
    (s.union t).contains k = (s.contains k || t.contains k) := by
  simp [union, contains]

@[simp] theorem contains_inter (s t : KeywordSet) (k : Keyword) :
    (s.inter t).contains k = (s.contains k && t.contains k) := by
  simp [inter, contains]

@[simp] theorem contains_diff (s t : KeywordSet) (k : Keyword) :
    (s.diff t).contains k = (s.contains k && !t.contains k) := by
  have h : k.ctorIdx < 26 := by cases k <;> decide
  simp [diff, contains, h]

/-- The set as messages print it: capital names joined by bars. -/
def text (s : KeywordSet) : String :=
  "DeclFlags(" ++ " | ".intercalate (s.toList.map (·.name.toUpper)) ++ ")"

end KeywordSet

end TemplateAnalysis
