/-!
# Source spans

A span is where a construct stands in a header: a line and a column, both
counted from one, and a length in bytes on that line. Line zero marks a
construct that was synthesized and stands nowhere.
-/

namespace TemplateAnalysis

/-- A place in a header. All three numbers are 32-bit words and wrap. -/
structure Span where
  line : UInt32
  column : UInt32
  length : UInt32
deriving DecidableEq, Inhabited, Repr

namespace Span

def synthesized : Span := ⟨0, 0, 0⟩

def point (line column : UInt32) : Span := ⟨line, column, 0⟩

/-- Line zero is no line of a header. -/
def isSynthesized (s : Span) : Bool := s.line == 0

/-- The span from the start of `s` to the end of `t`. When `t` stands on another
line or starts before `s`, there is no such span on one line and `s` is kept. -/
def through (s t : Span) : Span :=
  if s.line ≠ t.line ∨ t.column < s.column then s
  else { s with length := max (t.column + t.length) (s.column + s.length) - s.column }

def position (s : Span) : String :=
  s!"{s.line.toNat}:{s.column.toNat}"

def text (s : Span) : String :=
  if s.isSynthesized then "<synthesized>" else s.position

end Span

end TemplateAnalysis
