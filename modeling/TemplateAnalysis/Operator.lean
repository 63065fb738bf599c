/-!
# Operators of expressions
-/

namespace TemplateAnalysis

inductive UnaryOp where
  | plus | minus | not | complement
deriving DecidableEq, Inhabited, Repr

inductive BinaryOp where
  | add | sub | mul | div | rem
  | shiftLeft | shiftRight | bitAnd | bitOr | bitXor
  | and | or
  | eq | ne | lt | le | gt | ge
deriving DecidableEq, Inhabited, Repr

namespace UnaryOp

def all : List UnaryOp := [plus, minus, not, complement]

def text : UnaryOp → String
  | plus => "+"
  | minus => "-"
  | not => "!"
  | complement => "~"

def ofText? (text : String) : Option UnaryOp := all.find? fun op => op.text == text

end UnaryOp

namespace BinaryOp

def all : List BinaryOp :=
  [add, sub, mul, div, rem, shiftLeft, shiftRight, bitAnd, bitOr, bitXor, and, or,
   eq, ne, lt, le, gt, ge]

def text : BinaryOp → String
  | add => "+"
  | sub => "-"
  | mul => "*"
  | div => "/"
  | rem => "%"
  | shiftLeft => "<<"
  | shiftRight => ">>"
  | bitAnd => "&"
  | bitOr => "|"
  | bitXor => "^"
  | and => "&&"
  | or => "||"
  | eq => "=="
  | ne => "!="
  | lt => "<"
  | le => "<="
  | gt => ">"
  | ge => ">="

def ofText? (text : String) : Option BinaryOp := all.find? fun op => op.text == text

def isComparison : BinaryOp → Bool
  | eq | ne | lt | le | gt | ge => true
  | _ => false

/-- Logical operators may leave their right operand unevaluated. -/
def isLogical : BinaryOp → Bool
  | and | or => true
  | _ => false

end BinaryOp

end TemplateAnalysis
