import TemplateAnalysis.Keyword

/-!
# Fundamental types

`Primitive.ofKeywords` reads a set of decl-specifier keywords as a fundamental
type: the order and repetition of keywords do not matter, `signed int`, `signed`
and `int` are one type, and a set that forms no type is refused with the reason.
Widths are those of a target with 64-bit `long`.
-/

namespace TemplateAnalysis

inductive Primitive where
  | void | bool
  | char | signedChar | unsignedChar | wideChar | char16 | char32
  | short | unsignedShort | int | unsignedInt | long | unsignedLong
  | longLong | unsignedLongLong
  | float | double | longDouble
deriving DecidableEq, Inhabited, Repr

inductive KeywordFault where
  /-- No keyword of the set specifies a type. -/
  | missing
  /-- Both signs are specified. -/
  | bothSigns
  /-- `char` stands beside a keyword that is not a sign. -/
  | withChar (keywords : KeywordSet)
  /-- The type specifiers of the set do not go together. -/
  | combination (keywords : KeywordSet)
  /-- The sizes of the set exclude each other. -/
  | sizes (keywords : KeywordSet)
deriving DecidableEq, Repr

def KeywordFault.text : KeywordFault → String
  | missing => "missing type specifier"
  | bothSigns => "both 'signed' and 'unsigned' specified"
  | withChar ks => "invalid combination with 'char': " ++ ks.text
  | combination ks => "invalid combination of type specifiers: " ++ ks.text
  | sizes ks => "conflicting size specifiers: " ++ ks.text

namespace Primitive

def all : List Primitive :=
  [void, bool, char, signedChar, unsignedChar, wideChar, char16, char32, short, unsignedShort,
   int, unsignedInt, long, unsignedLong, longLong, unsignedLongLong, float, double, longDouble]

/-- The types that exactly one set of type specifiers names. -/
def ofExactKeywords? (specifiers : KeywordSet) : Option Primitive :=
  [(KeywordSet.ofList [.void], void), (.ofList [.bool], bool), (.ofList [.float], float),
   (.ofList [.double], double), (.ofList [.long, .double], longDouble),
   (.ofList [.wchar], wideChar), (.ofList [.char16], char16), (.ofList [.char32], char32)].lookup
     specifiers

/-- The character type of a sign; without a sign it is a type of its own. -/
def ofCharKeywords (isSigned isUnsigned : Bool) : Primitive :=
  if isSigned then signedChar else if isUnsigned then unsignedChar else char

def ofSizeKeywords (sizes : KeywordSet) (isUnsigned : Bool) : Except KeywordFault Primitive :=
  if sizes.isEmpty then .ok (if isUnsigned then unsignedInt else int)
  else if sizes = .singleton .short then .ok (if isUnsigned then unsignedShort else short)
  else if sizes = .singleton .long then .ok (if isUnsigned then unsignedLong else long)
  else if sizes.contains .longLong && !sizes.contains .short then
    .ok (if isUnsigned then unsignedLongLong else longLong)
  else .error (.sizes sizes)

/-- The fundamental type that a set of keywords specifies. Keywords that are not
type specifiers are ignored. -/
def ofKeywords (keywords : KeywordSet) : Except KeywordFault Primitive :=
  let specifiers := keywords.inter .typeSpecifiers
  let isSigned := specifiers.contains .signed
  let isUnsigned := specifiers.contains .unsigned
  let unsized := specifiers.diff (.ofList [.signed, .unsigned])
  let sizes := KeywordSet.ofList [.short, .long, .longLong]
  if specifiers.isEmpty then .error .missing
  else match ofExactKeywords? specifiers with
  | some p => .ok p
  | none =>
    if isSigned && isUnsigned then .error .bothSigns
    else if specifiers.contains .char then
      if unsized = .singleton .char then .ok (ofCharKeywords isSigned isUnsigned)
      else .error (.withChar specifiers)
    else if ((unsized.diff sizes).diff (.singleton .int)).isEmpty then
      ofSizeKeywords (specifiers.inter sizes) isUnsigned
    else .error (.combination specifiers)

def name : Primitive → String
  | void => "void"
  | bool => "bool"
  | char => "char"
  | signedChar => "signed char"
  | unsignedChar => "unsigned char"
  | wideChar => "wchar_t"
  | char16 => "char16_t"
  | char32 => "char32_t"
  | short => "short"
  | unsignedShort => "unsigned short"
  | int => "int"
  | unsignedInt => "unsigned int"
  | long => "long"
  | unsignedLong => "unsigned long"
  | longLong => "long long"
  | unsignedLongLong => "unsigned long long"
  | float => "float"
  | double => "double"
  | longDouble => "long double"

def ofName? (text : String) : Option Primitive :=
  all.find? fun p => p.name == text

def encoding : Primitive → String
  | void => "v"
  | bool => "b"
  | char => "c"
  | signedChar => "a"
  | unsignedChar => "h"
  | wideChar => "w"
  | char16 => "Ds"
  | char32 => "Di"
  | short => "s"
  | unsignedShort => "t"
  | int => "i"
  | unsignedInt => "j"
  | long => "l"
  | unsignedLong => "m"
  | longLong => "x"
  | unsignedLongLong => "y"
  | float => "f"
  | double => "d"
  | longDouble => "e"

def isIntegral : Primitive → Bool
  | void | float | double | longDouble => false
  | _ => true

/-- The types whose constants are stored without a sign. -/
def isUnsigned : Primitive → Bool
  | bool | unsignedChar | unsignedShort | unsignedInt | unsignedLong | unsignedLongLong
  | char16 | char32 => true
  | _ => false

def signedRange (width : Nat) : Int × Int :=
  let half : Nat := 1 <<< (width - 1)
  (-half, half - 1)

def unsignedRange (width : Nat) : Int × Int :=
  let whole : Nat := 1 <<< width
  (0, whole - 1)

def range? : Primitive → Option (Int × Int)
  | bool => some (0, 1)
  | char | signedChar => some (signedRange 8)
  | unsignedChar => some (unsignedRange 8)
  | short => some (signedRange 16)
  | unsignedShort | char16 => some (unsignedRange 16)
  | int | wideChar => some (signedRange 32)
  | unsignedInt | char32 => some (unsignedRange 32)
  | long | longLong => some (signedRange 64)
  | unsignedLong | unsignedLongLong => some (unsignedRange 64)
  | void | float | double | longDouble => none

theorem mem_all (p : Primitive) : p ∈ all := by cases p <;> decide

theorem range?_isSome (p : Primitive) : p.range?.isSome = p.isIntegral := by
  cases p <;> rfl

end Primitive

end TemplateAnalysis
