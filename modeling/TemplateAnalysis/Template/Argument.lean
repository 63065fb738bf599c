import TemplateAnalysis.Constant.Basic
import TemplateAnalysis.Handle
import TemplateAnalysis.Template.Kind

/-!
# Template arguments

What is bound to a template parameter: a type, a value, or for a pack the list of
everything it absorbed. A type argument keeps the text it is shown as, which is
no part of its identity.
-/

namespace TemplateAnalysis

inductive TemplateArgument where
  | type (id : TypeId) (text : String)
  | value (value : Constant)
  | pack (kind : ParameterKind) (elements : List TemplateArgument)
deriving Inhabited

/-- The arguments of one instance, by parameter position. -/
abbrev Arguments := List TemplateArgument

namespace TemplateArgument

def kind : TemplateArgument → ParameterKind
  | type _ _ => .type
  | value _ => .nonType
  | pack kind _ => kind

def type? : TemplateArgument → Option TypeId
  | type id _ => some id
  | _ => none

def value? : TemplateArgument → Option Constant
  | value c => some c
  | _ => none

def elements? : TemplateArgument → Option Arguments
  | pack _ elements => some elements
  | _ => none

mutual

/-- Whether two arguments are the same: types by identity, constants as
constants, packs element by element. -/
def same : TemplateArgument → TemplateArgument → Bool
  | type a _, type b _ => a == b
  | value a, value b => a.same b
  | pack k xs, pack l ys => k == l && sameLists xs ys
  | _, _ => false

def sameLists : List TemplateArgument → List TemplateArgument → Bool
  | [], [] => true
  | x :: xs, y :: ys => same x y && sameLists xs ys
  | _, _ => false

end

mutual

/-- The readable text of an argument; the elements of a pack are listed. -/
def text : TemplateArgument → String
  | type _ text => text
  | value c => c.text
  | pack _ elements => ", ".intercalate (textsOf elements)

def textsOf : List TemplateArgument → List String
  | [] => []
  | x :: xs => text x :: textsOf xs

end

end TemplateArgument

namespace Arguments

def same (a b : Arguments) : Bool := TemplateArgument.sameLists a b

/-- The list with one element of a pack in the place of the pack; unchanged if the
slot holds no pack with that element. -/
def narrow (args : Arguments) (element slot : Nat) : Arguments :=
  match (args[slot]?.bind (·.elements?)).bind (·[element]?) with
  | some argument => args.set slot argument
  | none => args

/-- The list with the `element`-th element in the place of every listed pack. -/
def withPackElement (args : Arguments) (packs : List Nat) (element : Nat) : Arguments :=
  packs.foldl (fun args slot => args.narrow element slot) args

end Arguments

end TemplateAnalysis
