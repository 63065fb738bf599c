import TemplateAnalysis.Ast.Spelling
import TemplateAnalysis.TypeGraph.Tree

/-!
# Spelling of types

A type has an encoding, which internal names are built from, and a readable text
with its operators behind the base. Both are given the names of user-defined
types: the encoding their nested internal names, the text their qualified names.
-/

namespace TemplateAnalysis

def BaseKey.encoding (nameOf : SymbolId → String) : BaseKey → String
  | primitive p q => q.encoding ++ p.encoding
  | symbol s q => q.encoding ++ nameOf s

def BaseKey.text (nameOf : SymbolId → String) : BaseKey → String
  | primitive p q => q.before ++ p.name
  | symbol s q => q.before ++ nameOf s

def arrayBoundEncoding : Option UInt64 → String
  | none => "A_"
  | some n => "A" ++ toString n.toNat ++ "_"

/-- The encoding of a parameter list from those of its parameters; the list
without parameters is written as `void`. -/
def parameterListEncoding (parameters : List String) (variadic : Bool) : String :=
  if parameters.isEmpty && !variadic then "v"
  else String.join parameters ++ (if variadic then "z" else "")

namespace TypeTree

mutual

/-- The encoding of a type: operators stand before what they apply to. -/
def encoding (nameOf : SymbolId → String) : TypeTree → String
  | base key => key.encoding nameOf
  | pointer target q => q.encoding ++ "P" ++ encoding nameOf target
  | lvalueReference referee => "R" ++ encoding nameOf referee
  | rvalueReference referee => "O" ++ encoding nameOf referee
  | array element bound => arrayBoundEncoding bound ++ encoding nameOf element
  | function result parameters variadic q =>
    q.encoding ++ "F" ++ encoding nameOf result ++
      parameterListEncoding (encodings nameOf parameters) variadic ++ "E"

def encodings (nameOf : SymbolId → String) : List TypeTree → List String
  | [] => []
  | t :: ts => encoding nameOf t :: encodings nameOf ts

end

/-- The encoding of the parameter list of a function type, which tells overloads
apart. -/
def signature? (nameOf : SymbolId → String) : TypeTree → Option String
  | function _ parameters variadic q =>
    some (q.encoding ++ parameterListEncoding (encodings nameOf parameters) variadic)
  | _ => none

mutual

/-- The readable text of a type: operators stand behind what they apply to. -/
def text (nameOf : SymbolId → String) : TypeTree → String
  | base key => key.text nameOf
  | pointer target q => text nameOf target ++ "*" ++ q.behind
  | lvalueReference referee => text nameOf referee ++ "&"
  | rvalueReference referee => text nameOf referee ++ "&&"
  | array element bound =>
    text nameOf element ++ "[" ++ (bound.map (toString ·.toNat)).getD "" ++ "]"
  | function result parameters variadic q =>
    text nameOf result ++ parameterListText (texts nameOf parameters) variadic ++ q.behind

def texts (nameOf : SymbolId → String) : List TypeTree → List String
  | [] => []
  | t :: ts => text nameOf t :: texts nameOf ts

end

end TypeTree

end TemplateAnalysis
