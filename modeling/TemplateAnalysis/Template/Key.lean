import TemplateAnalysis.Template.Argument

/-!
# Instance keys

An instance of a template is known by a key: the internal name of the template
with the encodings of its arguments between `I` and `E`. A pack is encoded
between `J` and `E`. Types are encoded by a function that the caller supplies.
-/

namespace TemplateAnalysis

namespace TemplateArgument

mutual

def encoding (typeEncoding : TypeId → String) : TemplateArgument → String
  | type id _ => typeEncoding id
  | value c => c.encoding
  | pack _ elements => "J" ++ encodings typeEncoding elements ++ "E"

def encodings (typeEncoding : TypeId → String) : List TemplateArgument → String
  | [] => ""
  | x :: xs => encoding typeEncoding x ++ encodings typeEncoding xs

end

end TemplateArgument

def instanceKey (typeEncoding : TypeId → String) (mangled : String) (args : Arguments) : String :=
  mangled ++ "I" ++ TemplateArgument.encodings typeEncoding args ++ "E"

/-- The readable name of an instance: the template with its arguments as written. -/
def instanceName (template : String) (sources : List String) : String :=
  template ++ "<" ++ ", ".intercalate sources ++ ">"

end TemplateAnalysis
