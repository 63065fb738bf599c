/-!
# Kinds of template parameters
-/

namespace TemplateAnalysis

/-- Whether a template parameter stands for a type or for a value. -/
inductive ParameterKind where
  | type | nonType
deriving DecidableEq, Inhabited, Repr

def ParameterKind.name : ParameterKind → String
  | type => "type"
  | nonType => "non-type"

end TemplateAnalysis
