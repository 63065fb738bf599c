/-!
# Access and class keys
-/

namespace TemplateAnalysis

/-- How a member or a base may be reached. -/
inductive Access where
  | publicly | protectedly | privately
deriving DecidableEq, Inhabited, Repr

def Access.name : Access → String
  | publicly => "public"
  | protectedly => "protected"
  | privately => "private"

def Access.ofName? (text : String) : Option Access :=
  [publicly, protectedly, privately].find? fun a => a.name == text

inductive ClassKey where
  | classKey | structKey | unionKey
deriving DecidableEq, Inhabited, Repr

namespace ClassKey

def name : ClassKey → String
  | classKey => "class"
  | structKey => "struct"
  | unionKey => "union"

def ofName? (text : String) : Option ClassKey :=
  [classKey, structKey, unionKey].find? fun key => key.name == text

def defaultAccess : ClassKey → Access
  | classKey => .privately
  | structKey | unionKey => .publicly

end ClassKey

end TemplateAnalysis
