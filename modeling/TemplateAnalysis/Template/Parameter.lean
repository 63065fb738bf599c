import TemplateAnalysis.Ast.Basic
import TemplateAnalysis.Diagnostic
import TemplateAnalysis.Primitive

/-!
# Template parameter lists

The parameters of a template in order. Declarations of one template are merged:
their parameters have to agree in shape, and each may bring defaults for
parameters that have none yet.
-/

namespace TemplateAnalysis

/-- A template parameter. A default may mention the parameters before it. -/
structure TemplateParameter where
  name : String
  kind : ParameterKind
  /-- The fundamental type that a value parameter is declared with, if it is one. -/
  valueType : Option Primitive
  isPack : Bool
  defaultArgument : Option Node
  span : Span
deriving Inhabited

namespace TemplateParameter

/-- Whether two parameters agree in kind, declared type, and being a pack. -/
def sameShape (p q : TemplateParameter) : Bool :=
  p.kind == q.kind && p.valueType == q.valueType && p.isPack == q.isPack

def isRequired (p : TemplateParameter) : Bool := !p.isPack && p.defaultArgument.isNone

/-- The parameter with the default of another declaration, if it has none. -/
def withDefaultOf (p q : TemplateParameter) : TemplateParameter :=
  { p with defaultArgument := p.defaultArgument.or q.defaultArgument }

end TemplateParameter

abbrev ParameterList := List TemplateParameter

namespace ParameterList

def packIndex? (ps : ParameterList) : Option Nat := ps.findIdx? (·.isPack)

def requiredCount (ps : ParameterList) : Nat := ps.countP (·.isRequired)

/-- A pack stands last and has no default. -/
def validate : ParameterList → Except Diagnostic Unit
  | [] => .ok ()
  | p :: rest =>
    if p.isPack && !rest.isEmpty then .error (.invalidPack p.span (.notLast p.name))
    else if p.isPack && p.defaultArgument.isSome then
      .error (.invalidPack p.span (.hasDefault p.name))
    else validate rest

/-- The first parameter without a default behind one that has a default, counted
from `index`; a pack needs none. -/
def missingDefault? (afterDefault : Bool) (index : Nat) : ParameterList → Option Nat
  | [] => none
  | p :: rest =>
    if p.defaultArgument.isSome then missingDefault? true (index + 1) rest
    else if afterDefault && !p.isPack then some index
    else missingDefault? afterDefault (index + 1) rest

/-- Behind a parameter with a default every parameter has one. -/
def checkTrailingDefaults (ps : ParameterList) (template : String) (span : Span) :
    Except Diagnostic Unit :=
  match ps.missingDefault? false 0 with
  | some index => .error ⟨.parameterMismatch template (.missingDefault index), span⟩
  | none => .ok ()

/-- The parameters of two lists of one length agree, from position `index` on. -/
def checkAgreement (template : String) (index : Nat) :
    ParameterList → ParameterList → Except Diagnostic Unit
  | p :: ps, q :: qs =>
    if !p.sameShape q then .error ⟨.parameterMismatch template (.shape index), q.span⟩
    else if p.defaultArgument.isSome && q.defaultArgument.isSome then
      .error ⟨.defaultRedefinition template index, q.span⟩
    else checkAgreement template (index + 1) ps qs
  | _, _ => .ok ()

/-- The list with the defaults that another declaration brings. Nothing is taken
from a declaration that does not agree. -/
def merge (ps qs : ParameterList) (template : String) (span : Span) :
    Except Diagnostic ParameterList :=
  if ps.length ≠ qs.length then
    .error ⟨.parameterMismatch template (.count ps.length qs.length), span⟩
  else do
    checkAgreement template 0 ps qs
    return ps.zipWith TemplateParameter.withDefaultOf qs

end ParameterList

end TemplateAnalysis
