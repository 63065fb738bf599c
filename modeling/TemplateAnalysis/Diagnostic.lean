import TemplateAnalysis.Constant.Conversion
import TemplateAnalysis.Span
import TemplateAnalysis.Symbol.Kind
import TemplateAnalysis.Template.Kind

/-!
# Diagnostics

A diagnostic is a cause and the place where it was found. Causes that have many
reasons carry the reason as a value of its own type; the wording of all of them
is here. Every reason type has a case `worded` for a caller's own words.
-/

namespace TemplateAnalysis

inductive TypeFault where
  | keywords (fault : KeywordFault)
  /-- A named type stands beside keywords that specify one. -/
  | namedWithKeywords (name : String)
  | pointerToReference
  | referenceToVoid
  | arrayOfReferences
  | arrayOfFunctions
  | arrayOfVoid
  | functionReturningArray
  | functionReturningFunction
  | voidParameter
  | voidConstant
  | notAFunctionType (name : String)
  | declaresNothing
  | worded (detail : String)
deriving DecidableEq, Repr

def TypeFault.text : TypeFault → String
  | keywords fault => fault.text
  | namedWithKeywords name => s!"'{name}' combined with fundamental type specifiers"
  | pointerToReference => "pointer to reference"
  | referenceToVoid => "reference to void"
  | arrayOfReferences => "array of references"
  | arrayOfFunctions => "array of functions"
  | arrayOfVoid => "array of void"
  | functionReturningArray => "function returning an array"
  | functionReturningFunction => "function returning a function"
  | voidParameter => "parameter of type 'void'"
  | voidConstant => "constant of type 'void'"
  | notAFunctionType name => s!"'{name}' is not declared with a function type"
  | declaresNothing => "declaration does not declare anything"
  | worded detail => detail

inductive PackFault where
  | unexpanded (name : String)
  | mismatchedLengths (first other : Nat)
  | noPack
  /-- A base list of an ordinary class has an expansion. -/
  | baseOutsideTemplate (base : String)
  /-- An argument list outside of a template has an expansion. -/
  | argumentOutsideTemplate (argument : String)
  | notLast (name : String)
  | hasDefault (name : String)
  | worded (detail : String)
deriving DecidableEq, Repr

def PackFault.text : PackFault → String
  | unexpanded name => s!"parameter pack '{name}' is used without '...'"
  | mismatchedLengths first other => s!"mismatched argument pack lengths ({first} vs {other})"
  | noPack => "pattern does not contain a parameter pack"
  | baseOutsideTemplate base => s!"'{base}' outside of a class template"
  | argumentOutsideTemplate argument => s!"'{argument}' expands a pack outside of a template"
  | notLast name => s!"template parameter pack '{name}' must be the last template parameter"
  | hasDefault name => s!"template parameter pack '{name}' cannot have a default argument"
  | worded detail => detail

/-- How two declarations of a template differ, or a list breaks the default rule. -/
inductive ParameterFault where
  | count (expected found : Nat)
  | shape (index : Nat)
  | missingDefault (index : Nat)
  | worded (detail : String)
deriving DecidableEq, Repr

def ParameterFault.text : ParameterFault → String
  | count expected found => s!"expected {expected} parameter(s), found {found}"
  | shape index => s!"parameter {index} differs in kind or pack-ness"
  | missingDefault index =>
    s!"parameter {index} has no default argument after a defaulted parameter"
  | worded detail => detail

/-- A construct outside the subset of the language that is analysed. -/
inductive Construct where
  | templatesOf (kind : SymbolKind)
  | explicitSpecialization
  | memberTemplates
  | bitFields
  /-- A node, here described, that cannot be a class member. -/
  | classMember (description : String)
  | worded (text : String)
deriving DecidableEq, Repr

def Construct.text : Construct → String
  | templatesOf kind => s!"{kind.name} templates"
  | explicitSpecialization => "explicit template specialization"
  | memberTemplates => "member templates"
  | bitFields => "bit-fields"
  | classMember description => s!"{description} as a class member"
  | worded text => text

/-- A request that no well-behaved caller makes. -/
inductive Misuse where
  | typeParameterBoundToValue (name : String)
  | valueParameterBoundToType (name : String)
  | strayExpansion
  | strayBaseExpansion
  | overloadRequired (name : String)
  | parameterScopeRequired (name : String)
  | entityMismatch (name : String) (given requested : SymbolKind)
  | noEnclosingScope
  | noParameterScope (name : String)
  | noOwnScope (name : String)
  | notAnObject (name : String)
  | leavesGlobalScope
  | noNamespaceOpen
  | templateDeclaresNothing
  | noTemplateOpen
  | worded (message : String)
deriving DecidableEq, Repr

def Misuse.text : Misuse → String
  | typeParameterBoundToValue name => s!"type parameter '{name}' is bound to a value"
  | valueParameterBoundToType name => s!"non-type parameter '{name}' is bound to a type"
  | strayExpansion => "pack expansion reached outside of the list that owns it"
  | strayBaseExpansion => "pack-expansion base specifier must be expanded by its class"
  | overloadRequired name => s!"function '{name}' must be declared as an overload"
  | parameterScopeRequired name => s!"template '{name}' must be declared from its parameter scope"
  | entityMismatch name given requested =>
    s!"payload for '{name}' is a {given.name} but a {requested.name} was requested"
  | noEnclosingScope => "template parameter scope has no enclosing scope"
  | noParameterScope name => s!"template '{name}' has no parameter scope"
  | noOwnScope name => s!"'{name}' has no scope of its own"
  | notAnObject name => s!"'{name}' is not an object"
  | leavesGlobalScope => "cannot leave the global scope"
  | noNamespaceOpen => "no namespace is open"
  | templateDeclaresNothing => "template parameter list declares nothing"
  | noTemplateOpen => "no template is open"
  | worded message => message

inductive Category where
  | semantic | unsupported | redeclaration | internal
deriving DecidableEq, Inhabited, Repr

def Category.name : Category → String
  | semantic => "semantic error"
  | unsupported => "unsupported construct"
  | redeclaration => "redeclaration conflict"
  | internal => "internal error"

inductive Cause where
  | argumentKindMismatch (template : String) (index : Nat) (expected : ParameterKind)
  | tooFewArguments (template : String) (expected got : Nat)
  | tooManyArguments (template : String) (expected got : Nat)
  /-- A dependent name refers to a parameter that no argument is bound to. -/
  | parameterIndexOutOfRange (index bound : Nat)
  | notConstant (fault : ConstantFault)
  | staticAssertFailed (message : String)
  /-- A type was asked of something that still depends on a parameter. -/
  | dependentType (name : String)
  | notATemplate (name : String)
  | notAType (name : String)
  /-- A base specifier names something else than a class. -/
  | notAClass (name : String)
  | incompleteBase (name : String)
  | unknownName (name : String)
  | parameterMismatch (template : String) (fault : ParameterFault)
  /-- Two declarations of a template give a default for one parameter. -/
  | defaultRedefinition (template : String) (index : Nat)
  | invalidType (fault : TypeFault)
  | invalidPack (fault : PackFault)
  | depthExceeded (template : String) (depth : Nat)
  | unsupported (construct : Construct)
  /-- Only class templates have instances. -/
  | unsupportedEntity (name entity : String)
  | differentKind (name existing requested : String)
  /-- An entity is completed twice. -/
  | redefinition (name : String)
  | internal (misuse : Misuse)
deriving DecidableEq, Repr

namespace Cause

def name : Cause → String
  | argumentKindMismatch _ _ _ => "ArgumentKindMismatch"
  | tooFewArguments _ _ _ => "TooFewTemplateArguments"
  | tooManyArguments _ _ _ => "TooManyTemplateArguments"
  | parameterIndexOutOfRange _ _ => "ParamIndexOutOfRange"
  | notConstant _ => "NotConstant"
  | staticAssertFailed _ => "StaticAssertFailed"
  | dependentType _ => "DependentType"
  | notATemplate _ => "NotATemplate"
  | notAType _ => "NotAType"
  | notAClass _ => "NotAClass"
  | incompleteBase _ => "IncompleteBase"
  | unknownName _ => "UnknownName"
  | parameterMismatch _ _ => "TemplateParamMismatch"
  | defaultRedefinition _ _ => "DefaultRedefinition"
  | invalidType _ => "InvalidTypeSpecifier"
  | invalidPack _ => "InvalidPackExpansion"
  | depthExceeded _ _ => "InstantiationDepthExceeded"
  | unsupported _ => "Unsupported"
  | unsupportedEntity _ _ => "UnsupportedTemplateEntity"
  | differentKind _ _ _ => "DifferentKind"
  | redefinition _ => "Redefinition"
  | internal _ => "Internal"

def category : Cause → Category
  | unsupported _ | unsupportedEntity _ _ => .unsupported
  | differentKind _ _ _ | redefinition _ => .redeclaration
  | internal _ => .internal
  | _ => .semantic

def isArgumentCount : Cause → Bool
  | tooFewArguments _ _ _ | tooManyArguments _ _ _ => true
  | _ => false

def text : Cause → String
  | argumentKindMismatch template index expected =>
    s!"template argument {index} of '{template}' must be a {expected.name}"
  | tooFewArguments template expected got =>
    s!"argument count mismatch for '{template}': expected at least {expected}, got {got}"
  | tooManyArguments template expected got =>
    s!"too many template arguments for '{template}': expected at most {expected}, got {got}"
  | parameterIndexOutOfRange index bound =>
    s!"template parameter index {index} out of range ({bound} argument(s) bound)"
  | notConstant fault => s!"expression is not a constant expression: {fault.text}"
  | staticAssertFailed message => s!"static assertion failed: {message}"
  | dependentType name => s!"'{name}' depends on a template parameter and has no type-id yet"
  | notATemplate name => s!"'{name}' is not a template"
  | notAType name => s!"'{name}' does not name a type"
  | notAClass name => s!"base specifier '{name}' does not name a class"
  | incompleteBase name => s!"base class '{name}' is incomplete"
  | unknownName name => s!"unknown name '{name}'"
  | parameterMismatch template fault =>
    s!"template '{template}' redeclared with different parameters: {fault.text}"
  | defaultRedefinition template index =>
    s!"redefinition of default argument for parameter {index} of template '{template}'"
  | invalidType fault => s!"invalid type specifier: {fault.text}"
  | invalidPack fault => s!"invalid pack expansion: {fault.text}"
  | depthExceeded template depth =>
    s!"instantiating '{template}' exceeded the maximum instantiation depth of {depth}"
  | unsupported construct => s!"{construct.text} is not supported"
  | unsupportedEntity name entity =>
    s!"unsupported template entity: '{name}' is a {entity} template"
  | differentKind name existing requested =>
    s!"'{name}' redeclared as different kind of symbol ({existing} vs {requested})"
  | redefinition name => s!"redefinition of '{name}'"
  | internal misuse => misuse.text

end Cause

/-- A cause and the place where it was found. -/
structure Diagnostic where
  cause : Cause
  span : Span
deriving DecidableEq, Repr

namespace Diagnostic

def category (d : Diagnostic) : Category := d.cause.category

/-- The whole message: the place, then the cause. -/
def text (d : Diagnostic) : String :=
  match d.cause with
  | .internal misuse => s!"internal error at {d.span.text}: {misuse.text}"
  | cause => s!"at {d.span.text}: {cause.text}"

/-- The message behind the name of its category. -/
def report (d : Diagnostic) : String := s!"{d.category.name}: {d.text}"

def notConstant (span : Span) (fault : ConstantFault) : Diagnostic := ⟨.notConstant fault, span⟩

def invalidType (span : Span) (fault : TypeFault) : Diagnostic := ⟨.invalidType fault, span⟩

def invalidPack (span : Span) (fault : PackFault) : Diagnostic := ⟨.invalidPack fault, span⟩

def unsupported (span : Span) (construct : Construct) : Diagnostic :=
  ⟨.unsupported construct, span⟩

def internal (span : Span) (misuse : Misuse) : Diagnostic := ⟨.internal misuse, span⟩

def ofConversion (span : Span) : ConversionFault → Diagnostic
  | .void => invalidType span .voidConstant
  | .constant fault => notConstant span fault

end Diagnostic

end TemplateAnalysis
