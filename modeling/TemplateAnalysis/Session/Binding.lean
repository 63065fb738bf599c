import TemplateAnalysis.Ast.Substitution
import TemplateAnalysis.Session.TypeResolution

/-!
# Binding of template arguments

Arguments are bound to parameters by position. A type argument loses its own
qualifiers. A pack takes every argument that is left. A parameter without an
argument takes its default, with the arguments before it substituted.
-/

namespace TemplateAnalysis

/-- Bound arguments with the texts they were written as, packs flattened. -/
structure Binding where
  arguments : Arguments
  sources : List String

/-- The template that arguments are bound for. -/
structure BindingSite where
  template : String
  parameters : ParameterList
  supplied : List Node
  span : Span

/-- The argument for the parameter at `index`: the one supplied, or else the default
with the arguments before it. -/
def BindingSite.argument (site : BindingSite) (index : Nat) (parameter : TemplateParameter)
    (done : Arguments) : Except Diagnostic Node :=
  match site.supplied[index]?, parameter.defaultArgument with
  | some argument, _ => .ok argument
  | none, some pattern => pattern.substitute done
  | none, none =>
    .error ⟨.tooFewArguments site.template site.parameters.requiredCount site.supplied.length,
      site.span⟩

namespace Session

open Analysis

def isTypeArgument (t : SymbolTable) : Node → Bool
  | .name _ id _ =>
    match (t.symbol id).entity with
    | .classType _ | .enumeration _ | .typedef _ => true
    | .templateParameter data => data.kind == .type
    | _ => false
  | .paren inner _ => isTypeArgument t inner
  | node => node.isTypeForm

def bindType (inst : Instantiator) (argument : Node) : Analysis TemplateArgument := do
  let type ← resolveNode inst argument
  let type ← onTypes (·.unqualified type)
  let s ← get
  return .type type (s.table.typeText s.types type)

/-- A value argument, in the sort of the type its parameter is declared with. -/
def bindValue (valueType : Option Primitive) (argument : Node) : Analysis TemplateArgument := do
  let value ← evaluate argument
  match valueType with
  | none => return .value value
  | some type =>
    ofExcept (((value.convert type).map TemplateArgument.value).mapError
      (Diagnostic.ofConversion argument.span))

def bindOne (inst : Instantiator) (template : String) (parameter : TemplateParameter)
    (index : Nat) (argument : Node) : Analysis TemplateArgument := do
  let isType := isTypeArgument (← get).table argument
  match parameter.kind, isType with
  | .type, true => bindType inst argument
  | .nonType, false => bindValue parameter.valueType argument
  | kind, _ => throw ⟨.argumentKindMismatch template index kind, argument.span⟩

/-- The elements of a pack, the first of which stands at `index`. -/
def bindElements (inst : Instantiator) (template : String) (parameter : TemplateParameter) :
    Nat → List Node → Analysis (List TemplateArgument)
  | _, [] => return []
  | index, argument :: rest => do
    let bound ← bindOne inst template parameter index argument
    return bound :: (← bindElements inst template parameter (index + 1) rest)

def bindNext (inst : Instantiator) (site : BindingSite) (index : Nat) (done : Binding)
    (parameter : TemplateParameter) : Analysis Binding := do
  if parameter.isPack then
    let left := site.supplied.drop index
    let elements ← bindElements inst site.template parameter index left
    return ⟨done.arguments ++ [.pack parameter.kind elements],
      done.sources ++ left.map (·.text)⟩
  else
    let argument ← ofExcept (site.argument index parameter done.arguments)
    let bound ← bindOne inst site.template parameter index argument
    return ⟨done.arguments ++ [bound], done.sources ++ [argument.text]⟩

def bindFrom (inst : Instantiator) (site : BindingSite) :
    Nat → Binding → ParameterList → Analysis Binding
  | _, done, [] => return done
  | index, done, parameter :: rest => do
    bindFrom inst site (index + 1) (← bindNext inst site index done parameter) rest

/-- Where arguments are bound for a template, unless there is no way to bind them. -/
def bindingSite (target : Symbol) (supplied : List Node) (span : Span) :
    Except Diagnostic BindingSite :=
  match target.entity with
  | .template data =>
    match supplied.find? (·.isExpansion) with
    | some expansion =>
      .error (.invalidPack expansion.span (.argumentOutsideTemplate expansion.text))
    | none =>
      if data.parameters.packIndex?.isNone ∧ data.parameters.length < supplied.length then
        .error ⟨.tooManyArguments target.name data.parameters.length supplied.length, span⟩
      else .ok ⟨target.name, data.parameters, supplied, span⟩
  | _ => .error ⟨.notATemplate target.name, span⟩

/-- Arguments bound to the parameters of a template, with their texts. -/
def bindSources (inst : Instantiator) (template : SymbolId) (supplied : List Node)
    (span : Span) : Analysis Binding := do
  let site ← ofExcept (bindingSite (← symbol template) supplied span)
  bindFrom inst site 0 ⟨[], []⟩ site.parameters

end Session

end TemplateAnalysis
