import TemplateAnalysis.Session.Instantiation
import TemplateAnalysis.Session.Scopes

/-!
# Typedefs, functions and objects

What specifiers and a declarator introduce depends on the keyword `typedef` and
on the type: a function type makes a function, any other type an object. Behind a
template header they introduce an alias template or a variable template; function
templates are not analysed.
-/

namespace TemplateAnalysis.Session

open Analysis

def declareHeaderEntity (name : String) (kind : SymbolKind) (entity : TemplatedEntity)
    (defines : Bool) (span : Span) : Analysis SymbolId := do
  let s ← get
  let declared ← onTable (SymbolTable.declareTemplate s.current name kind span)
  enterTemplate declared entity defines span
  return declared.symbol

/-- A typedef. It may be repeated for the same type. -/
def declareTypedef (name : String) (specifiers : Specifiers) (declarator : Declarator)
    (span : Span) : Analysis SymbolId := do
  if ← inHeader then declareHeaderEntity name .typedef .aliasTemplate true span
  else
    let target ← resolveType instantiate specifiers declarator span
    let s ← get
    let declared ← onTable
      (SymbolTable.declare s.current name .typedef (.singleton .typedef) span (.typedef target))
    match declared.isNew, (← symbol declared.symbol).entity with
    | true, _ => return declared.symbol
    | false, .typedef existing =>
      if existing = target then return declared.symbol
      else throw ⟨.redefinition name, span⟩
    | false, _ => throw ⟨.redefinition name, span⟩

def declareFunction (name : String) (specifiers : Specifiers) (declarator : Declarator)
    (span : Span) : Analysis SymbolId := do
  if ← inHeader then throw (.unsupported span (.templatesOf .function))
  let type ← resolveType instantiate specifiers declarator span
  let s ← get
  match s.table.signature? s.types type with
  | none => throw (.invalidType span (.notAFunctionType name))
  | some signature =>
    let (declared, table) ← ofExcept
      (s.table.declareOverload s.current name type signature specifiers.keywords span)
    modify fun s => { s with table }
    return declared.symbol

/-- An initializer's value as a value of a type, where the type is fundamental. -/
def initialValue (t : SymbolTable) (type? : Option Primitive) (initializer : Node) :
    Except Diagnostic Constant := do
  let value ← t.evaluate initializer
  match type? with
  | none => return value
  | some type => (value.convert type).mapError (Diagnostic.ofConversion initializer.span)

/-- The value to record for an object. A `constexpr` object has to have one. A
`const` object of an integral type has one if its initializer is constant. -/
def constantValue (type : TypeId) (keywords : KeywordSet) (initializer : Option Node) :
    Analysis (Option Constant) := do
  let s ← get
  let type? := s.types.primitive? type
  match initializer with
  | none => return none
  | some expression =>
    let value := initialValue s.table type? expression
    if keywords.contains .constexpr then return some (← ofExcept value)
    else if keywords.contains .const && (type?.map (·.isIntegral)).getD false then
      return value.toOption
    else return none

/-- A repeated declaration of an object takes a value that is not recorded yet. -/
def redeclareObject (id : SymbolId) (name : String) (type : TypeId) (value : Option Constant)
    (span : Span) : Analysis Unit := do
  match (← symbol id).entity with
  | .object existing =>
    if existing.type ≠ type ∨ (existing.value.isSome ∧ value.isSome) then
      throw ⟨.redefinition name, span⟩
    modifyTable (·.modifySymbol id fun s =>
      { s with entity := .object { existing with value := value.or existing.value } })
  | _ => throw (.internal span (.notAnObject name))

/-- An object, or a function if the type is one. An `extern` object without an
initializer is declared only. -/
def declareObject (name : String) (specifiers : Specifiers) (declarator : Declarator)
    (initializer : Option Node) (span : Span) : Analysis SymbolId := do
  if ← inHeader then
    declareHeaderEntity name .object .variableTemplate initializer.isSome span
  else
    let keywords := specifiers.keywords
    let type ← resolveType instantiate specifiers declarator span
    if (← get).types.isFunction type then declareFunction name specifiers declarator span
    else
      let value ← constantValue type keywords initializer
      let s ← get
      let declared ← onTable (SymbolTable.declare s.current name .object (.singleton .object)
        span (.object ⟨type, keywords, value⟩))
      if !declared.isNew then redeclareObject declared.symbol name type value span
      if !keywords.contains .external || initializer.isSome then
        modifyTable (·.markDefined declared.symbol)
      return declared.symbol

/-- Whatever specifiers and a declarator introduce. -/
def declareSimple (specifiers : Specifiers) (declarator : Declarator)
    (initializer : Option Node) (span : Span) : Analysis SymbolId := do
  match declarator.name? with
  | none => throw (.invalidType span .declaresNothing)
  | some name =>
    if specifiers.keywords.contains .typedef then
      let keywords := specifiers.keywords.diff (.singleton .typedef)
      declareTypedef name { specifiers with keywords } declarator span
    else if declarator.isFunction then declareFunction name specifiers declarator span
    else declareObject name specifiers declarator initializer span

def checkStaticAssert (assertion : StaticAssert) : Analysis Unit := do
  let value ← evaluate assertion.condition
  if !value.isTruthy then
    throw ⟨.staticAssertFailed (assertion.message.getD assertion.condition.text), assertion.span⟩

end TemplateAnalysis.Session
