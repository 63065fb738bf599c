import TemplateAnalysis.Session.Basic

/-!
# Types of declarations

Specifiers and a declarator denote a type of the graph: the specifiers name a
base, and the parts of the declarator apply to it one after the other. A
template-id denotes an instance of its template. Making that instance may need
types again, so it is a parameter here; the functions recurse on the tree only.
-/

namespace TemplateAnalysis

/-- A way to get the instance of a template for arguments as written. -/
abbrev Instantiator := SymbolId → List Node → Span → Analysis SymbolId

namespace Session

open Analysis

/-- The type of a class or an enum; the symbol remembers it. -/
def typeOfSymbol (id : SymbolId) : Analysis TypeId := do
  match (← symbol id).type with
  | some type => return type
  | none =>
    let type ← onTypes (·.symbolType id .none)
    modifyTable (·.modifySymbol id fun s => { s with type := some type })
    return type

/-- The type that a name denotes. A typedef denotes what it was declared for. -/
def namedType (text : String) (id : SymbolId) (span : Span) : Analysis TypeId := do
  match (← symbol id).entity with
  | .classType _ | .enumeration _ => typeOfSymbol id
  | .typedef target => return target
  | .templateParameter _ => throw ⟨.dependentType text, span⟩
  | _ => throw ⟨.notAType text, span⟩

def keywordType (keywords : KeywordSet) (span : Span) : Analysis TypeId := do
  match (← get).types.ofKeywords keywords with
  | .ok (id, types) =>
    modify fun s => { s with types }
    return id
  | .error fault => throw (.invalidType span (.keywords fault))

def arrayBound (expression : Node) : Analysis UInt64 := do
  let value ← evaluate expression
  match value.uint64? with
  | some n => return n
  | none => throw (.notConstant expression.span (.arrayBound value))

def pointerFault? (g : TypeGraph) (target : TypeId) : Option TypeFault :=
  if g.isReference target then some .pointerToReference else none

def referenceFault? (g : TypeGraph) (referee : TypeId) : Option TypeFault :=
  if g.isVoid referee then some .referenceToVoid else none

def arrayFault? (g : TypeGraph) (element : TypeId) : Option TypeFault :=
  if g.isReference element then some .arrayOfReferences
  else if g.isFunction element then some .arrayOfFunctions
  else if g.isVoid element then some .arrayOfVoid
  else none

def functionFault? (g : TypeGraph) (result : TypeId) : Option TypeFault :=
  if g.isArray result then some .functionReturningArray
  else if g.isFunction result then some .functionReturningFunction
  else none

/-- Fails when the current graph gives a reason to. -/
def rejectType (fault? : TypeGraph → Option TypeFault) (span : Span) : Analysis Unit := do
  match fault? (← get).types with
  | some fault => throw (.invalidType span fault)
  | none => return ()

mutual

def resolveNode (inst : Instantiator) : Node → Analysis TypeId
  | .typeId specifiers declarator span => do
    applyParts inst (← resolveSpecifiers inst span specifiers) declarator
  | .resolvedType type _ _ => return type
  | .paren inner _ => resolveNode inst inner
  | .name text id span => namedType text id span
  | .templateId template _ arguments span => do
    typeOfSymbol (← inst template arguments span)
  | .typeParameter text _ span | .valueParameter text _ span =>
    throw ⟨.dependentType text, span⟩
  | node => throw ⟨.notAType node.text, node.span⟩

/-- The type that specifiers name or specify by keywords, but not both. -/
def resolveSpecifiers (inst : Instantiator) (span : Span) : Specifiers → Analysis TypeId
  | ⟨keywords, none⟩ => keywordType keywords span
  | ⟨keywords, some named⟩ => do
    if keywords.specifiesType then
      throw (.invalidType span (.namedWithKeywords named.text))
    let type ← resolveNode inst named
    onTypes (·.qualify type keywords.qualifiers)

def applyPart (inst : Instantiator) (current : TypeId) : DeclaratorPart → Analysis TypeId
  | .name _ _ => return current
  | .pointer qualifiers span => do
    rejectType (pointerFault? · current) span
    onTypes (·.pointer current qualifiers)
  | .lvalueReference span => do
    rejectType (referenceFault? · current) span
    onTypes (·.lvalueReference current)
  | .rvalueReference span => do
    rejectType (referenceFault? · current) span
    onTypes (·.rvalueReference current)
  | .array bound span => do
    rejectType (arrayFault? · current) span
    match bound with
    | none => onTypes (·.array current none)
    | some expression =>
      let n ← arrayBound expression
      onTypes (·.array current (some n))
  | .function parameters variadic qualifiers span => do
    rejectType (functionFault? · current) span
    let types ← resolveParameters inst (parameters.length == 1) parameters
    onTypes (·.function current types variadic qualifiers)

def applyParts (inst : Instantiator) (current : TypeId) : List DeclaratorPart → Analysis TypeId
  | [] => return current
  | part :: rest => do applyParts inst (← applyPart inst current part) rest

/-- The adjusted type of a function parameter. An unnamed `void` that stands alone
is no parameter. -/
def resolveParameter (inst : Instantiator) (alone : Bool) :
    FunctionParameter → Analysis (Option TypeId)
  | ⟨specifiers, declarator, _, span⟩ => do
    let type ← applyParts inst (← resolveSpecifiers inst span specifiers) declarator
    if (← get).types.isVoid type then
      if alone && declarator.isEmpty then return none
      else throw (.invalidType span .voidParameter)
    else return some (← onTypes (·.adjusted type))

def resolveParameters (inst : Instantiator) (alone : Bool) :
    List FunctionParameter → Analysis (List TypeId)
  | [] => return []
  | parameter :: rest => do
    let type ← resolveParameter inst alone parameter
    return type.toList ++ (← resolveParameters inst alone rest)

end

def resolveType (inst : Instantiator) (specifiers : Specifiers) (declarator : Declarator)
    (span : Span) : Analysis TypeId := do
  applyParts inst (← resolveSpecifiers inst span specifiers) declarator

/-- A diagnostic in the words of base lists: what is no type is no class either. -/
def asBaseFault (node : Node) (d : Diagnostic) : Diagnostic :=
  match d.cause with
  | .notAType _ => ⟨.notAClass node.text, node.span⟩
  | _ => d

/-- The class that a node names, whatever its qualifiers. -/
def resolveClass (inst : Instantiator) (node : Node) : Analysis SymbolId := do
  let type ← tryCatch (resolveNode inst node) fun d => throw (asBaseFault node d)
  let type ← onTypes (·.unqualified type)
  let s ← get
  match s.types.symbol? type with
  | none => throw ⟨.notAClass node.text, node.span⟩
  | some id =>
    if (s.table.symbol id).kind = .classType then return id
    else throw ⟨.notAClass node.text, node.span⟩

/-- A base added to a class. The base is another class, and complete where that is
required. -/
def registerBase (inst : Instantiator) (derived : SymbolId) (base : BaseSpecifier) :
    Analysis Unit := do
  if base.isExpansion then
    throw (.invalidPack base.span (.baseOutsideTemplate base.text))
  let target ← resolveClass inst base.name
  let s ← get
  if target = derived ∨
      (s.config.requireCompleteBases = true ∧ (s.table.symbol target).isDefined = false) then
    throw ⟨.incompleteBase (s.table.qualifiedName target), base.span⟩
  modifyTable (·.modifyClass derived fun data =>
    { data with bases := data.bases ++ [⟨target, base.access, base.isVirtual⟩] })

end Session

end TemplateAnalysis
