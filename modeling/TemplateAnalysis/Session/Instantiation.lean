import TemplateAnalysis.Session.Binding

/-!
# Instantiation

The instance of a class template for bound arguments is a class of its own,
declared under its key beside the template. It is registered before its body is
filled in, so that a body which mentions it finds it, and asking for the same
arguments again returns it. The session counts the instances that are being made;
what the limit leaves of them is the measure that the recursion descends on.
-/

namespace TemplateAnalysis.Session

open Analysis

/-- The bases and members of a pattern, substituted, become those of an instance. -/
def fillInstance (inst : Instantiator) (created : SymbolId) (pattern : ClassSpecifier)
    (args : Arguments) : Analysis Unit := do
  let bases ← ofExcept (substituteBases args pattern.bases)
  bases.forM (registerBase inst created)
  let members ← ofExcept (substituteNodes args pattern.members)
  modifyTable (·.modifyClass created fun data => { data with key := pattern.key, members })

/-- An instance that is not known yet: it is registered, then filled in if the
template was defined. -/
def createInstance (inst : Instantiator) (template : SymbolId) (key : String)
    (bound : Binding) (body : Option ClassSpecifier) (keyword : ClassKey) (span : Span) :
    Analysis SymbolId := do
  let target ← symbol template
  let created ← changeTable (·.declareInstance target.enclosing key
    (instanceName target.name bound.sources) keyword ⟨template, bound.arguments⟩ span)
  match body with
  | none => return created
  | some pattern =>
    fillInstance inst created pattern bound.arguments
    modifyTable (·.markDefined created)
    return created

/-- The instance of a template for bound arguments: the one registered under their key,
or a new one. -/
def instanceFor (inst : Instantiator) (template : SymbolId) (target : Symbol)
    (data : TemplateData) (bound : Binding) (span : Span) : Analysis SymbolId := do
  let s ← get
  let key := instanceKey (s.table.typeEncoding s.types) target.mangled bound.arguments
  match s.table.lookupIn target.enclosing key (.singleton .classType) with
  | some existing => return existing
  | none =>
    match data.entity with
    | .classTemplate keyword => createInstance inst template key bound data.body? keyword span
    | entity => throw ⟨.unsupportedEntity target.name entity.name, span⟩

/-- The instance of a template for arguments as written, given how the instances
are made that it needs. -/
def instantiateStep (inst : Instantiator) : Instantiator := fun template arguments span => do
  let target ← symbol template
  match target.entity with
  | .template data =>
    instanceFor inst template target data (← bindSources inst template arguments span) span
  | _ => throw ⟨.notATemplate target.name, span⟩

/-- Instantiation with at most `left` more instances made inside of each other. -/
def instantiateWithin : Nat → Instantiator
  | 0, template, _, span => do
    let s ← get
    throw ⟨.depthExceeded (s.table.symbol template).name s.config.maxDepth, span⟩
  | left + 1, template, arguments, span =>
    nested (instantiateStep (instantiateWithin left) template arguments span)

def instantiate : Instantiator := fun template arguments span => do
  let s ← get
  instantiateWithin (s.config.maxDepth - s.depth) template arguments span

def bindArguments (template : SymbolId) (supplied : List Node) (span : Span) :
    Analysis Arguments := do
  return (← bindSources instantiate template supplied span).arguments

end TemplateAnalysis.Session
