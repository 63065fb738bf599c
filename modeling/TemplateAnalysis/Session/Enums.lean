import TemplateAnalysis.Session.Scopes

/-!
# Enums

An enum is declared, and completed once with its enumerators. An enumerator
without a value continues from the one before; the first one then is zero.
Enumerators of an unscoped enum are visible around it as well.
-/

namespace TemplateAnalysis.Session

open Analysis

structure EnumeratorSpecifier where
  name : String
  value : Option Node
  span : Span

def declareEnum (name : String) (isScoped : Bool) (underlying : Option TypeId) (span : Span) :
    Analysis SymbolId := do
  let s ← get
  let declared ← onTable (SymbolTable.declare s.current name .enumeration
    (.singleton .enumeration) span (.enumeration ⟨isScoped, underlying, []⟩))
  return declared.symbol

/-- The enum that enumerators are declared for. -/
structure EnumSite where
  /-- The scope of the enum itself. -/
  own : ScopeId
  /-- The scope around an unscoped enum. -/
  around : Option ScopeId
  underlying : Option Primitive

def EnumSite.hasName (site : EnumSite) (t : SymbolTable) (name : String) : Bool :=
  (t.lookupIn site.own name .any).isSome ||
    (site.around.bind fun scope => t.lookupIn scope name .any).isSome

/-- A value as that of an enumerator: of the underlying type if there is one, and
otherwise any integer. -/
def EnumSite.convert (site : EnumSite) (value : Constant) (span : Span) :
    Except Diagnostic Constant :=
  match site.underlying with
  | some type => (value.convert type).mapError (Diagnostic.ofConversion span)
  | none =>
    if value.isIntegral then .ok value
    else .error (.notConstant span (.enumeratorNotIntegral value))

/-- The enumerator as a symbol of the enum, and visible around an unscoped one. -/
def EnumSite.insert (site : EnumSite) (t : SymbolTable) (name : String) (value : Constant)
    (span : Span) : SymbolId × SymbolTable :=
  let (id, t) := t.insertEntity site.own name (.enumerator value) span
  (id, (site.around.map fun scope => t.expose scope name id).getD t)

/-- The enumerators of an enum, the first of which is `next` if it has no value. -/
def declareEnumerators (site : EnumSite) (next : Constant) :
    List EnumeratorSpecifier → Analysis (List SymbolId)
  | [] => return []
  | ⟨name, value, span⟩ :: rest => do
    if site.hasName (← get).table name then throw ⟨.redefinition name, span⟩
    let given ← (value.map evaluate).getD (return next)
    let value ← ofExcept (site.convert given span)
    let following ← ofExcept (value.successor.mapError (Diagnostic.notConstant span))
    let id ← changeTable fun t => site.insert t name value span
    return id :: (← declareEnumerators site following rest)

def defineEnum (id : SymbolId) (enumerators : List EnumeratorSpecifier) (span : Span) :
    Analysis Unit := do
  let target ← symbol id
  match target.entity with
  | .enumeration data =>
    if target.isDefined then throw ⟨.redefinition target.name, span⟩
    let own ← ownScope id span
    let types := (← get).types
    let site : EnumSite :=
      { own
        around := if data.isScoped then none else some target.enclosing
        underlying := data.underlying.bind types.primitive? }
    let ids ← declareEnumerators site (.int 0) enumerators
    modifyTable fun t =>
      (t.modifyEnum id fun data => { data with enumerators := ids }).markDefined id
  | _ => throw ⟨.notAType target.name, span⟩

end TemplateAnalysis.Session
