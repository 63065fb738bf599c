import Mathlib.Data.Option.Basic
import TemplateAnalysis.Proofs.Keywords
import TemplateAnalysis.Proofs.Session.Rules
import TemplateAnalysis.Proofs.TypeGraph.Operations

/-!
# What specifiers and declarators denote

Specifiers with a declarator denote a tree, if they denote a type at all: keywords the
fundamental type that they spell, a name the class or enum or the target of the typedef, a
template-id the instance that instantiation returns for it, with the qualifiers merged into
it and the parts of the declarator applied in order. The denotation is read in a session, but
it neither uses nor changes the graph of types. Without template-ids it depends on nothing
but the symbols and the types that are named.
-/

namespace TemplateAnalysis

open Session Analysis

namespace Session

def namedTree? (s : Session) (id : SymbolId) : Option TypeTree :=
  match (s.table.symbol id).entity with
  | .classType _ | .enumeration _ => some (.base (.symbol id .none))
  | .typedef target => some (s.types.tree target)
  | _ => none

def bound? (s : Session) (expression : Node) : Option UInt64 :=
  (s.table.evaluate expression).toOption.bind (·.uint64?)

/-- The instance that instantiation returns. -/
def instantiated? (s : Session) (template : SymbolId) (arguments : List Node) (span : Span) :
    Option SymbolId :=
  (exec (instantiate template arguments span) s).1.toOption

mutual

/-- The type that a node denotes. -/
def denoteNode (s : Session) : Node → Option TypeTree
  | .typeId specifiers declarator _ => do
    s.denoteParts (← s.denoteSpecifiers specifiers) declarator
  | .resolvedType type _ _ => return s.types.tree type
  | .paren inner _ => s.denoteNode inner
  | .name _ id _ => s.namedTree? id
  | .templateId template _ arguments span => do
    return .base (.symbol (← s.instantiated? template arguments span) .none)
  | _ => none

def denoteSpecifiers (s : Session) : Specifiers → Option TypeTree
  | ⟨keywords, none⟩ => do
    return .base (.primitive (← keywords.spelled?) keywords.qualifiers)
  | ⟨keywords, some named⟩ =>
    if keywords.specifiesType then none
    else do return (← s.denoteNode named).qualify keywords.qualifiers

def denotePart (s : Session) (current : TypeTree) : DeclaratorPart → Option TypeTree
  | .name _ _ => return current
  | .pointer qualifiers _ => do
    guard current.isPointee
    return .pointer current qualifiers
  | .lvalueReference _ => do
    guard current.isReferee
    return current.toLvalueReference
  | .rvalueReference _ => do
    guard current.isReferee
    return current.toRvalueReference
  | .array none _ => do
    guard current.isElement
    return .array current none
  | .array (some expression) _ => do
    guard current.isElement
    return .array current (some (← s.bound? expression))
  | .function parameters variadic qualifiers _ => do
    guard current.isResult
    let types ← s.denoteParameters (parameters.length == 1) parameters
    return .function current types variadic qualifiers

def denoteParts (s : Session) (current : TypeTree) : List DeclaratorPart → Option TypeTree
  | [] => return current
  | part :: rest => do s.denoteParts (← s.denotePart current part) rest

/-- The adjusted type of a function parameter; of an unnamed `void` that stands alone
there is none. -/
def denoteParameter (s : Session) (alone : Bool) : FunctionParameter → Option (List TypeTree)
  | ⟨specifiers, declarator, _, _⟩ => do
    let type ← s.denoteParts (← s.denoteSpecifiers specifiers) declarator
    if type.isVoid then
      guard (alone && declarator.isEmpty)
      return []
    else return [type.adjusted]

def denoteParameters (s : Session) (alone : Bool) : List FunctionParameter → Option (List TypeTree)
  | [] => return []
  | parameter :: rest => do
    let types ← s.denoteParameter alone parameter
    return types ++ (← s.denoteParameters alone rest)

end

/-- The type that specifiers with a declarator denote. -/
def denotedType (s : Session) (specifiers : Specifiers) (declarator : Declarator) :
    Option TypeTree := do
  s.denoteParts (← s.denoteSpecifiers specifiers) declarator

end Session

theorem Session.Grows.namedTree?_eq {s u : Session} (h : s.Grows u) (hs : s.Closed)
    (hu : u.Closed) {id : SymbolId} (hid : s.table.HasSymbol id) {t : TypeTree}
    (ht : s.namedTree? id = some t) : u.namedTree? id = some t := by
  have hentity := (h.table.symbol id hid).entity
  have hknown := (hs.symbol id hid).known
  rw [namedTree?] at ht ⊢
  generalize (s.table.symbol id).entity = e at hentity hknown ht
  generalize (u.table.symbol id).entity = f at hentity
  cases hentity with
  | same =>
    cases e with
    | typedef target =>
      rw [← ht]
      exact congrArg some (h.types.tree_eq hs.types hu.types (hknown (.type target)
        (by simp [Entity.handles])))
    | _ => exact ht
  | classType | enumeration => exact ht
  | object | template => cases ht

/-! ### Trees without template-ids -/

mutual

/-- Whether no type in a node is an instance of a template. -/
def Node.IsTemplateFree : Node → Prop
  | .typeId specifiers declarator _ => specifiers.IsTemplateFree ∧ arePartsTemplateFree declarator
  | .paren inner _ => inner.IsTemplateFree
  | .templateId _ _ _ _ => False
  | _ => True

def Specifiers.IsTemplateFree : Specifiers → Prop
  | ⟨_, none⟩ => True
  | ⟨_, some named⟩ => named.IsTemplateFree

def DeclaratorPart.IsTemplateFree : DeclaratorPart → Prop
  | .function parameters _ _ _ => areParametersTemplateFree parameters
  | _ => True

def arePartsTemplateFree : List DeclaratorPart → Prop
  | [] => True
  | part :: rest => part.IsTemplateFree ∧ arePartsTemplateFree rest

def FunctionParameter.IsTemplateFree : FunctionParameter → Prop
  | ⟨specifiers, declarator, _, _⟩ =>
    specifiers.IsTemplateFree ∧ arePartsTemplateFree declarator

def areParametersTemplateFree : List FunctionParameter → Prop
  | [] => True
  | parameter :: rest => parameter.IsTemplateFree ∧ areParametersTemplateFree rest

end

/-! ### Sessions that agree -/

/-- An expression has the same value where its names stand for the same. -/
theorem Node.evaluate_congr {known : Handle → Prop} {valueOf valueOf' : SymbolId → NamedValue}
    (h : ∀ id, known (.symbol id) → valueOf' id = valueOf id) :
    ∀ node : Node, AllKnown known node.handles → node.evaluate valueOf' = node.evaluate valueOf
  | .literal _ _, _ => rfl
  | .paren inner _, hknown => inner.evaluate_congr h hknown
  | .name text symbol span, hknown => by
    rw [Node.evaluate, Node.evaluate, h symbol hknown.head]
  | .unary op operand span, hknown => by
    rw [Node.evaluate, Node.evaluate, operand.evaluate_congr h hknown]
  | .binary op left right span, hknown => by
    have hleft := left.evaluate_congr h hknown.left
    have hright := right.evaluate_congr h hknown.right
    cases op <;> simp only [Node.evaluate, hleft, hright]
  | .conditional condition whenTrue whenFalse _, hknown => by
    rw [Node.evaluate, Node.evaluate, condition.evaluate_congr h hknown.left.left,
      whenTrue.evaluate_congr h hknown.left.right, whenFalse.evaluate_congr h hknown.right]
  | .typeParameter _ _ _, _ | .valueParameter _ _ _, _ | .typeId _ _ _, _ | .resolvedType _ _ _, _
  | .templateId _ _ _ _, _ | .packExpansion _ _, _ | .base _, _ | .member _, _
  | .staticAssert _, _ | .classBody _, _ => rfl
termination_by structural node => node

namespace Session

/-- What a session knows means the same in another one. -/
structure Agrees (s u : Session) : Prop where
  named : ∀ id, s.table.HasSymbol id → u.namedTree? id = s.namedTree? id
  bound : ∀ expression : Node, AllKnown s.Known expression.handles →
    u.bound? expression = s.bound? expression
  tree : ∀ type, s.types.Has type → u.types.tree type = s.types.tree type

/-- Steps that spare the symbols there were leave what is known the meaning it had. -/
theorem Spares.agrees {s u : Session} (h : s.Spares s.table.HasSymbol u) (hs : s.Closed)
    (hu : u.Closed) (hgrows : s.Grows u) : s.Agrees u := by
  have htree : ∀ type, s.types.Has type → u.types.tree type = s.types.tree type :=
    fun type htype => hgrows.types.tree_eq hs.types hu.types htype
  refine ⟨fun id hid => ?_, fun expression hknown => ?_, htree⟩
  · rw [namedTree?, namedTree?, h.entity_eq hid]
    cases hentity : (s.table.symbol id).entity with
    | typedef target =>
      have hhas := (hs.symbol id hid).known (.type target) (by rw [hentity]; simp [Entity.handles])
      exact congrArg some (htree target hhas)
    | _ => rfl
  · have hvalues : ∀ id, s.Known (.symbol id) → u.table.valueOf id = s.table.valueOf id :=
      fun id hid => congrArg Entity.namedValue (h.entity_eq hid)
    rw [bound?, bound?, SymbolTable.evaluate, SymbolTable.evaluate,
      expression.evaluate_congr hvalues hknown]

section Agreement

variable {s u : Session}

mutual

theorem Agrees.denoteNode (h : s.Agrees u) : ∀ node : Node, AllKnown s.Known node.handles →
    node.IsTemplateFree → u.denoteNode node = s.denoteNode node
  | .typeId specifiers declarator _, hknown, hfree => by
    rw [Session.denoteNode, Session.denoteNode, h.denoteSpecifiers specifiers hknown.left hfree.1]
    exact congrArg _ (funext fun t => h.denoteParts t declarator hknown.right hfree.2)
  | .resolvedType type _ _, hknown, _ => congrArg some (h.tree type hknown.head)
  | .paren inner _, hknown, hfree => h.denoteNode inner hknown hfree
  | .name _ id _, hknown, _ => h.named id hknown.head
  | .templateId _ _ _ _, _, hfree => absurd hfree id
  | .typeParameter _ _ _, _, _ | .valueParameter _ _ _, _, _ | .literal _ _, _, _
  | .unary _ _ _, _, _ | .binary _ _ _ _, _, _ | .conditional _ _ _ _, _, _
  | .packExpansion _ _, _, _ | .base _, _, _ | .member _, _, _ | .staticAssert _, _, _
  | .classBody _, _, _ => rfl
termination_by structural node => node

theorem Agrees.denoteSpecifiers (h : s.Agrees u) : ∀ specifiers : Specifiers,
    AllKnown s.Known specifiers.handles → specifiers.IsTemplateFree →
      u.denoteSpecifiers specifiers = s.denoteSpecifiers specifiers
  | ⟨_, none⟩, _, _ => rfl
  | ⟨_, some named⟩, hknown, hfree => by
    rw [Session.denoteSpecifiers, Session.denoteSpecifiers, h.denoteNode named hknown hfree]
termination_by structural specifiers => specifiers

theorem Agrees.denotePart (h : s.Agrees u) (t : TypeTree) : ∀ part : DeclaratorPart,
    AllKnown s.Known part.handles → part.IsTemplateFree → u.denotePart t part = s.denotePart t part
  | .function parameters _ _ _, hknown, hfree => by
    rw [Session.denotePart, Session.denotePart, h.denoteParameters _ parameters hknown hfree]
  | .array (some expression) _, hknown, _ => by
    rw [Session.denotePart, Session.denotePart, h.bound expression hknown]
  | .name _ _, _, _ | .pointer _ _, _, _ | .lvalueReference _, _, _ | .rvalueReference _, _, _
  | .array none _, _, _ => rfl
termination_by structural part => part

theorem Agrees.denoteParts (h : s.Agrees u) : ∀ (t : TypeTree) (parts : List DeclaratorPart),
    AllKnown s.Known (handlesOfParts parts) → arePartsTemplateFree parts →
      u.denoteParts t parts = s.denoteParts t parts
  | _, [], _, _ => rfl
  | t, part :: rest, hknown, hfree => by
    rw [Session.denoteParts, Session.denoteParts, h.denotePart t part hknown.left hfree.1]
    exact congrArg _ (funext fun t' => h.denoteParts t' rest hknown.right hfree.2)
termination_by structural _ parts => parts

theorem Agrees.denoteParameter (h : s.Agrees u) (alone : Bool) : ∀ parameter : FunctionParameter,
    AllKnown s.Known parameter.handles → parameter.IsTemplateFree →
      u.denoteParameter alone parameter = s.denoteParameter alone parameter
  | ⟨specifiers, declarator, _, _⟩, hknown, hfree => by
    rw [Session.denoteParameter, Session.denoteParameter,
      h.denoteSpecifiers specifiers hknown.left.left hfree.1]
    refine congrArg _ (funext fun t => ?_)
    rw [h.denoteParts t declarator hknown.left.right hfree.2]
termination_by structural parameter => parameter

theorem Agrees.denoteParameters (h : s.Agrees u) (alone : Bool) :
    ∀ parameters : List FunctionParameter, AllKnown s.Known (handlesOfParameters parameters) →
      areParametersTemplateFree parameters →
        u.denoteParameters alone parameters = s.denoteParameters alone parameters
  | [], _, _ => rfl
  | parameter :: rest, hknown, hfree => by
    rw [Session.denoteParameters, Session.denoteParameters,
      h.denoteParameter alone parameter hknown.left hfree.1,
      h.denoteParameters alone rest hknown.right hfree.2]
termination_by structural parameters => parameters

end

theorem Agrees.denotedType (h : s.Agrees u) {specifiers : Specifiers} {declarator : Declarator}
    (hspecifiers : AllKnown s.Known specifiers.handles)
    (hdeclarator : AllKnown s.Known (handlesOfParts declarator))
    (hfree : specifiers.IsTemplateFree) (hfree' : arePartsTemplateFree declarator) :
    u.denotedType specifiers declarator = s.denotedType specifiers declarator := by
  rw [Session.denotedType, Session.denotedType, h.denoteSpecifiers specifiers hspecifiers hfree]
  exact congrArg _ (funext fun t => h.denoteParts t declarator hdeclarator hfree')

end Agreement

end Session

end TemplateAnalysis
