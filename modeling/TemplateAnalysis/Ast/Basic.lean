import TemplateAnalysis.Access
import TemplateAnalysis.Constant.Basic
import TemplateAnalysis.Handle
import TemplateAnalysis.Keyword
import TemplateAnalysis.Operator
import TemplateAnalysis.Span

/-!
# Trees

The tree of a declaration, with its names already resolved. In the body of a
template a parameter stands as `typeParameter` or `valueParameter` with its
position in the parameter list. A declarator is the list of its parts in the
order in which they apply to the type of the specifiers; the empty list is no
declarator. Each part of a tree has one type here, so that a function on trees is
one structural recursion with a clause per type.
-/

namespace TemplateAnalysis

mutual

/-- A node of a tree: an expression, a type, a class member or a class body. -/
inductive Node where
  | literal (value : Constant) (span : Span)
  | name (text : String) (symbol : SymbolId) (span : Span)
  /-- A template parameter that is a type. -/
  | typeParameter (text : String) (index : Nat) (span : Span)
  /-- A template parameter that is a value. -/
  | valueParameter (text : String) (index : Nat) (span : Span)
  | unary (op : UnaryOp) (operand : Node) (span : Span)
  | binary (op : BinaryOp) (left right : Node) (span : Span)
  | conditional (condition whenTrue whenFalse : Node) (span : Span)
  | paren (inner : Node) (span : Span)
  | typeId (specifiers : Specifiers) (declarator : List DeclaratorPart) (span : Span)
  /-- A type that is known already, with the text it was written as. -/
  | resolvedType (type : TypeId) (text : String) (span : Span)
  /-- The name of a template with arguments. -/
  | templateId (template : SymbolId) (text : String) (arguments : List Node) (span : Span)
  /-- A pattern that is repeated for every element of the packs it mentions. -/
  | packExpansion (pattern : Node) (span : Span)
  | base (specifier : BaseSpecifier)
  | member (declaration : Member)
  | staticAssert (assertion : StaticAssert)
  | classBody (specifier : ClassSpecifier)

/-- Keywords, and the type they stand beside if it is named. -/
structure Specifiers where
  keywords : KeywordSet
  named : Option Node

inductive DeclaratorPart where
  /-- The declared name. -/
  | name (text : String) (span : Span)
  | pointer (qualifiers : Qualifiers) (span : Span)
  | lvalueReference (span : Span)
  | rvalueReference (span : Span)
  | array (bound : Option Node) (span : Span)
  | function (parameters : List FunctionParameter) (variadic : Bool) (qualifiers : Qualifiers)
      (span : Span)

structure FunctionParameter where
  specifiers : Specifiers
  declarator : List DeclaratorPart
  initializer : Option Node
  span : Span

structure BaseSpecifier where
  access : Access
  isVirtual : Bool
  name : Node
  /-- The entry stands for one base per element of a pack. -/
  isExpansion : Bool
  span : Span

structure Member where
  access : Access
  specifiers : Specifiers
  declarator : List DeclaratorPart
  bitWidth : Option Node
  initializer : Option Node
  span : Span

/-- A condition that has to hold, with a message for when it does not. -/
structure StaticAssert where
  condition : Node
  message : Option String
  span : Span

/-- A class body. For a class template it is the pattern of its instances. -/
structure ClassSpecifier where
  key : ClassKey
  name : String
  bases : List BaseSpecifier
  members : List Node
  span : Span

end

instance : Inhabited Node := ⟨.literal default default⟩

instance : Inhabited Specifiers := ⟨⟨.empty, none⟩⟩

instance : Inhabited ClassSpecifier := ⟨⟨.classKey, "", [], [], default⟩⟩

namespace Node

def span : Node → Span
  | literal _ span | name _ _ span | typeParameter _ _ span | valueParameter _ _ span
  | unary _ _ span | binary _ _ _ span | conditional _ _ _ span | paren _ span
  | typeId _ _ span | resolvedType _ _ span | templateId _ _ _ span | packExpansion _ span => span
  | base specifier => specifier.span
  | member declaration => declaration.span
  | staticAssert assertion => assertion.span
  | classBody specifier => specifier.span

def description : Node → String
  | literal _ _ => "literal"
  | name _ _ _ => "name"
  | typeParameter _ _ _ => "dependent type name"
  | valueParameter _ _ _ => "dependent value"
  | unary _ _ _ | binary _ _ _ _ | conditional _ _ _ _ | paren _ _ => "expression"
  | typeId _ _ _ | resolvedType _ _ _ => "type-id"
  | templateId _ _ _ _ => "template-id"
  | packExpansion _ _ => "pack expansion"
  | base _ => "base specifier"
  | member _ => "member declaration"
  | staticAssert _ => "static_assert"
  | classBody _ => "class specifier"

/-- Whether a node is a type whatever its names denote. -/
def isTypeForm : Node → Bool
  | typeId _ _ _ | resolvedType _ _ _ | typeParameter _ _ _ | templateId _ _ _ _ => true
  | _ => false

def isExpansion : Node → Bool
  | packExpansion _ _ => true
  | _ => false

end Node

namespace DeclaratorPart

def span : DeclaratorPart → Span
  | name _ span | pointer _ span | lvalueReference span | rvalueReference span
  | array _ span | function _ _ _ span => span

def name? : DeclaratorPart → Option String
  | name text _ => some text
  | _ => none

def isFunction : DeclaratorPart → Bool
  | function _ _ _ _ => true
  | _ => false

end DeclaratorPart

/-- A declarator: its parts in the order in which they apply. -/
abbrev Declarator := List DeclaratorPart

namespace Declarator

/-- The declared name: the first part that is one. -/
def name? (d : Declarator) : Option String := d.findSome? DeclaratorPart.name?

/-- Whether the last part that forms a type is a parameter list. -/
def isFunction (d : Declarator) : Bool :=
  ((d.filter (·.name?.isNone)).getLast?.map (·.isFunction)).getD false

def isUniform : Declarator → Bool
  | [] => true
  | part :: rest => rest.all (·.span == part.span)

end Declarator

end TemplateAnalysis
