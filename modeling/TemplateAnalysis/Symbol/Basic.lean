import TemplateAnalysis.Fingerprint
import TemplateAnalysis.Symbol.Kind
import TemplateAnalysis.Template.Argument
import TemplateAnalysis.Template.Parameter

/-!
# Symbols

A symbol is a named entity with its names, its place, and what is known of it.
What is known depends on its kind, so the kind is read off the entity.
-/

namespace TemplateAnalysis

structure BaseClass where
  symbol : SymbolId
  access : Access
  isVirtual : Bool
deriving DecidableEq, Inhabited

/-- The template and the arguments that a class is an instance of. -/
structure InstanceOrigin where
  template : SymbolId
  arguments : Arguments
deriving Inhabited

structure ClassData where
  key : ClassKey
  bases : List BaseClass
  /-- The members as written, for an instance after substitution. -/
  members : List Node
  origin : Option InstanceOrigin
deriving Inhabited

structure EnumData where
  isScoped : Bool
  underlying : Option TypeId
  enumerators : List SymbolId
deriving Inhabited

structure FunctionData where
  type : TypeId
  keywords : KeywordSet
  /-- The encoding of the parameter list, which tells overloads apart. -/
  signature : String
deriving Inhabited

structure ObjectData where
  type : TypeId
  keywords : KeywordSet
  /-- The value of a constant object. -/
  value : Option Constant
deriving Inhabited

/-- What a template is a template of. -/
inductive TemplatedEntity where
  | classTemplate (key : ClassKey)
  | aliasTemplate
  | variableTemplate
deriving DecidableEq, Inhabited

namespace TemplatedEntity

/-- The kind of symbol that an instance would be. -/
def kind : TemplatedEntity → SymbolKind
  | classTemplate _ => .classType
  | aliasTemplate => .typedef
  | variableTemplate => .object

def name : TemplatedEntity → String
  | classTemplate key => key.name
  | aliasTemplate => "alias"
  | variableTemplate => "variable"

def ofName? (text : String) : Option TemplatedEntity :=
  if text = aliasTemplate.name then some aliasTemplate
  else if text = variableTemplate.name then some variableTemplate
  else (ClassKey.ofName? text).map classTemplate

/-- What a template is a template of when a symbol of this kind is declared behind
its parameters. -/
def ofKind? : SymbolKind → Option TemplatedEntity
  | .classType => some (classTemplate .classKey)
  | .typedef => some aliasTemplate
  | .object => some variableTemplate
  | _ => none

end TemplatedEntity

structure TemplateData where
  parameters : ParameterList
  entity : TemplatedEntity
  /-- The class body, once a class template is defined. -/
  pattern : Option ClassSpecifier
  isEntityDefined : Bool
deriving Inhabited

/-- The class body that instances of a template are made of, if it is defined. -/
def TemplateData.body? (data : TemplateData) : Option ClassSpecifier :=
  if data.isEntityDefined then data.pattern else none

structure ParameterData where
  index : Nat
  kind : ParameterKind
  isPack : Bool
deriving DecidableEq, Inhabited

/-- What a symbol denotes, with what is known of it. -/
inductive Entity where
  | nameSpace
  | classType (data : ClassData)
  | enumeration (data : EnumData)
  | enumerator (value : Constant)
  | typedef (target : TypeId)
  | function (data : FunctionData)
  | object (data : ObjectData)
  | template (data : TemplateData)
  | templateParameter (data : ParameterData)
deriving Inhabited

namespace Entity

def kind : Entity → SymbolKind
  | nameSpace => .nameSpace
  | classType _ => .classType
  | enumeration _ => .enumeration
  | enumerator _ => .enumerator
  | typedef _ => .typedef
  | function _ => .function
  | object _ => .object
  | template _ => .template
  | templateParameter _ => .templateParameter

def class? : Entity → Option ClassData
  | classType data => some data
  | _ => none

def enum? : Entity → Option EnumData
  | enumeration data => some data
  | _ => none

def template? : Entity → Option TemplateData
  | template data => some data
  | _ => none

def parameter? : Entity → Option ParameterData
  | templateParameter data => some data
  | _ => none

end Entity

structure Symbol where
  /-- The name as written; for an instance the template with its arguments. -/
  name : String
  /-- The internal name: the sized name, for a function with its signature, for an
  instance its key. -/
  mangled : String
  fingerprint : Fingerprint
  /-- The scope the symbol is declared in. -/
  enclosing : ScopeId
  /-- The scope that belongs to the symbol. -/
  scope : Option ScopeId
  isDefined : Bool
  /-- The type of a class or an enum, once it was asked for. -/
  type : Option TypeId
  span : Span
  entity : Entity
deriving Inhabited

def Symbol.kind (s : Symbol) : SymbolKind := s.entity.kind

end TemplateAnalysis
