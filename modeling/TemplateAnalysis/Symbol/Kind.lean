/-!
# Kinds of symbols

What a symbol denotes, and sets of kinds that a lookup accepts. A set is a word
with one bit per kind, at the position of the kind in `SymbolKind.all`.
-/

namespace TemplateAnalysis

inductive SymbolKind where
  | nameSpace | classType | enumeration | enumerator | typedef | function | object | template
  | templateParameter
deriving DecidableEq, Inhabited, Repr

namespace SymbolKind

def all : List SymbolKind :=
  [nameSpace, classType, enumeration, enumerator, typedef, function, object, template,
   templateParameter]

def name : SymbolKind → String
  | nameSpace => "namespace"
  | classType => "class"
  | enumeration => "enum"
  | enumerator => "enumerator"
  | typedef => "typedef"
  | function => "function"
  | object => "object"
  | template => "template"
  | templateParameter => "template parameter"

def ofName? (text : String) : Option SymbolKind := all.find? fun k => k.name == text

def position (k : SymbolKind) : Nat := k.ctorIdx

def ofPosition? (n : Nat) : Option SymbolKind := all[n]?

def hasScope : SymbolKind → Bool
  | nameSpace | classType | enumeration | template => true
  | _ => false

end SymbolKind

structure KindSet where
  bits : BitVec 9
deriving DecidableEq, Inhabited, Repr

namespace KindSet

def empty : KindSet := ⟨0⟩

def any : KindSet := ⟨BitVec.allOnes 9⟩

def singleton (k : SymbolKind) : KindSet := ⟨1#9 <<< k.position⟩

def union (s t : KindSet) : KindSet := ⟨s.bits ||| t.bits⟩

def ofList (ks : List SymbolKind) : KindSet :=
  ks.foldr (fun k s => (singleton k).union s) empty

/-- The set of the low bits of a number. -/
def ofNat (n : Nat) : KindSet := ⟨BitVec.ofNat 9 n⟩

def accepts (s : KindSet) (k : SymbolKind) : Bool := s.bits.getLsbD k.position

def toList (s : KindSet) : List SymbolKind := SymbolKind.all.filter s.accepts

/-- What may stand as the name of a type. -/
def types : KindSet := ofList [.classType, .enumeration, .typedef, .templateParameter]

/-- What may stand in an expression. -/
def values : KindSet := ofList [.enumerator, .function, .object, .templateParameter]

/-- What may stand before a double colon. -/
def scopes : KindSet := ofList [.nameSpace, .classType, .enumeration]

/-- The set of a name: that of a kind, or of one of the groups. -/
def ofName? (text : String) : Option KindSet :=
  if text = "type" then some types
  else if text = "value" then some values
  else if text = "scope" then some scopes
  else if text = "any" then some any
  else (SymbolKind.ofName? text).map singleton

def text (s : KindSet) : String := " or ".intercalate (s.toList.map (·.name))

theorem accepts_any (k : SymbolKind) : any.accepts k = true := by cases k <;> decide

theorem accepts_singleton (k l : SymbolKind) : (singleton k).accepts l = decide (k = l) := by
  cases k <;> cases l <;> decide

end KindSet

end TemplateAnalysis
