import TemplateAnalysis.Ast.Basic
import TemplateAnalysis.Primitive
import TemplateAnalysis.Quoted

/-!
# Spelling of trees

The text of a tree as declarations are written, with the parts of a declarator
behind the specifiers in the order in which they apply.
-/

namespace TemplateAnalysis

def Qualifiers.before (q : Qualifiers) : String := if q.isNone then "" else q.spelling ++ " "

def Qualifiers.behind (q : Qualifiers) : String := if q.isNone then "" else " " ++ q.spelling

/-- A parameter list from the texts of its parameters. -/
def parameterListText (parameters : List String) (variadic : Bool) : String :=
  "(" ++ ", ".intercalate (parameters ++ if variadic then ["..."] else []) ++ ")"

def KeywordSet.typeText (keywords : KeywordSet) : String :=
  match Primitive.ofKeywords keywords with
  | .ok p => p.name
  | .error _ => "<invalid>"

mutual

/-- The text of a node. -/
def Node.text : Node → String
  | .literal value _ => value.text
  | .name text _ _ => text
  | .typeParameter text _ _ => text
  | .valueParameter text _ _ => text
  | .unary op operand _ => op.text ++ operand.text
  | .binary op left right _ => left.text ++ " " ++ op.text ++ " " ++ right.text
  | .conditional condition whenTrue whenFalse _ =>
    condition.text ++ " ? " ++ whenTrue.text ++ " : " ++ whenFalse.text
  | .paren inner _ => "(" ++ inner.text ++ ")"
  | .typeId specifiers declarator _ => specifiers.text ++ String.join (textsOfParts declarator)
  | .resolvedType _ text _ => text
  | .templateId _ text arguments _ =>
    text ++ "<" ++ ", ".intercalate (textsOfNodes arguments) ++ ">"
  | .packExpansion pattern _ => pattern.text ++ "..."
  | .base specifier => specifier.text
  | .member declaration => declaration.text
  | .staticAssert assertion => assertion.text
  | .classBody specifier => specifier.text

/-- The text of specifiers: their qualifiers, then the type. -/
def Specifiers.text : Specifiers → String
  | ⟨keywords, named⟩ =>
    keywords.qualifiers.before ++ (textOfNode? named).getD keywords.typeText

def textOfNode? : Option Node → Option String
  | none => none
  | some node => some node.text

def textsOfNodes : List Node → List String
  | [] => []
  | node :: rest => node.text :: textsOfNodes rest

def DeclaratorPart.text : DeclaratorPart → String
  | .name text _ => " " ++ text
  | .pointer qualifiers _ => "*" ++ qualifiers.behind
  | .lvalueReference _ => "&"
  | .rvalueReference _ => "&&"
  | .array bound _ => "[" ++ (textOfNode? bound).getD "" ++ "]"
  | .function parameters variadic qualifiers _ =>
    parameterListText (textsOfParameters parameters) variadic ++ qualifiers.behind

def textsOfParts : List DeclaratorPart → List String
  | [] => []
  | part :: rest => part.text :: textsOfParts rest

def FunctionParameter.text : FunctionParameter → String
  | ⟨specifiers, declarator, initializer, _⟩ =>
    specifiers.text ++ String.join (textsOfParts declarator) ++
      ((textOfNode? initializer).map (" = " ++ ·)).getD ""

def textsOfParameters : List FunctionParameter → List String
  | [] => []
  | parameter :: rest => parameter.text :: textsOfParameters rest

def BaseSpecifier.text : BaseSpecifier → String
  | ⟨access, isVirtual, name, isExpansion, _⟩ =>
    (if isVirtual then "virtual " else "") ++ access.name ++ " " ++ name.text ++
      (if isExpansion then "..." else "")

def textsOfBases : List BaseSpecifier → List String
  | [] => []
  | base :: rest => base.text :: textsOfBases rest

def Member.text : Member → String
  | ⟨_, specifiers, declarator, bitWidth, initializer, _⟩ =>
    specifiers.text ++ String.join (textsOfParts declarator) ++
      ((textOfNode? bitWidth).map (" : " ++ ·)).getD "" ++
      ((textOfNode? initializer).map (" = " ++ ·)).getD "" ++ ";"

def StaticAssert.text : StaticAssert → String
  | ⟨condition, message, _⟩ =>
    "static_assert(" ++ condition.text ++ ((message.map (", " ++ Quoted.text ·)).getD "") ++ ");"

def ClassSpecifier.text : ClassSpecifier → String
  | ⟨key, name, bases, members, _⟩ =>
    key.name ++ " " ++ name ++
      (match textsOfBases bases with
        | [] => ""
        | texts => " : " ++ ", ".intercalate texts) ++
      " \x7b" ++ String.join ((textsOfNodes members).map (" " ++ ·)) ++ " \x7d"

end

def Declarator.text (d : Declarator) : String := String.join (textsOfParts d)

end TemplateAnalysis
