import TemplateAnalysis.Ast.Basic
import TemplateAnalysis.Diagnostic
import TemplateAnalysis.Template.Kind

/-!
# Misused trees

A tree misuses the parameters of a template if a dependent name in it stands for a parameter
of the other kind, or if it expands a pack where no list holds the expansion. Of the
parameters only the kinds count; whether they are packs does not.
-/

namespace TemplateAnalysis

/-- A misuse that a tree can make of the parameters of a template. -/
inductive TreeMisuse where
  | typeParameterBoundToValue (name : String)
  | valueParameterBoundToType (name : String)
  | strayExpansion
  | strayBaseExpansion
deriving DecidableEq, Repr

def TreeMisuse.misuse : TreeMisuse → Misuse
  | typeParameterBoundToValue name => .typeParameterBoundToValue name
  | valueParameterBoundToType name => .valueParameterBoundToType name
  | strayExpansion => .strayExpansion
  | strayBaseExpansion => .strayBaseExpansion

def misusesOfType (kinds : List ParameterKind) (text : String) (index : Nat) : List TreeMisuse :=
  match kinds[index]? with
  | some .nonType => [.typeParameterBoundToValue text]
  | _ => []

def misusesOfValue (kinds : List ParameterKind) (text : String) (index : Nat) : List TreeMisuse :=
  match kinds[index]? with
  | some .type => [.valueParameterBoundToType text]
  | _ => []

mutual

/-- The misuses of parameters of some kinds in a node. -/
def Node.misuses (kinds : List ParameterKind) : Node → List TreeMisuse
  | .literal _ _ | .name _ _ _ | .resolvedType _ _ _ => []
  | .typeParameter text index _ => misusesOfType kinds text index
  | .valueParameter text index _ => misusesOfValue kinds text index
  | .unary _ operand _ => operand.misuses kinds
  | .binary _ left right _ => left.misuses kinds ++ right.misuses kinds
  | .conditional condition whenTrue whenFalse _ =>
    condition.misuses kinds ++ whenTrue.misuses kinds ++ whenFalse.misuses kinds
  | .paren inner _ => inner.misuses kinds
  | .typeId specifiers declarator _ => specifiers.misuses kinds ++ misusesOfParts kinds declarator
  | .templateId _ _ arguments _ => misusesOfArguments kinds arguments
  | .packExpansion _ _ => [.strayExpansion]
  | .base specifier => specifier.misuses kinds
  | .member declaration => declaration.misuses kinds
  | .staticAssert assertion => assertion.misuses kinds
  | .classBody specifier => specifier.misuses kinds

def Specifiers.misuses (kinds : List ParameterKind) : Specifiers → List TreeMisuse
  | ⟨_, named⟩ => misusesOfNode? kinds named

def misusesOfNode? (kinds : List ParameterKind) : Option Node → List TreeMisuse
  | none => []
  | some node => node.misuses kinds

def misusesOfNodes (kinds : List ParameterKind) : List Node → List TreeMisuse
  | [] => []
  | node :: rest => node.misuses kinds ++ misusesOfNodes kinds rest

def misusesOfArguments (kinds : List ParameterKind) : List Node → List TreeMisuse
  | [] => []
  | .packExpansion pattern _ :: rest => pattern.misuses kinds ++ misusesOfArguments kinds rest
  | node :: rest => node.misuses kinds ++ misusesOfArguments kinds rest

def DeclaratorPart.misuses (kinds : List ParameterKind) : DeclaratorPart → List TreeMisuse
  | .name _ _ | .pointer _ _ | .lvalueReference _ | .rvalueReference _ => []
  | .array bound _ => misusesOfNode? kinds bound
  | .function parameters _ _ _ => misusesOfParameters kinds parameters

def misusesOfParts (kinds : List ParameterKind) : List DeclaratorPart → List TreeMisuse
  | [] => []
  | part :: rest => part.misuses kinds ++ misusesOfParts kinds rest

def FunctionParameter.misuses (kinds : List ParameterKind) : FunctionParameter → List TreeMisuse
  | ⟨specifiers, declarator, initializer, _⟩ =>
    specifiers.misuses kinds ++ misusesOfParts kinds declarator ++ misusesOfNode? kinds initializer

def misusesOfParameters (kinds : List ParameterKind) : List FunctionParameter → List TreeMisuse
  | [] => []
  | parameter :: rest => parameter.misuses kinds ++ misusesOfParameters kinds rest

def BaseSpecifier.misuses (kinds : List ParameterKind) : BaseSpecifier → List TreeMisuse
  | ⟨_, _, name, isExpansion, _⟩ =>
    if isExpansion then [.strayBaseExpansion] else name.misuses kinds

def misusesOfBases (kinds : List ParameterKind) : List BaseSpecifier → List TreeMisuse
  | [] => []
  | ⟨_, _, name, _, _⟩ :: rest => name.misuses kinds ++ misusesOfBases kinds rest

def Member.misuses (kinds : List ParameterKind) : Member → List TreeMisuse
  | ⟨_, specifiers, declarator, bitWidth, initializer, _⟩ =>
    specifiers.misuses kinds ++ misusesOfParts kinds declarator ++ misusesOfNode? kinds bitWidth ++
      misusesOfNode? kinds initializer

def StaticAssert.misuses (kinds : List ParameterKind) : StaticAssert → List TreeMisuse
  | ⟨condition, _, _⟩ => condition.misuses kinds

def ClassSpecifier.misuses (kinds : List ParameterKind) : ClassSpecifier → List TreeMisuse
  | ⟨_, _, bases, members, _⟩ => misusesOfBases kinds bases ++ misusesOfNodes kinds members

end

theorem ClassSpecifier.misuses_eq (kinds : List ParameterKind) (specifier : ClassSpecifier) :
    specifier.misuses kinds =
      misusesOfBases kinds specifier.bases ++ misusesOfNodes kinds specifier.members := by
  cases specifier
  rfl

end TemplateAnalysis
