import TemplateAnalysis.Ast.ParameterUse
import TemplateAnalysis.Diagnostic
import TemplateAnalysis.Template.Argument

/-!
# Substitution of arguments

A tree is rebuilt with every template parameter replaced by its argument. A pack
expansion is repeated by the list that holds it, an argument list or a base list:
its pattern is substituted once per element of the packs it mentions, with the
pack narrowed to that element.
-/

namespace TemplateAnalysis

/-- The argument bound to the parameter of a dependent name. -/
def Arguments.lookup (args : Arguments) (index : Nat) (span : Span) :
    Except Diagnostic TemplateArgument :=
  match args[index]? with
  | some argument => .ok argument
  | none => .error ⟨.parameterIndexOutOfRange index args.length, span⟩

/-- The packs among some parameters, with the number of elements they all have. -/
structure PackSelection where
  packs : List Nat
  count : Option Nat

/-- One more parameter: if it is a pack, its length has to be that of the packs
before it. -/
def PackSelection.add (args : Arguments) (span : Span) (selection : PackSelection) (index : Nat) :
    Except Diagnostic PackSelection := do
  let argument ← args.lookup index span
  match argument.elements? with
  | none => .ok selection
  | some elements =>
    match selection.count with
    | some n =>
      if n = elements.length then .ok { selection with packs := selection.packs ++ [index] }
      else .error (.invalidPack span (.mismatchedLengths n elements.length))
    | none => .ok ⟨selection.packs ++ [index], some elements.length⟩

/-- The argument lists for the repetitions of a pattern that mentions the given
parameters: one per element of the packs among them. -/
def Arguments.repetitions (args : Arguments) (uses : List Nat) (span : Span) :
    Except Diagnostic (List Arguments) := do
  let selection ← (increasing uses).foldlM (PackSelection.add args span) ⟨[], none⟩
  match selection.count with
  | none => .error (.invalidPack span .noPack)
  | some n => .ok ((List.range n).map (args.withPackElement selection.packs))

mutual

/-- A node with the arguments in the place of the parameters. -/
def Node.substitute (args : Arguments) : Node → Except Diagnostic Node
  | .literal value span => .ok (.literal value span)
  | .name text symbol span => .ok (.name text symbol span)
  | .resolvedType type text span => .ok (.resolvedType type text span)
  | .typeParameter text index span => do
    match ← args.lookup index span with
    | .type type shown => .ok (.resolvedType type shown span)
    | .value _ => .error (.internal span (.typeParameterBoundToValue text))
    | .pack _ _ => .error (.invalidPack span (.unexpanded text))
  | .valueParameter text index span => do
    match ← args.lookup index span with
    | .value value => .ok (.literal value span)
    | .type _ _ => .error (.internal span (.valueParameterBoundToType text))
    | .pack _ _ => .error (.invalidPack span (.unexpanded text))
  | .unary op operand span => return .unary op (← operand.substitute args) span
  | .binary op left right span =>
    return .binary op (← left.substitute args) (← right.substitute args) span
  | .conditional condition whenTrue whenFalse span =>
    return .conditional (← condition.substitute args) (← whenTrue.substitute args)
      (← whenFalse.substitute args) span
  | .paren inner span => return .paren (← inner.substitute args) span
  | .typeId specifiers declarator span =>
    return .typeId (← specifiers.substitute args) (← substituteParts args declarator) span
  | .templateId template text arguments span =>
    return .templateId template text (← substituteArguments args arguments) span
  | .packExpansion _ span => .error (.internal span .strayExpansion)
  | .base specifier => return .base (← specifier.substitute args)
  | .member declaration => return .member (← declaration.substitute args)
  | .staticAssert assertion => return .staticAssert (← assertion.substitute args)
  | .classBody specifier => return .classBody (← specifier.substitute args)

def Specifiers.substitute (args : Arguments) : Specifiers → Except Diagnostic Specifiers
  | ⟨keywords, named⟩ => return ⟨keywords, ← substituteNode? args named⟩

def substituteNode? (args : Arguments) : Option Node → Except Diagnostic (Option Node)
  | none => .ok none
  | some node => return some (← node.substitute args)

/-- The nodes of a list that expands no packs. -/
def substituteNodes (args : Arguments) : List Node → Except Diagnostic (List Node)
  | [] => .ok []
  | node :: rest => return (← node.substitute args) :: (← substituteNodes args rest)

/-- The nodes of an argument list; a pack expansion gives one node per element. -/
def substituteArguments (args : Arguments) : List Node → Except Diagnostic (List Node)
  | [] => .ok []
  | .packExpansion pattern span :: rest => do
    let repetitions ← args.repetitions pattern.parameterUses span
    let expanded ← repetitions.mapM fun narrowed => pattern.substitute narrowed
    return expanded ++ (← substituteArguments args rest)
  | node :: rest => return (← node.substitute args) :: (← substituteArguments args rest)

def DeclaratorPart.substitute (args : Arguments) :
    DeclaratorPart → Except Diagnostic DeclaratorPart
  | .name text span => .ok (.name text span)
  | .pointer qualifiers span => .ok (.pointer qualifiers span)
  | .lvalueReference span => .ok (.lvalueReference span)
  | .rvalueReference span => .ok (.rvalueReference span)
  | .array bound span => return .array (← substituteNode? args bound) span
  | .function parameters variadic qualifiers span =>
    return .function (← substituteParameters args parameters) variadic qualifiers span

def substituteParts (args : Arguments) :
    List DeclaratorPart → Except Diagnostic (List DeclaratorPart)
  | [] => .ok []
  | part :: rest => return (← part.substitute args) :: (← substituteParts args rest)

def FunctionParameter.substitute (args : Arguments) :
    FunctionParameter → Except Diagnostic FunctionParameter
  | ⟨specifiers, declarator, initializer, span⟩ =>
    return ⟨← specifiers.substitute args, ← substituteParts args declarator,
      ← substituteNode? args initializer, span⟩

def substituteParameters (args : Arguments) :
    List FunctionParameter → Except Diagnostic (List FunctionParameter)
  | [] => .ok []
  | parameter :: rest =>
    return (← parameter.substitute args) :: (← substituteParameters args rest)

/-- A base specifier outside of a base list: an expansion has no meaning there. -/
def BaseSpecifier.substitute (args : Arguments) :
    BaseSpecifier → Except Diagnostic BaseSpecifier
  | ⟨access, isVirtual, name, isExpansion, span⟩ =>
    if isExpansion then .error (.internal span .strayBaseExpansion)
    else return ⟨access, isVirtual, ← name.substitute args, false, span⟩

/-- The base specifiers of a class; an expansion gives one base per element. -/
def substituteBases (args : Arguments) :
    List BaseSpecifier → Except Diagnostic (List BaseSpecifier)
  | [] => .ok []
  | ⟨access, isVirtual, name, isExpansion, span⟩ :: rest => do
    let argumentLists ←
      if isExpansion then args.repetitions name.parameterUses span else .ok [args]
    let names ← argumentLists.mapM fun narrowed => name.substitute narrowed
    return names.map (⟨access, isVirtual, ·, false, span⟩) ++ (← substituteBases args rest)

def Member.substitute (args : Arguments) : Member → Except Diagnostic Member
  | ⟨access, specifiers, declarator, bitWidth, initializer, span⟩ =>
    return ⟨access, ← specifiers.substitute args, ← substituteParts args declarator,
      ← substituteNode? args bitWidth, ← substituteNode? args initializer, span⟩

def StaticAssert.substitute (args : Arguments) : StaticAssert → Except Diagnostic StaticAssert
  | ⟨condition, message, span⟩ => return ⟨← condition.substitute args, message, span⟩

def ClassSpecifier.substitute (args : Arguments) :
    ClassSpecifier → Except Diagnostic ClassSpecifier
  | ⟨key, name, bases, members, span⟩ =>
    return ⟨key, name, ← substituteBases args bases, ← substituteNodes args members, span⟩

end

/-- A pattern, once per element of the packs it mentions. -/
def Node.expand (args : Arguments) (pattern : Node) (span : Span) :
    Except Diagnostic (List Node) := do
  let repetitions ← args.repetitions pattern.parameterUses span
  repetitions.mapM fun narrowed => pattern.substitute narrowed

end TemplateAnalysis
