import TemplateAnalysis.Session.Declarations

/-!
# Classes and class templates

A class is declared, and completed once. Completing a class registers its bases
and declares its members in its scope; completing a class template keeps the body
as the pattern of its instances. A completion that fails leaves the class
incomplete, with the bases and members that came before the failure.
-/

namespace TemplateAnalysis.Session

open Analysis

/-- A class, or behind a template header a class template. -/
def declareClass (name : String) (key : ClassKey) (span : Span) : Analysis SymbolId := do
  let behindHeader ← inHeader
  let s ← get
  let declared ← onTable (SymbolTable.declare s.current name .classType (.singleton .classType)
    span (.classType ⟨key, [], [], none⟩))
  if behindHeader then enterTemplate declared (.classTemplate key) false span
  return declared.symbol

def completionFault? (target : Symbol) : Option Cause :=
  match target.entity with
  | .template ⟨_, .classTemplate _, _, isDefined⟩ =>
    if isDefined then some (.redefinition target.name) else none
  | .classType _ => if target.isDefined then some (.redefinition target.name) else none
  | _ => some (.notAClass target.name)

def declareMemberEntity (member : Member) : Analysis Unit := do
  if member.bitWidth.isSome then throw (.unsupported member.span .bitFields)
  let _ ← declareSimple member.specifiers member.declarator member.initializer member.span

mutual

def defineClass (id : SymbolId) : ClassSpecifier → Analysis Unit
  | ⟨key, name, bases, members, span⟩ => do
    let target ← symbol id
    match completionFault? target with
    | some cause => throw ⟨cause, span⟩
    | none =>
      match target.entity with
      | .template _ =>
        modifyTable (·.modifyTemplate id fun data =>
          { data with
            entity := .classTemplate key
            pattern := some ⟨key, name, bases, members, span⟩
            isEntityDefined := true })
      | _ =>
        bases.forM (registerBase instantiate id)
        let own ← ownScope id span
        inScope own (declareMembers members)
        modifyTable fun t =>
          (t.modifyClass id fun data => { data with key, members }).markDefined id

def declareMembers : List Node → Analysis Unit
  | [] => return ()
  | member :: rest => do
    declareMember member
    declareMembers rest

/-- A member of a class body. A nested class is declared and completed. -/
def declareMember : Node → Analysis Unit
  | .member declaration => declareMemberEntity declaration
  | .staticAssert assertion => checkStaticAssert assertion
  | .classBody specifier => do
    let id ← declareClass specifier.name specifier.key specifier.span
    defineClass id specifier
  | node => throw (.unsupported node.span (.classMember node.description))

end

end TemplateAnalysis.Session
