import TemplateAnalysis.SymbolTable.Naming

/-!
# Outline

The entities of a table, nested by scope and in declaration order, one per line.
Template parameters are part of the line of their template.
-/

namespace TemplateAnalysis

def TemplateParameter.text (p : TemplateParameter) : String :=
  (match p.kind, p.valueType with
    | .nonType, some type => type.name
    | _, _ => "typename") ++
  (if p.isPack then "..." else "") ++
  (if p.name.isEmpty then "" else " " ++ p.name) ++
  ((p.defaultArgument.map (" = " ++ ·.text)).getD "")

def ParameterList.text (ps : ParameterList) : String :=
  "template<" ++ ", ".intercalate (ps.map (·.text)) ++ ">"

namespace SymbolTable

/-- The mark of something that is declared only. -/
def incompleteMark (isDefined : Bool) : String := if isDefined then "" else " (incomplete)"

def baseText (t : SymbolTable) (base : BaseClass) : String :=
  (if base.isVirtual then "virtual " else "") ++ base.access.name ++ " " ++
    t.qualifiedName base.symbol

def lineText (t : SymbolTable) (g : TypeGraph) (symbol : Symbol) : String :=
  let name := symbol.name
  match symbol.entity with
  | .nameSpace => "namespace " ++ name
  | .classType data =>
    data.key.name ++ " " ++ name ++ " [" ++ symbol.mangled ++ "]" ++
      (match data.bases.map t.baseText with
        | [] => ""
        | bases => " : " ++ ", ".intercalate bases) ++
      incompleteMark symbol.isDefined
  | .enumeration data =>
    (if data.isScoped then "enum class " else "enum ") ++ name ++ incompleteMark symbol.isDefined
  | .enumerator value => name ++ " = " ++ value.text
  | .typedef target => "typedef " ++ t.typeText g target ++ " " ++ name
  | .function data =>
    "function " ++ name ++ " [" ++ symbol.mangled ++ "]: " ++ t.typeText g data.type
  | .object data =>
    "object " ++ name ++ ": " ++ t.typeText g data.type ++
      ((data.value.map (" = " ++ ·.text)).getD "")
  | .template data =>
    data.parameters.text ++ " " ++ data.entity.name ++ " " ++ name ++
      incompleteMark data.isEntityDefined
  | .templateParameter _ => "template parameter " ++ name

/-- The scope whose symbols are listed below a symbol: its own, unless it is the
header of a template. -/
def listedScope? (symbol : Symbol) : Option ScopeId :=
  match symbol.entity with
  | .template _ => none
  | _ => symbol.scope

/-- The symbols listed for a scope with their nesting, at most `limit` levels deep. -/
def listingWithin (t : SymbolTable) : Nat → Nat → ScopeId → List (Nat × SymbolId)
  | 0, _, _ => []
  | limit + 1, depth, scope =>
    (t.scope scope).declared.flatMap fun id =>
      match (t.symbol id).entity with
      | .templateParameter _ => []
      | _ =>
        (depth, id) ::
          match listedScope? (t.symbol id) with
          | some own => t.listingWithin limit (depth + 1) own
          | none => []

/-- The symbols of the outline with their nesting. Every level is a scope of its
own, so the number of scopes bounds the levels. -/
def listing (t : SymbolTable) : List (Nat × SymbolId) :=
  t.listingWithin t.scopeCount 0 .global

def outline (t : SymbolTable) (g : TypeGraph) : String :=
  String.join (t.listing.map fun (depth, id) =>
    String.join (List.replicate depth "  ") ++ t.lineText g (t.symbol id) ++ "\n")

end SymbolTable

end TemplateAnalysis
