import TemplateAnalysis.Ast.Evaluation
import TemplateAnalysis.SymbolTable.Basic

/-!
# Values of symbols

Enumerators have a value, and so have objects whose value was recorded.
-/

namespace TemplateAnalysis

def Entity.namedValue : Entity → NamedValue
  | enumerator value => .known value
  | object data => (data.value.map .known).getD .unknown
  | templateParameter _ => .dependent
  | _ => .noValue

def SymbolTable.valueOf (t : SymbolTable) (id : SymbolId) : NamedValue :=
  (t.symbol id).entity.namedValue

def SymbolTable.evaluate (t : SymbolTable) (node : Node) : Except Diagnostic Constant :=
  node.evaluate t.valueOf

end TemplateAnalysis
