import TemplateAnalysis.Ast.Equality
import TemplateAnalysis.Session.Classes
import TemplateAnalysis.Session.Enums
import TemplateAnalysis.SymbolTable.Outline
import TemplateAnalysis.Numeral
import TemplateAnalysis.Proofs.TypeGraph.Run
import TemplateAnalysis.Proofs.Session.Decoding
import TemplateAnalysis.Proofs.Session.Instances
import TemplateAnalysis.Proofs.Session.NestedNames
import TemplateAnalysis.Proofs.Session.CompleteInstances
import TemplateAnalysis.Proofs.Session.Inheritance
import TemplateAnalysis.Proofs.Session.StructuralTypes
import TemplateAnalysis.Proofs.Session.Identities
import TemplateAnalysis.Proofs.Session.Substitution
import TemplateAnalysis.Proofs.Session.OneEntity
import TemplateAnalysis.Proofs.Session.ParameterLists
import TemplateAnalysis.Proofs.Session.Completion
import TemplateAnalysis.Proofs.Session.Memo
import TemplateAnalysis.Proofs.Session.WellFormedTypes
import TemplateAnalysis.Proofs.Session.FunctionTypes
import TemplateAnalysis.Proofs.Session.Misuse
import TemplateAnalysis.Proofs.Session.Cursor
import TemplateAnalysis.Proofs.Ast.Evaluation
import TemplateAnalysis.Proofs.Ast.Agreement
import TemplateAnalysis.Proofs.Session.ExpandedInstances
import TemplateAnalysis.Proofs.Session.QualifiedNames
import TemplateAnalysis.Proofs.Session.DepthLimit
import TemplateAnalysis.Proofs.Session.NestedExpansions
import TemplateAnalysis.Proofs.Session.BindingShape
import TemplateAnalysis.Proofs.Session.RefusedDeclarations
import TemplateAnalysis.Proofs.Session.SuppliedDefaults
import TemplateAnalysis.Proofs.Session.RedeclaredParameters
import TemplateAnalysis.Proofs.Session.WrittenBases
import TemplateAnalysis.Proofs.Session.EnumeratorValues
import TemplateAnalysis.Proofs.Ast.SignedValues
import TemplateAnalysis.Proofs.Ast.Residues
import TemplateAnalysis.Proofs.Session.QualifiedArrays
import TemplateAnalysis.Proofs.Session.QualifiedArguments
import TemplateAnalysis.Proofs.TypeGraph.References
import TemplateAnalysis.Proofs.Session.Outline
import TemplateAnalysis.Proofs.Session.MergedParameters
