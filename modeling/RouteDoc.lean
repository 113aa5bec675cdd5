import RouteDoc.Main
import RouteDoc.Proofs.Failure
import RouteDoc.Proofs.Skeleton
import RouteDoc.Proofs.TaggedLine
import RouteDoc.Proofs.FieldSpelling
import RouteDoc.Proofs.RouteBlock
import RouteDoc.Proofs.TypeGrammar
import RouteDoc.Proofs.BodyModels
import RouteDoc.Proofs.FilePaths
import RouteDoc.Proofs.TableOrder
import RouteDoc.Proofs.Writing
import RouteDoc.Proofs.CommentSpans
import RouteDoc.Proofs.Rerun
import RouteDoc.Proofs.BodyBindings
import RouteDoc.Proofs.DefinitionKeys
import RouteDoc.Proofs.FieldGrammar
import RouteDoc.Proofs.Optionality
import RouteDoc.Proofs.WrittenField
import RouteDoc.Proofs.Alignment
import RouteDoc.Proofs.DefaultValues
import RouteDoc.Proofs.ParameterSection
import RouteDoc.Proofs.PathRewriting
import RouteDoc.Proofs.RouteTable
import RouteDoc.Proofs.Accumulation
import RouteDoc.Proofs.Merging
import RouteDoc.Proofs.RouteGrammar
import RouteDoc.Proofs.DescriptionBlock
import RouteDoc.Proofs.QuotaMark
import RouteDoc.Proofs.ResponseKeys
import RouteDoc.Proofs.Quotation
import RouteDoc.Proofs.TypeLines
import RouteDoc.Proofs.ModelLines
import RouteDoc.Proofs.ParameterTypes
import RouteDoc.Proofs.Constraints
import RouteDoc.Proofs.FieldTable
import RouteDoc.Proofs.Walk
import RouteDoc.Proofs.LineEndings
