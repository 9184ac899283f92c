import TypedClient.Command.Session
import TypedClient.Main
import TypedClient.Proofs.CompiledOperationOutline
import TypedClient.Proofs.DtoPoolContents
import TypedClient.Proofs.GeneratedModuleClosure
import TypedClient.Proofs.IdentifierAssignment
import TypedClient.Proofs.FirstOccurrences
import TypedClient.Proofs.OperationPlacement
import TypedClient.Proofs.TagNameClaims
import TypedClient.Proofs.TagModuleContents
import TypedClient.Proofs.WrittenModules
import TypedClient.Proofs.LoweredOperations
import TypedClient.Proofs.ClientWarnings
import TypedClient.Proofs.OperationAccounts
import TypedClient.Proofs.IdentifierScheme
import TypedClient.Proofs.IdentifierCollisions
import TypedClient.Proofs.NameSubstitution
import TypedClient.Proofs.KeyRenaming
import TypedClient.Proofs.TagIsolation
import TypedClient.Proofs.BareAliases
import TypedClient.Proofs.TagNumbering
import TypedClient.Proofs.TopLevelNames
import TypedClient.Proofs.GenerateRuns
import TypedClient.Proofs.CycleComponents
import TypedClient.Proofs.PrunedPool
import TypedClient.Proofs.SchemaOrder
import TypedClient.Proofs.GeneratedIdentifiers
import TypedClient.Proofs.ReferenceChains
import TypedClient.Proofs.TemplateLiterals
import TypedClient.Proofs.MethodParameters
import TypedClient.Proofs.AdditiveResolution
import TypedClient.Proofs.SchemaDegradations
import TypedClient.Proofs.OfferedOperations
import TypedClient.Proofs.LoweringIssues
import TypedClient.Proofs.ParameterMerging
import TypedClient.Proofs.UrlInterpolations
import TypedClient.Proofs.MethodNames
import TypedClient.Proofs.NormalLayout
import TypedClient.Proofs.ComponentPointers
import TypedClient.Proofs.MediaTypeLetterCase
import TypedClient.Proofs.QuotedLiterals
import TypedClient.Proofs.GeneratedComments
import TypedClient.Proofs.DocumentEdits
