import MediaSheets.CommandLine.FileTree
import MediaSheets.CommandLine.Program
import MediaSheets.Compilation
import MediaSheets.Config.Json
import MediaSheets.Config.Standard
import MediaSheets.Decimal.Layout
import MediaSheets.Inversion
import MediaSheets.Json.Draft
import MediaSheets.Json.Number
import MediaSheets.Json.Reader
import MediaSheets.Json.Token
import MediaSheets.Json.Value
import MediaSheets.Main
import MediaSheets.Media.Json
import MediaSheets.Plan.Json
import MediaSheets.Sheet
import MediaSheets.Source.Json
import MediaSheets.Text.Blank
import MediaSheets.Text.Quoted
import MediaSheets.Text.Split
import MediaSheets.Workspace
import MediaSheets.Proofs.ReachableRegistry
import MediaSheets.Proofs.RegistryConsistency
import MediaSheets.Proofs.Registration
import MediaSheets.Proofs.StableSort
import MediaSheets.Proofs.SubmissionHistory
import MediaSheets.Proofs.BlockOrder
import MediaSheets.Proofs.SheetText
import MediaSheets.Proofs.PlanHistory
import MediaSheets.Proofs.InversionHistory
import MediaSheets.Proofs.EmissionOrder
import MediaSheets.Proofs.ComponentInversions
import MediaSheets.Proofs.FirstFailure
import MediaSheets.Proofs.ComponentSubmission
import MediaSheets.Proofs.AcceptedSubmissions
import MediaSheets.Proofs.AlikeRegistries
import MediaSheets.Proofs.RegistrationOrder
import MediaSheets.Proofs.Declarations
import MediaSheets.Proofs.DeclaredBreakpoints
import MediaSheets.Proofs.Configurations
import MediaSheets.Proofs.TextSpelling
import MediaSheets.Proofs.DecimalLiterals
import MediaSheets.Proofs.TokenSpelling
import MediaSheets.Proofs.WrittenValues
import MediaSheets.Proofs.ReadValues
import MediaSheets.Proofs.DocumentRoundTrip
import MediaSheets.Proofs.JsonGrammar
import MediaSheets.Proofs.GrammarTokens
import MediaSheets.Proofs.ValueTexts
import MediaSheets.Proofs.GrammarDrafts
import MediaSheets.Proofs.RecordReading
import MediaSheets.Proofs.DocumentLayouts
import MediaSheets.Proofs.TreeReading
import MediaSheets.Proofs.CompleteReading
import MediaSheets.Proofs.MalformedDocuments
import MediaSheets.Proofs.NumberRanges
import MediaSheets.Proofs.ConfigurationNumbers
import MediaSheets.Proofs.RegistryConfigurations
import MediaSheets.Proofs.RelabelledRegistry
import MediaSheets.Proofs.RelabelledCompilation
import MediaSheets.Proofs.DocumentSubmission
import MediaSheets.Proofs.SubmissionEffects
import MediaSheets.Proofs.SharedLog
import MediaSheets.Proofs.InversionWarnings
import MediaSheets.Proofs.CutoffChanges
import MediaSheets.Proofs.JoinedHistories
import MediaSheets.Proofs.JoinedTexts
import MediaSheets.Proofs.Predicates
import MediaSheets.Proofs.PairPredicates
import MediaSheets.Proofs.MediaRules
import MediaSheets.Proofs.UnusedBreakpoints
import MediaSheets.Proofs.BlankWarnings
import MediaSheets.Proofs.SheetReading
import MediaSheets.Proofs.PlanTexts
import MediaSheets.Proofs.LogHistory
import MediaSheets.Proofs.ComponentLists
import MediaSheets.Proofs.FileChanges
import MediaSheets.Proofs.WrittenSheets
import MediaSheets.Proofs.FailedBuilds
import MediaSheets.Proofs.DeliveredSheets
