import SignerBench.App.Script
import SignerBench.Emulator.Replica
import SignerBench.Main
import SignerBench.Suite.Checks
import SignerBench.Suite.Flows
import SignerBench.Vectors.Replica
import SignerBench.Proofs.Attempt
import SignerBench.Proofs.Transcript
import SignerBench.Proofs.Session
import SignerBench.Proofs.Acts
import SignerBench.Proofs.ReviewWalk
import SignerBench.Proofs.Turns
import SignerBench.Proofs.ConcurrentFlows
import SignerBench.Proofs.FileTree
import SignerBench.Proofs.Directories
import SignerBench.Proofs.FilePath
import SignerBench.Proofs.Numbering
import SignerBench.Proofs.GoldenSets
import SignerBench.Proofs.GoldenUpdate
import SignerBench.Proofs.HexText
import SignerBench.Proofs.Results
import SignerBench.Proofs.PlanEntries
import SignerBench.Proofs.PlanCases
import SignerBench.Proofs.FileWrites
import SignerBench.Proofs.GoldenVerdict
import SignerBench.Proofs.Generation
import SignerBench.Proofs.MetadataPayload
import SignerBench.Proofs.Exchanges
import SignerBench.Proofs.Calls
import SignerBench.Proofs.Reception
import SignerBench.Proofs.Refusals
import SignerBench.Proofs.AnyLink
import SignerBench.Proofs.ApprovalChecks
import SignerBench.Proofs.JsonWords
import SignerBench.Proofs.JsonText
import SignerBench.Proofs.JsonValues
import SignerBench.Proofs.Records
import SignerBench.Proofs.CaseFiles
import SignerBench.Proofs.PlanFiles
import SignerBench.Proofs.EmulatedLink
import SignerBench.Proofs.PathText
import SignerBench.Proofs.PlanAcceptance
import SignerBench.Proofs.Runs
import SignerBench.Proofs.Replays
import SignerBench.Proofs.SteadyReview
import SignerBench.Proofs.StartUp
import SignerBench.Proofs.Navigation
import SignerBench.Proofs.UntouchedFiles
import SignerBench.Proofs.Footprint
import SignerBench.Proofs.GoldenFrame
import SignerBench.Proofs.MetadataLimits
import SignerBench.Proofs.OutputFiles
import SignerBench.Proofs.SamePixels
import SignerBench.Proofs.JsonNumbers
import SignerBench.Proofs.CompactText
import SignerBench.Proofs.RecordTexts
import SignerBench.Proofs.AuthorizerRuns
import SignerBench.Proofs.KeywordTap
import SignerBench.Proofs.LowercasePieces
import SignerBench.Proofs.MarkupText
import SignerBench.Proofs.VerbatimText
import SignerBench.Proofs.ReportPage
import SignerBench.Proofs.Base64Text
import SignerBench.Proofs.ReportImages
import SignerBench.Proofs.ListingOrder
import SignerBench.Files.Disk
