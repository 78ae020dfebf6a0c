import SourceMutation.Main
import SourceMutation.Proofs.ReadFirst
import SourceMutation.Proofs.Writings
import SourceMutation.Proofs.FreeChoices
import SourceMutation.Proofs.OneSource
import SourceMutation.Proofs.SharedCorpora
import SourceMutation.Proofs.Refusals
import SourceMutation.Proofs.Scans
import SourceMutation.Proofs.Stops
import SourceMutation.Proofs.Names
import SourceMutation.Proofs.Misfits
import SourceMutation.Proofs.Exhaustive
import SourceMutation.Proofs.Additions
import SourceMutation.Proofs.Beside
import SourceMutation.Proofs.JoinedScans
import SourceMutation.Proofs.Ineligible
import SourceMutation.Proofs.Readiness
import SourceMutation.Proofs.FailingRuns
import SourceMutation.Proofs.SafeSpans
import SourceMutation.Proofs.Tallies
import SourceMutation.Proofs.JsonTexts
import SourceMutation.Proofs.LogFiles
import SourceMutation.Proofs.BuiltTrees
import SourceMutation.Proofs.JsonOutput
import SourceMutation.Proofs.Replays
import SourceMutation.Proofs.Reruns
import SourceMutation.Proofs.Environments
import SourceMutation.Proofs.Eligibility
import SourceMutation.Proofs.DrawSequences
import SourceMutation.Proofs.OwnTexts
import SourceMutation.Proofs.Boundaries
import SourceMutation.Proofs.DirectoryCorpora
import SourceMutation.Proofs.Reachability
import SourceMutation.Proofs.Deletions
import SourceMutation.Proofs.LaterGuards
import SourceMutation.Proofs.ListingOrder
import SourceMutation.Proofs.VisitOrder
import SourceMutation.Proofs.ApartOutputs
import SourceMutation.Proofs.Provenance
import SourceMutation.Proofs.LaminarSpans
import SourceMutation.Proofs.NameParts
import SourceMutation.Proofs.Deliveries
import SourceMutation.Proofs.OutputDirectories
import SourceMutation.Proofs.RebuiltCorpora
import SourceMutation.Proofs.SourceOrder
import SourceMutation.Proofs.BrokenSources
import SourceMutation.Proofs.LineBreaks
import SourceMutation.Proofs.LoadedGrammars
import SourceMutation.Proofs.LogSetUps
