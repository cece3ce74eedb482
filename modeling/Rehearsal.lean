import Rehearsal.Browser.ScriptedDocument
import Rehearsal.DevTools.StagedDocument
import Rehearsal.Main
import Rehearsal.Proofs.References
import Rehearsal.Proofs.Exactness
import Rehearsal.Proofs.EndlessSearch
import Rehearsal.Proofs.DepthLimit
import Rehearsal.Proofs.RequestedGraph
import Rehearsal.Proofs.Maintains
import Rehearsal.Proofs.OnStage
import Rehearsal.Proofs.Readiness
import Rehearsal.Proofs.Deeds
import Rehearsal.Proofs.Playing
import Rehearsal.Proofs.FailurePolicy
import Rehearsal.Proofs.WholeRun
import Rehearsal.Proofs.Guard
import Rehearsal.Proofs.Course
import Rehearsal.Proofs.RunCourse
import Rehearsal.Proofs.Telling
import Rehearsal.Proofs.Rebuilding
import Rehearsal.Proofs.Accounting
import Rehearsal.Proofs.Variables
import Rehearsal.Proofs.Inversion
import Rehearsal.Proofs.Keeping
import Rehearsal.Proofs.LoggingIn
import Rehearsal.Proofs.Anatomy
import Rehearsal.Proofs.Assurance
import Rehearsal.Proofs.Fatality
import Rehearsal.Proofs.Attribution
import Rehearsal.Proofs.Following
import Rehearsal.Proofs.Likeness
import Rehearsal.Proofs.LikeDeeds
import Rehearsal.Proofs.LikePlay
import Rehearsal.Proofs.Nesting
import Rehearsal.Proofs.Asking
import Rehearsal.Proofs.Lingering
import Rehearsal.Proofs.Promptness
import Rehearsal.Proofs.Overlooking
import Rehearsal.Proofs.Passing
import Rehearsal.Proofs.Transparency
import Rehearsal.Proofs.Ways
import Rehearsal.Proofs.FileChanges
import Rehearsal.Proofs.Interleaving
import Rehearsal.Proofs.Spelling
import Rehearsal.Proofs.Tokens
import Rehearsal.Proofs.WrittenValues
import Rehearsal.Proofs.ReadBack
import Rehearsal.Proofs.StoredMap
import Rehearsal.Proofs.StepGrammar
import Rehearsal.Proofs.PageViews
import Rehearsal.Proofs.Onlookers
import Rehearsal.Proofs.ArtifactFolder
import Rehearsal.Proofs.Indifference
import Rehearsal.Proofs.Listeners
import Rehearsal.Proofs.LoginActs
import Rehearsal.Proofs.LoginCourse
import Rehearsal.Proofs.LoginTime
import Rehearsal.Proofs.StorageRestored
import Rehearsal.Proofs.Slots
import Rehearsal.Proofs.Rounds
import Rehearsal.Proofs.SearchTime
import Rehearsal.Proofs.Reasons
import Rehearsal.Proofs.SlotNames
import Rehearsal.Proofs.FilledSteps
import Rehearsal.Proofs.OpenedWaits
import Rehearsal.Proofs.LexicalPaths
import Rehearsal.Proofs.LocalAddresses
import Rehearsal.Proofs.PastedScripts
import Rehearsal.Proofs.FailedSavings
import Rehearsal.Proofs.OtherStores
import Rehearsal.Proofs.FittingKeys
import Rehearsal.Proofs.Origins
import Rehearsal.Proofs.OwnStorage
import Rehearsal.Proofs.ElementReferences
import Rehearsal.Proofs.ListingOrder
import Rehearsal.Proofs.RequestRecords
import Rehearsal.Proofs.SnapshotRestored
import Rehearsal.Proofs.Durations
import Rehearsal.Proofs.Album
