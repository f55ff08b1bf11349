import Arclain.PlanRootFolders
import Arclain.ApplyPlanRecovery
import Arclain.DestinationLock
import Arclain.OpenArchiveOutcome
import Arclain.MergeOutcome
import Arclain.MutationCancellation
import Arclain.SessionReaders
import Arclain.MaterializationRoot
import Arclain.PluginQuarantineRuns
import Arclain.PluginProgress
import Arclain.ProxySavedConfig
import Arclain.LibraryQualityGuard
import Arclain.VaultFailures
import Arclain.PluginSettingsSnapshots
import Arclain.MaterializationCleanup
import Arclain.ResourceIsolation
import Arclain.MetadataProvenance
import Arclain.Downloads
import Arclain.DomainApprovals
import Arclain.PluginHttp
import Arclain.PlanStaging
import Arclain.ReservationBounds
import Arclain.PatternRemovals
import Arclain.WorkerProtocol
import Arclain.BrowseHistory
import Arclain.BrowserPublishing
import Arclain.PromptsPresented
import Arclain.TemplateExpansion
import Arclain.MultiPartCompleteness
import Arclain.PlanContentRoot
import Arclain.OperationRetention
import Arclain.StreamingRuns
import Arclain.FlattenRuns
import Arclain.MerkleProofs
import Arclain.TitleFilter
import Arclain.RefusedCommits
import Arclain.EntryTime
import Arclain.SevenZipBlocks
import Arclain.CacheKeyRanges
import Arclain.RarIntegers
import Arclain.RarUnicode
import Arclain.SevenZipExtraction
import Arclain.ExtractionRuns
import Arclain.CrcBackfill
import Arclain.RateWindows
import Arclain.SettingLimits
import Arclain.SevenZipFiles
import Arclain.PasswordRules
import Arclain.PipelinePreview
import Arclain.ResponseWriting
import Arclain.MerklePaths
import Arclain.PendingResults
