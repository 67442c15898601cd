import CineGate.Transition
import CineGate.Progress
import CineGate.KeyedTable
import CineGate.Domain
import CineGate.Text
import CineGate.SequenceMatcher
import CineGate.ArchiveParser
import CineGate.ArchiveTables
import CineGate.ArchiveIndexer
import CineGate.RewardSessions
import CineGate.Delivery
import CineGate.DeliverySystem
import CineGate.Entitlements
import CineGate.SessionRefinement
import CineGate.SystemInvariant
import CineGate.SystemSteps
import CineGate.RewardGuarantees
import CineGate.DeliveryGuarantees
import CineGate.LateCompletions
import CineGate.SentCopies
import CineGate.GroupGrowth
import CineGate.GroupingRule
import CineGate.ArchiveWindows
import CineGate.ArchiveSteps
import CineGate.ArchiveInvariant
import CineGate.DeliveredFile
import CineGate.MovieEvidence
import CineGate.JustifiedMovies
import CineGate.BatchIndexing
import CineGate.RowIdentity
import CineGate.SnapshotHistory
import CineGate.OfferedQualities
import CineGate.IngestedStream
import CineGate.ColumnBounds
import CineGate.ChannelTables
import CineGate.DeletedMessages
import CineGate.SearchProtocol
import CineGate.ImportJobs
import CineGate.Reindex
import CineGate.Transfer
import CineGate.TransferInvariant
import CineGate.ArchiveReplays
import CineGate.Relabelling
import CineGate.ReplayedEdits
import CineGate.RepairedMovies
import CineGate.OrphanedScreens
import CineGate.NoticeConvergence
import CineGate.Segments
import CineGate.Utf16
import CineGate.Templates
import CineGate.TemplateRendering
import CineGate.FormattedTemplates
import CineGate.AdminRegistry
import CineGate.DeliveryCaption
import CineGate.ChangeLog
import CineGate.AdminService
import CineGate.AuditTrail
import CineGate.PoisonPosts
import CineGate.Runs
import CineGate.TokenBoundaries
import CineGate.TitleWords
import CineGate.TitleAgreement
import CineGate.ResolutionTokens
import CineGate.ResolutionYears
import CineGate.ResolutionVerdicts
import CineGate.FinishedTransfers
import CineGate.RewardPrompts
import CineGate.OrderedDict
import CineGate.RateLimit
import CineGate.Ranking
import CineGate.RequestedRelease
import CineGate.IntegrityAudit
import CineGate.WindowedParsing
import CineGate.DeletionQueue
import CineGate.DeletionTasks
import CineGate.DeletionWorker
import CineGate.DueFilms
import CineGate.DeliverableRewards
import CineGate.ImportAccounts
import CineGate.TransferCompletion
import CineGate.ImportVerification
import CineGate.RewardEndpoints
import CineGate.PaidFilms
import CineGate.EndpointResponses
import CineGate.QualityTaps
import CineGate.RequestedFilms
import CineGate.ShownSettings
import CineGate.SettingReaders
import CineGate.ReindexedCatalogue
