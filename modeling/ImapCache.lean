import ImapCache.Lib.Table
import ImapCache.Lib.Program
import ImapCache.Lib.System
import ImapCache.Lib.Mirror
import ImapCache.Lib.Slice
import ImapCache.Lib.Counting
import ImapCache.Lib.Sorting
import ImapCache.Model.Domain
import ImapCache.Model.SearchQuery
import ImapCache.Model.Responses
import ImapCache.Model.Database
import ImapCache.Model.Upstream
import ImapCache.Model.World
import ImapCache.Model.Repository
import ImapCache.Model.Ingest
import ImapCache.Model.Mutations
import ImapCache.Model.SyncEngine
import ImapCache.Model.Commands
import ImapCache.Model.Protocol
import ImapCache.Model.FlagCommands
import ImapCache.Model.RawFetch
import ImapCache.Model.Tasks
import ImapCache.Model.Searching
import ImapCache.Model.Auth
import ImapCache.Model.Session
import ImapCache.Model.Connection
import ImapCache.Model.IdleLoop
import ImapCache.Model.Notifications
import ImapCache.Model.ObjectStores
import ImapCache.Model.UpstreamLines
import ImapCache.Model.Sample
import ImapCache.Proof.Statements
import ImapCache.Proof.Frames
import ImapCache.Proof.Answers
import ImapCache.Proof.Footprints
import ImapCache.Proof.UidAssignment
import ImapCache.Proof.QueueProtocol
import ImapCache.Proof.QueueKeys
import ImapCache.Proof.DueMutations
import ImapCache.Proof.ExclusiveFlush
import ImapCache.Proof.UpstreamServer
import ImapCache.Proof.SingleDelivery
import ImapCache.Proof.FlagOrder
import ImapCache.Proof.FlagAddress
import ImapCache.Proof.StoreOrder
import ImapCache.Proof.FlagReconcile
import ImapCache.Proof.SyncSteps
import ImapCache.Proof.Convergence
import ImapCache.Proof.ResponseLines
import ImapCache.Proof.MailboxRows
import ImapCache.Proof.Subscriptions
import ImapCache.Proof.ModificationSequences
import ImapCache.Proof.EventDelivery
import ImapCache.Proof.IdleView
import ImapCache.Proof.CommandStream
import ImapCache.Proof.SearchTerms
import ImapCache.Proof.SearchResults
import ImapCache.Proof.SearchAlgebra
import ImapCache.Proof.RowSearch
import ImapCache.Proof.UidnextReports
import ImapCache.Proof.RangeReads
import ImapCache.Proof.ListedNames
import ImapCache.Proof.NumberSets
import ImapCache.Proof.UidSetReaders
import ImapCache.Proof.MailboxCounts
import ImapCache.Proof.RawFetchDispatch
import ImapCache.Proof.FetchItems
import ImapCache.Lib.Removal
import ImapCache.Proof.MailboxOrder
import ImapCache.Proof.ExpungeReplay
import ImapCache.Proof.MoveReplay
import ImapCache.Proof.FetchNumbers
import ImapCache.Proof.IdleReads
import ImapCache.Model.Coordination
import ImapCache.Proof.LockSafety
import ImapCache.Model.Throttle
import ImapCache.Proof.ThrottleBackends
import ImapCache.Model.Logins
import ImapCache.Proof.LoginThrottling
import ImapCache.Model.Admin
import ImapCache.Lib.Rows
import ImapCache.Proof.CacheObjects
import ImapCache.Proof.AccountPurge
import ImapCache.Proof.CachePruning
import ImapCache.Proof.PartialFetch
import ImapCache.Proof.IngestAtomicity
import ImapCache.Model.MessageTasks
import ImapCache.Proof.QuotaUsage
import ImapCache.Model.CacheCommands
import ImapCache.Proof.ReferenceCounts
import ImapCache.Proof.CountedCommands
import ImapCache.Proof.CountedLoads
import ImapCache.Proof.CountedIngests
import ImapCache.Proof.CacheRuns
import ImapCache.Proof.MailboxNames
import ImapCache.Proof.BodySections
import ImapCache.Proof.HeaderFields
import ImapCache.Proof.SearchTrees
import ImapCache.Proof.SearchConjunction
import ImapCache.Model.MimeParts
import ImapCache.Proof.PartNumbers
import ImapCache.Model.FilesystemStore
import ImapCache.Proof.FilesystemPuts
import ImapCache.Proof.AppendRoundTrip
import ImapCache.Proof.UpstreamMoves
import ImapCache.Model.SessionTasks
import ImapCache.Proof.SelectedMailbox
import ImapCache.Lib.Keyed
import ImapCache.Proof.FlagAlgebra
import ImapCache.Proof.StoreRequests
import ImapCache.Proof.ListPatterns
import ImapCache.Lib.Forest
import ImapCache.Lib.Orderings
import ImapCache.Proof.ReferenceThreads
import ImapCache.Proof.PartRehydration
import ImapCache.Proof.SortOrder
import ImapCache.Lib.ThreadLists
import ImapCache.Proof.ThreadText
import ImapCache.Lib.Grouping
import ImapCache.Proof.SubjectThreads
import ImapCache.Lib.Trimming
import ImapCache.Proof.WhiteSpace
import ImapCache.Proof.SubjectKeys
import ImapCache.Model.ResultSets
import ImapCache.Proof.ResultSets
import ImapCache.Lib.Occurrences
import ImapCache.Model.UpstreamClient
import ImapCache.Proof.UpstreamStatus
import ImapCache.Proof.QuotedCommands
import ImapCache.Proof.Words
import ImapCache.Proof.UpstreamFetches
import ImapCache.Proof.UpstreamFlags
import ImapCache.Proof.SetTargets
import ImapCache.Lib.Sexpr
import ImapCache.Proof.ReadableResponses
import ImapCache.Proof.ItemScanning
import ImapCache.Proof.FetchGrammar
import ImapCache.Proof.FetchSections
import ImapCache.Proof.FetchRoundTrip
import ImapCache.Lib.Contracts
import ImapCache.Lib.Outcomes
import ImapCache.Lib.Serial
import ImapCache.Lib.Spared
import ImapCache.Proof.AccountCommands
import ImapCache.Proof.AccountIsolation
import ImapCache.Proof.ReadOnlySessions
