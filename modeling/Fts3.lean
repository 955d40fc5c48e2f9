import Fts3.Sql.Table
import Fts3.Sql.Group
import Fts3.Sql.Proc
import Fts3.Sql.Pool
import Fts3.Sql.Rely
import Fts3.Sql.Contract
import Fts3.Sql.Memory
import Fts3.Sql.Retry
import Fts3.Sql.Session
import Fts3.Sql.Exceptions
import Fts3.Sql.Poll
import Fts3.MySql.Schema
import Fts3.MySql.Statement
import Fts3.MySql.Op
import Fts3.MySql.Transfers
import Fts3.MySql.Staging
import Fts3.MySql.SanityChecks
import Fts3.MySql.HeartBeat
import Fts3.MySql.Config
import Fts3.MySql.Scheduling
import Fts3.MySql.Expiry
import Fts3.MySql.Fetching
import Fts3.MySql.Optimizer
import Fts3.MySql.Backup
import Fts3.Server.MessageProcessing
import Fts3.Server.FileTransferExecutor
import Fts3.MySql.Api
import Fts3.MySql.Lemmas.Issued
import Fts3.MySql.Lemmas.Writes
import Fts3.MySql.Lemmas.JobStatus
import Fts3.MySql.Lemmas.Regular
import Fts3.MySql.Lemmas.Sanity
import Fts3.MySql.Lemmas.Progress
import Fts3.MySql.Lemmas.Completion
import Fts3.MySql.Terminal
import Fts3.MySql.Claiming
import Fts3.MySql.Aggregate
import Fts3.MySql.Sanity
import Fts3.MySql.Agreement
import Fts3.MySql.Completion
import Fts3.MySql.Multihop
import Fts3.MySql.HopTurns
import Fts3.MySql.Reservation
import Fts3.MySql.Lemmas.Replicas
import Fts3.MySql.Replicas
import Fts3.MySql.Lemmas.Stranded
import Fts3.MySql.Lemmas.Spares
import Fts3.MySql.Lemmas.Staging
import Fts3.MySql.Lemmas.Deletions
import Fts3.MySql.Stranded
import Fts3.MySql.NextReplica
import Fts3.MySql.StagingFrame
import Fts3.MySql.Hosts
import Fts3.MySql.HashSegments
import Fts3.MySql.RetryDelay
import Fts3.MySql.Batches
import Fts3.MySql.Transactions
import Fts3.MySql.Archival
import Fts3.MySql.SuccessRate
import Fts3.MySql.Cancellation
import Fts3.MySql.DeletionStates
import Fts3.MySql.ActivityShares
import Fts3.MySql.Slots
import Fts3.MySql.UpgradeScripts
import Fts3.MySql.WorkConserving
import Fts3.MySql.StagingLimits
import Fts3.MySql.StagingTimers
import Fts3.MySql.TokenPrep
import Fts3.MySql.Termination
import Fts3.MySql.ProgressVector
import Fts3.MySql.StalledTransfers
import Fts3.UrlCopy.UrlCopyProcess
import Fts3.UrlCopy.BulkFile
import Fts3.UrlCopy.DestFile
import Fts3.UrlCopy.CommandOptions
import Fts3.UrlCopy.CommandCalls
import Fts3.UrlCopy.Progress
import Fts3.UrlCopy.RunTransfer
import Fts3.UrlCopy.Sanitize
import Fts3.Optimizer.Algorithm
import Fts3.Optimizer.Decisions
import Fts3.Optimizer.Direction
import Fts3.Optimizer.Store
import Fts3.Optimizer.Streams
import Fts3.Optimizer.WorkingRange
import Fts3.QosDaemon.StateUpdater
import Fts3.QosDaemon.Polling
import Fts3.QosDaemon.ActiveUrls
import Fts3.QosDaemon.ContextMaps
import Fts3.QosDaemon.ErrorAccess
import Fts3.MsgBus.Consumer
import Fts3.Server.CancelerService
import Fts3.Server.Redelivery
import Fts3.Server.SchedulingLoop
import Fts3.Server.Shutdown
import Fts3.Server.RetryPolicy
import Fts3.Server.ReuseTransfers
import Fts3.Server.LinkLimit
import Fts3.Server.ArchivingDecision
import Fts3.Server.LogMessages
import Fts3.Server.TransferFileHandler
import Fts3.Server.TokenExchange
import Fts3.Server.TransferTurns
import Fts3.Server.TransfersService
import Fts3.Server.VoShares
import Fts3.Server.StorageLimits
import Fts3.Server.StorageDemand
import Fts3.Machine.Admission
import Fts3.MySql.Lemmas.Ready
import Fts3.Common.ThreadPool
import Fts3.QosDaemon.DeletionsOnce
import Fts3.Config.ConfigReload
import Fts3.Monitoring.Delivery
import Fts3.QosDaemon.DeletionsAnswered
import Fts3.Server.FinishedTransfers
import Fts3.QosDaemon.QosPolling
import Fts3.MySql.Membership
