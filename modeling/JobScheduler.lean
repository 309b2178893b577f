import JobScheduler.Library.KeyedTable
import JobScheduler.Library.Selection
import JobScheduler.Library.Expressions
import JobScheduler.Library.Machine
import JobScheduler.Core.Values
import JobScheduler.Core.JobRecord
import JobScheduler.Storage.StoreInterface
import JobScheduler.Storage.InMemoryJobStore
import JobScheduler.Authorization.JobActor
import JobScheduler.DataAccess.DataAccessPolicy
import JobScheduler.Persistence.Database
import JobScheduler.Persistence.SqliteJobStore
import JobScheduler.Core.RecordHistory
import JobScheduler.Ledger.Ledger
import JobScheduler.Ledger.LawfulStore
import JobScheduler.Ledger.RecordSteps
import JobScheduler.Ledger.Acknowledgement
import JobScheduler.Ledger.AcknowledgementOrder
import JobScheduler.Storage.InMemoryLedger
import JobScheduler.Persistence.SqliteLedger
import JobScheduler.Ledger.AttemptBound
import JobScheduler.Ledger.Coherence
import JobScheduler.Lifecycle.JobLifecycleService
import JobScheduler.Ledger.Transitions
import JobScheduler.Ledger.Claims
import JobScheduler.Workers.Fencing
import JobScheduler.Workers.WorkerSystem
import JobScheduler.Workers.LeaseExclusion
import JobScheduler.Storage.PendingIndex
import JobScheduler.Ledger.DueOrder
import JobScheduler.Ledger.ClaimOrder
import JobScheduler.Ledger.FailedCalls
import JobScheduler.Workers.CompletionTotality
import JobScheduler.Ledger.Interchange
import JobScheduler.Authorization.AuthorizationRules
import JobScheduler.Tenancy.DataAccessScopeProvider
import JobScheduler.Persistence.DbContextFactory
import JobScheduler.Actions.JobAuthorizedAction
import JobScheduler.Actions.JobActions
import JobScheduler.Tenancy.TenantView
import JobScheduler.Tenancy.Isolation
import JobScheduler.DataAccess.FilterLifetime
import JobScheduler.DataAccess.FilterComposition
import JobScheduler.DataAccess.CompositionLaw
import JobScheduler.Authorization.AuthorizationLaw
import JobScheduler.Core.JobAttempts
import JobScheduler.Ledger.Lifecycle
import JobScheduler.Ledger.AttemptReports
import JobScheduler.Tenancy.ScopeHandles
import JobScheduler.Tenancy.ScopeNesting
import JobScheduler.Persistence.RowWrites
import JobScheduler.Persistence.GuardedCalls
import JobScheduler.Persistence.PartialWrites
import JobScheduler.Persistence.SplitTransactions
import JobScheduler.Persistence.RenewedLeases
import JobScheduler.Lifecycle.RoundProgress
import JobScheduler.Lifecycle.RetryRounds
import JobScheduler.Storage.IndexInvariant
import JobScheduler.Tenancy.OwnJobs
import JobScheduler.Analyzers.MutationDependencyBoundaryAnalyzer
import JobScheduler.Analyzers.MutationBoundary
import JobScheduler.Dispatching.JobDispatcher
import JobScheduler.Workers.QueuedJobWorker
import JobScheduler.Workers.JobWorkerPool
import JobScheduler.Workers.PoolSteps
import JobScheduler.Library.Holders
import JobScheduler.Library.Simulation
import JobScheduler.Library.Stages
import JobScheduler.Workers.PoolSimulation
import JobScheduler.Ledger.AttemptLimit
import JobScheduler.Ledger.JobEvents
import JobScheduler.Workers.PoolLog
import JobScheduler.Workers.PoolOutcomes
import JobScheduler.Workers.PoolReach
import JobScheduler.Workers.PoolExecutions
import JobScheduler.Workers.WelcomeEmails
import JobScheduler.Lifecycle.Drain
import JobScheduler.Authorization.DevelopmentHeaderJobActorProvider
import JobScheduler.Actions.EnqueuedJobs
import JobScheduler.Api.JobsApi
import JobScheduler.Api.ReadBack
import JobScheduler.Library.Noninterference
import JobScheduler.Api.TenantRuns
import JobScheduler.Ledger.Chronology
import JobScheduler.Workers.ClockedSteps
import JobScheduler.Workers.ChronologicalRuns
import JobScheduler.Workers.PoolShutdown
import JobScheduler.DataAccess.DataAccessScopedJobStore
import JobScheduler.Workers.PoolDelays
import JobScheduler.Authorization.RequestHeaders
import JobScheduler.Workers.PoolNames
import JobScheduler.Library.Outbox
import JobScheduler.Workers.LoggingPool
