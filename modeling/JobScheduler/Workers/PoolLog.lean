import JobScheduler.Ledger.JobEvents
import JobScheduler.Workers.PoolSimulation

/-! What the steps of a worker pool hand to the log against the database. Each entry says what
the call of its step did, so the entries replay, in the order of the steps, what a run appended
to the histories.
-/

namespace JobScheduler

open Library JobLifecycleService

/-- What a log entry says happened to a job. -/
def LogEntry.events (id : Guid) : LogEntry → List JobEvent
  | .claimed _ jobId _ attemptNumber =>
      if jobId = id then [.started attemptNumber] else []
  | .completed _ jobId _ attemptNumber =>
      if jobId = id then [.completed attemptNumber] else []
  | .retryScheduled _ jobId _ attemptNumber failureReason _ scheduledAt =>
      if jobId = id then [.failed attemptNumber failureReason, .retryScheduled scheduledAt]
      else []
  | .failed _ jobId _ finalAttempt failureReason =>
      if jobId = id then [.failed finalAttempt failureReason] else []
  | _ => []

/-- What a list of log entries says happened to a job. -/
def eventsOf (id : Guid) (entries : List LogEntry) : List JobEvent :=
  entries.flatMap (LogEntry.events id)

/-- Quiet entries say nothing about jobs. -/
theorem eventsOf_quiet {entries : List LogEntry}
    (quiet : entries.all LogEntry.isQuiet = true) (id : Guid)
    : eventsOf id entries = [] := by
  refine List.flatMap_eq_nil_iff.mpr ?_
  intro entry member
  have silent := List.all_eq_true.mp quiet entry member
  cases entry with
  | claimed | completed | retryScheduled | failed => cases silent
  | claimNotAuthorized | completeNotAuthorized | leaseLost | executionThrew
  | renewNotAuthorized | notRenewed | renewalFailed | noDueJob | workerFailed => rfl

/-- The entry of a completion says what the completion reports. -/
theorem events_completionEntry (id : Guid) (workerId : String) (job : JobRecord)
    (completion : JobExecutionCompletion)
    : (QueuedJobWorker.completionEntry workerId job completion).events id
      = if job.id = id then completionEvents job completion else [] := by
  unfold QueuedJobWorker.completionEntry completionEvents
  cases completion.status with
  | completed | retryScheduled | failed => rfl
  | leaseLost => exact (ite_self _).symm

/-- A call with a claim token adds no job. -/
theorem JobLifecycleService.Carries.admissible {snapshot : JobRecord} {call : StoreCall}
    (carries : Carries snapshot call)
    : call.Admissible := by
  intro job added
  rw [added] at carries
  cases carries

namespace WorkerPool

variable {worker : QueuedJobWorker} {pool : WorkerPool} {system : WorkerSystem Database}

/-- A call of a tracked pool is a step of the ledger. -/
theorem TrackedBy.ledgerStep (tracked : pool.TrackedBy system)
    (invariant : WorkerSystem.Invariant SqliteJobStore.lawful system)
    {context : DataAccessPolicyContext} {ambient : Ambient} {call : StoreCall}
    {answer : StoreAnswer} {next : DbContextFactory} (admissible : call.Admissible)
    (answered
      : (DbContextFactory.store context).call ambient call pool.factory = (answer, next))
    : ∃ visible nextDue,
        LedgerStep visible nextDue ambient pool.factory.database.ledger call answer
          next.database.ledger := by
  obtain ⟨filter, called⟩ := tracked.called answered
  have step := SqliteJobStore.lawful.follows filter ambient call system.store
    invariant.reached.reachable.sound admissible
  change LedgerStep _ _ ambient system.store.ledger call
    ((SqliteJobStore.methods filter).call ambient call system.store).1
    ((SqliteJobStore.methods filter).call ambient call system.store).2.ledger at step
  rw [called, tracked.store] at step
  exact ⟨_, _, step⟩

/-- The job of a loop that is about to complete it has run, and as long as it runs under the
token of the loop it is stored as the loop has seen it.
-/
theorem TrackedBy.completing (tracked : pool.TrackedBy system)
    (invariant : WorkerSystem.Invariant SqliteJobStore.lawful system) {index : Nat}
    {job : JobRecord} {leaseExpiresAt : DateTimeOffset} {result : JobExecutionResult}
    (there : pool.phases[index]? = some (.completing job leaseExpiresAt result))
    : job.attemptCount ≠ 0
      ∧ ∀ stored,
          pool.factory.database.ledger.find? job.id = some stored
          → stored.isRunningUnder job.currentStateChangeId = true
          → stored.history = job.history := by
  obtain ⟨entry, backs⟩ := tracked.backed
  have listed := backs.listed index _ (claimAt_of there)
  obtain ⟨caller, claimed⟩ := invariant.granted _ _ listed
  obtain ⟨running, found, stored, -, begins, coherent, -⟩ := claimed.stored
  refine ⟨?_, ?_⟩
  · obtain ⟨change, final, -, status⟩ := running
    exact Nat.ne_of_gt (List.countP_pos_iff.mpr
      ⟨change, List.mem_of_getLast? final, by simpa using status⟩)
  · intro other there owned
    rw [← tracked.store] at there
    cases Option.some.inj (stored.symm.trans there)
    exact (coherent.isRunningUnder_iff running begins).mp owned

/-- The entries of a completion say what it did, whatever the store answered. -/
theorem eventsOf_completed {workerId : String} {job : JobRecord} {workerNumber : Nat}
    {completion : JobExecutionCompletion} {answer : StoreAnswer} {entries : List LogEntry}
    (reports
      : (∃ reported,
          completionFrom completion answer = .ok reported
          ∧ entries = [QueuedJobWorker.completionEntry workerId job reported])
        ∨ ∃ exception,
            completionFrom completion answer = .error exception
            ∧ entries = [.workerFailed workerNumber])
    (id : Guid)
    : eventsOf id entries
      = if answer = .flag true ∧ job.id = id then completionEvents job completion else [] := by
  by_cases accepted : answer = .flag true
  · subst accepted
    rcases reports with ⟨reported, shown, rfl⟩ | ⟨exception, shown, -⟩
    · cases shown
      rw [eventsOf, List.flatMap_singleton, events_completionEntry]
      simp
    · cases shown
  · rw [if_neg (fun both => accepted both.1)]
    rcases reports with ⟨reported, shown, rfl⟩ | ⟨exception, -, rfl⟩
    · have lost : reported = .leaseLost := by
        unfold completionFrom at shown
        split at shown
        · exact absurd rfl accepted
        · cases shown
        · cases shown
          rfl
      rw [lost, eventsOf, List.flatMap_singleton]
      rfl
    · rfl

/-- What a step appends to the history of a job is what it has to log about the job. -/
theorem TrackedBy.events_step (tracked : pool.TrackedBy system)
    (invariant : WorkerSystem.Invariant SqliteJobStore.lawful system)
    (worker : QueuedJobWorker) {input : PoolInput} (allowed : pool.Allowed input) (id : Guid)
    : (pool.step worker input).2.factory.database.ledger.events id
      = pool.factory.database.ledger.events id ++ eventsOf id (pool.step worker input).1 := by
  have move := step_poolStep worker pool input
  generalize (pool.step worker input).1 = entries at move ⊢
  generalize (pool.step worker input).2 = after at move ⊢
  cases move with
  | advanced | stopping | issued => exact (List.append_nil _).symm
  | @requested actor ambient request client context call reading adds =>
      obtain ⟨visible, nextDue, step⟩ := tracked.ledgerStep invariant adds.admissible rfl
      refine (step.events_of_silent ?_ ?_ id).trans (List.append_nil _).symm
      · cases call with
        | add | get | list | acknowledge => rfl
        | tryClaimNextDueJob | renewLease | markCompleted | markFailed | scheduleRetry =>
            cases reading
      · intro job added
        rw [adds.id added]
        exact allowed.2
  | idle _ quiet | moved _ _ _ _ _ _ _ quiet | executed _ _ _ quiet =>
      rw [eventsOf_quiet quiet]
      exact (List.append_nil _).symm
  | claimMissed there authorized added answered nothing quiet =>
      obtain ⟨visible, nextDue, step⟩ := tracked.ledgerStep invariant
        (StoreCall.admissible_claim _ _ _) answered
      rw [eventsOf_quiet quiet, List.append_nil]
      exact congrArg (fun ledger => Ledger.events ledger id) (step.eq_of_noJob nothing)
  | claimed there authorized added answered =>
      obtain ⟨visible, nextDue, step⟩ := tracked.ledgerStep invariant
        (StoreCall.admissible_claim _ _ _) answered
      refine (step.events_of_claim id).trans ?_
      rw [eventsOf, List.flatMap_singleton]
      rfl
  | renewalMissed there reading authorized added answered refused quiet =>
      obtain ⟨visible, nextDue, step⟩ := tracked.ledgerStep invariant
        (Carries.renewLease _ _).admissible answered
      rw [eventsOf_quiet quiet, List.append_nil]
      exact step.events_of_silent rfl (fun job added => by cases added) id
  | renewed there reading authorized added answered =>
      obtain ⟨visible, nextDue, step⟩ := tracked.ledgerStep invariant
        (Carries.renewLease _ _).admissible answered
      exact (step.events_of_silent rfl (fun job added => by cases added) id).trans
        (List.append_nil _).symm
  | completed there authorized issued answered reports =>
      have admissible := (completionCall_carries issued).admissible
      obtain ⟨visible, nextDue, step⟩ := tracked.ledgerStep invariant admissible answered
      obtain ⟨ran, owned⟩ := tracked.completing invariant there
      rw [eventsOf_completed reports]
      exact step.events_of_completion issued ran owned id

end WorkerPool

/-- A registry whose handler always fails. -/
def failingHandlers : IJobHandlerRegistry := fun _ =>
  some ⟨"email", fun _ => .returned (.failure "no mail server")⟩

end JobScheduler
