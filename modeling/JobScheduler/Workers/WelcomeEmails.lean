import JobScheduler.Definitions.SendWelcomeEmail
import JobScheduler.Workers.PoolOutcomes

/-! The program as it is configured: welcome emails are its only jobs. What becomes of one is
decided by its payload alone, whatever the workers, the clients and restarts do.
-/

namespace JobScheduler

open Library JobLifecycleService

/-- If the task of the handler returns, what the handlers gave is what it returned. -/
theorem QueuedJobWorker.Gave.eq_of_returned {worker : QueuedJobWorker}
    {handlers : IJobHandlerRegistry} {job : JobRecord} {result returned : JobExecutionResult}
    (gave : worker.Gave handlers job result)
    (dispatched : JobDispatcher.executeAsync handlers job = .returned returned)
    : result = returned := by
  obtain ⟨stopping, ended⟩ := gave
  unfold QueuedJobWorker.executeInScope at ended
  simp only at ended
  split at ended
  · cases ended
  · simp only [QueuedJobWorker.executeJob, dispatched] at ended
    cases ended
    rfl

section Registries

variable {serializer : JsonSerializer} {definitions : IJobDefinitionRegistry}
  {handlers : IJobHandlerRegistry}

/-- A job that was accepted is a welcome email to a user, to be sent within three attempts. -/
theorem JobRecord.Accepted.welcomeEmail
    (registered
      : JobDefinitionRegistry.create [sendWelcomeEmailJobDefinition serializer]
        = .ok definitions)
    {job : JobRecord} (accepted : job.Accepted definitions)
    : job.type = JobTypes.sendWelcomeEmail
      ∧ job.maxAttempts = 3
      ∧ ∃ payload : SendWelcomeEmailJobPayload,
          job.payload = serializer.serializeToElement payload
          ∧ payload.userId.all isNullOrWhiteSpace = false
          ∧ payload.email.all isNullOrWhiteSpace = false := by
  obtain ⟨definition, offered, found, valid, stored, attempts⟩ := accepted
  rw [find?_toDictionary registered, List.find?_singleton] at found
  split at found
  · rename_i type
    cases found
    obtain ⟨payload, written, named, addressed⟩ :=
      SendWelcomeEmailJobDefinition.validatePayload_valid valid
    exact ⟨(of_decide_eq_true type).symm, attempts, payload, stored.trans written, named,
      addressed⟩
  · cases found

/-- A welcome email is dispatched to the handler of the program. -/
theorem dispatch_welcomeEmail
    (registered
      : JobHandlerRegistry.create [sendWelcomeEmailJobHandler serializer] = .ok handlers)
    {job : JobRecord} (type : job.type = JobTypes.sendWelcomeEmail)
    {payload : SendWelcomeEmailJobPayload}
    (stored : job.payload = serializer.serializeToElement payload)
    : JobDispatcher.executeAsync handlers job = .returned payload.asked := by
  have found : handlers job.type = some (sendWelcomeEmailJobHandler serializer) := by
    rw [find?_toDictionary registered, type]
    rfl
  simp only [JobDispatcher.executeAsync, found]
  exact sendWelcomeEmailJobHandler_executeAsync stored

end Registries

/-- A failure that is the last entry of a job left no attempts. -/
theorem JobRecord.Executed.exhausted {worker : QueuedJobWorker} {handlers : IJobHandlerRegistry}
    {job : JobRecord} (executed : job.Executed worker handlers) (coherent : job.Coherent)
    (failed : job.status = .failed)
    : job.maxAttempts ≤ job.attemptCount := by
  obtain ⟨last, final, -, status⟩ := coherent.current
  rw [List.getLast?_eq_getElem?] at final
  have ended : last.status = .failed := status.symm.trans failed
  obtain ⟨snapshot, result, begins, place, ran⟩ :=
    executed _ last final (JobStateChange.isOutcome_iff.mpr (Or.inr ended))
  obtain ⟨outcome, there, records⟩ := ran.recorded
  rw [place] at there
  cases final.symm.trans there
  have fails : result.succeeded = false := by
    rcases records with ⟨completed, -⟩ | ⟨-, fails, -⟩
    · cases completed.symm.trans ended
    · exact fails
  have attempts : snapshot.attemptCount ≤ job.attemptCount :=
    begins.history.sublist.countP_le
  rw [begins.maxAttempts]
  by_contra left
  obtain ⟨retry, beyond, -⟩ := ran.retried fails (by omega)
  obtain ⟨inside, -⟩ := List.getElem?_eq_some_iff.mp beyond
  omega

namespace WorkerPool

variable {serializer : JsonSerializer} {worker : QueuedJobWorker}
  {handlers : IJobHandlerRegistry} {pool : WorkerPool}

/-- The outcomes of a welcome email are those its payload asks for. -/
theorem Serves.records_asked (serves : Serves worker handlers pool)
    (registered
      : JobHandlerRegistry.create [sendWelcomeEmailJobHandler serializer] = .ok handlers)
    {job : JobRecord} (member : job ∈ pool.factory.database.ledger.rows)
    (type : job.type = JobTypes.sendWelcomeEmail) {payload : SendWelcomeEmailJobPayload}
    (stored : job.payload = serializer.serializeToElement payload) {change : JobStateChange}
    (listed : change ∈ job.history) (outcome : change.isOutcome = true)
    : change.Records payload.asked := by
  obtain ⟨index, there⟩ := List.getElem?_of_mem listed
  obtain ⟨snapshot, result, begins, place, ran⟩ :=
    serves.authentic.ledger.executed job member index change there outcome
  obtain ⟨recorded, here, records⟩ := ran.recorded
  rw [place, there] at here
  cases here
  have dispatched := dispatch_welcomeEmail registered (begins.type.symm.trans type)
    (begins.payload.symm.trans stored)
  rwa [ran.gave.eq_of_returned dispatched] at records

/-- Every job the program has stored is a welcome email to a user, and its payload decides how it
ends: an email that is not asked to fail never fails, one that is asked to never completes, each
of its failures gives the reason of the handler, and it is given up after three attempts only.
-/
theorem welcome_emails_end_as_asked (serves : Serves worker handlers pool)
    (definitions
      : JobDefinitionRegistry.create [sendWelcomeEmailJobDefinition serializer]
        = .ok worker.definitions)
    (registered
      : JobHandlerRegistry.create [sendWelcomeEmailJobHandler serializer] = .ok handlers)
    : ∀ job ∈ pool.factory.database.ledger.rows,
        job.type = JobTypes.sendWelcomeEmail
        ∧ ∃ payload : SendWelcomeEmailJobPayload,
            job.payload = serializer.serializeToElement payload
            ∧ payload.userId.all isNullOrWhiteSpace = false
            ∧ payload.email.all isNullOrWhiteSpace = false
            ∧ (∀ change ∈ job.history,
                change.status = .completed → payload.shouldFail = false)
            ∧ (∀ change ∈ job.history,
                change.status = .failed
                → payload.shouldFail = true
                  ∧ change.reason = "Simulated welcome email failure.")
            ∧ (job.status = .failed → 3 ≤ job.attemptCount) := by
  intro job member
  have authentic := serves.authentic.ledger
  obtain ⟨type, maxAttempts, payload, stored, named, addressed⟩ :=
    (authentic.accepted job member).welcomeEmail definitions
  have records (change : JobStateChange) (listed : change ∈ job.history)
      (outcome : change.status = .completed ∨ change.status = .failed)
      : change.Records payload.asked :=
    serves.records_asked registered member type stored listed
      (JobStateChange.isOutcome_iff.mpr outcome)
  refine ⟨type, payload, stored, named, addressed, ?_, ?_, ?_⟩
  · intro change listed completed
    rcases records change listed (Or.inl completed) with ⟨-, succeeded⟩ | ⟨failed, -⟩
    · unfold SendWelcomeEmailJobPayload.asked at succeeded
      split at succeeded
      · cases succeeded
      · rename_i kept
        exact Bool.not_eq_true _ ▸ kept
    · cases completed.symm.trans failed
  · intro change listed failed
    rcases records change listed (Or.inr failed) with ⟨completed, -⟩ | ⟨-, fails, reason⟩
    · cases completed.symm.trans failed
    · unfold SendWelcomeEmailJobPayload.asked at fails reason
      split at fails
      · rename_i asked
        rw [if_pos asked] at reason
        exact ⟨asked, reason⟩
      · cases fails
  · intro failed
    obtain ⟨system, invariant, tracked⟩ := serves.lives.tracked
    rw [← tracked.store] at member
    have coherent := (invariant.reached.coherenceInvariant job member).coherent
    rw [tracked.store] at member
    have exhausted := (authentic.executed job member).exhausted coherent failed
    omega

end WorkerPool

/-- The worker service of the program, with leases of four ticks. -/
def welcomeWorker : QueuedJobWorker :=
  { emailWorker with definitions := welcomeDefinitions }

def welcomeHandlers : IJobHandlerRegistry := fun type =>
  [sendWelcomeEmailJobHandler CompactJson.serializer].find? (fun handler => handler.type = type)

/-- An attempt of the first loop. -/
def welcomeAttempt (ticks : Nat) : List PoolInput :=
  [.advance (.ofTicks ticks), .poll 0, .claim 0 (smallAmbient ticks),
    .execute 0 welcomeHandlers, .cancelRenewal 0, .leave 0,
    .complete 0 (smallAmbient (ticks + 1))]

/-- An email that is to fail is enqueued and attempted three times, ten seconds apart. -/
def failingWelcome : List PoolInput :=
  .request (emailActor "tenant-a" tenantA_present) (smallAmbient 0)
      (.enqueueJob ⟨JobTypes.sendWelcomeEmail,
        ⟨"\x7b\"userId\":\"user_123\",\"email\":\"person@example.com\",\"shouldFail\":true\x7d"⟩,
        none⟩) rfl
  :: welcomeAttempt 1 ++ welcomeAttempt 100000002 ++ welcomeAttempt 200000003

def failedWelcomeProcess : WorkerPool :=
  ((WorkerPool.machine welcomeWorker).run (.start ⟨2, 60⟩ ⟨none, .empty⟩ (.ofTicks 0))
    failingWelcome).2

theorem failingWelcome_served : ∀ input ∈ failingWelcome, input.ServedBy welcomeHandlers := by
  simp [failingWelcome, welcomeAttempt, PoolInput.ServedBy]

/-- The email has failed, so it was attempted three times. -/
theorem welcome_emails_end_as_asked_failed
    : failedWelcomeProcess.factory.database.ledger.rows.map JobRecord.status = [.failed]
      ∧ ∀ job ∈ failedWelcomeProcess.factory.database.ledger.rows,
          job.type = JobTypes.sendWelcomeEmail
          ∧ (job.status = .failed → 3 ≤ job.attemptCount) := by
  refine ⟨by decide +kernel, ?_⟩
  intro job member
  have serves : WorkerPool.Serves welcomeWorker welcomeHandlers failedWelcomeProcess :=
    (WorkerPool.Serves.first ⟨2, 60⟩ (.ofTicks 0)).run (by decide +kernel)
      failingWelcome_served
  obtain ⟨type, payload, -, -, -, -, -, exhausted⟩ :=
    @WorkerPool.welcome_emails_end_as_asked CompactJson.serializer welcomeWorker welcomeHandlers
      failedWelcomeProcess serves rfl rfl job member
  exact ⟨type, exhausted⟩

end JobScheduler
