import JobScheduler.Actions.EnqueuedJobs
import JobScheduler.Ledger.Chronology
import JobScheduler.Workers.PoolReach

/-! Jobs that have to wait. An entry of a history that schedules the job names an instant, and
the claim that follows it does not come before this instant; for the first entry of a history
it is the end of the delay that was asked for.
-/

namespace JobScheduler

open Library JobLifecycleService

namespace JobRecord

/-- The first change names an instant if it schedules the job, and the next is not before it. -/
def Delays (before next : JobStateChange) : Prop :=
  before.status = .scheduled → ∃ due, before.scheduledAt = some due ∧ due ≤ next.changedAt

/-- What follows a `Scheduled` entry is not dated before the instant that the entry names. -/
def KeepsDelays (job : JobRecord) : Prop := job.history.IsChain Delays

/-- A job whose history begins with a delay is of a registered type, and the delay is one that
the definition of the type allows.
-/
def DelayedAsAsked (definitions : IJobDefinitionRegistry) (job : JobRecord) : Prop :=
  ∀ first,
    job.history.head? = some first
    → first.status = .scheduled
    → ∃ definition delaySeconds due,
        definitions job.type = some definition
        ∧ 0 < delaySeconds
        ∧ delaySeconds ≤ definition.maxScheduleDelaySeconds
        ∧ first.changedAt.add (.fromSeconds delaySeconds) = .ok due
        ∧ first.scheduledAt = some due

/-- Delays were kept so far, and a scheduled job is due when its last entry says. -/
structure Waits (job : JobRecord) : Prop where
  legal : job.LegalHistory
  keeps : job.KeepsDelays
  runAt
    : job.status = .scheduled
      → ∀ last, job.history.getLast? = some last → last.scheduledAt = job.runAt

end JobRecord

/-- The numbers of entries do not matter to delays. -/
theorem isChain_delays_numbered (history : List JobStateChange)
    : (numbered history).IsChain JobRecord.Delays ↔ history.IsChain JobRecord.Delays := by
  let timing (change : JobStateChange) := (change.status, change.scheduledAt, change.changedAt)
  let inTime (before next : JobStatus × Option DateTimeOffset × DateTimeOffset) : Prop :=
    before.1 = .scheduled → ∃ due, before.2.1 = some due ∧ due ≤ next.2.2
  have seen (history : List JobStateChange)
      : history.IsChain JobRecord.Delays ↔ (history.map timing).IsChain inTime :=
    (@List.isChain_map _ _ inTime timing history).symm
  rw [seen, seen, map_numbered (fun _ _ => rfl)]

/-- What a call appends contains nothing that follows a `Scheduled` entry. -/
theorem StoreCall.appended_delays (ambient : Ambient) (job : JobRecord) (call : StoreCall)
    : (call.appended ambient job).IsChain JobRecord.Delays := by
  have afterOther {first second : JobStateChange} (other : first.status ≠ .scheduled)
      : [first, second].IsChain JobRecord.Delays :=
    List.isChain_pair.mpr (fun scheduled => absurd scheduled other)
  cases call with
  | tryClaimNextDueJob now workerId leaseExpiresAt =>
      cases status : job.status with
      | scheduled =>
          simp only [appended, status]
          exact afterOther (fun same => by cases same)
      | queued | running | completed | failed =>
          simp only [appended, status]
          exact .singleton _
  | markCompleted | markFailed => exact .singleton _
  | scheduleRetry => exact afterOther (fun same => by cases same)
  | add | get | list | renewLease | acknowledge => exact .nil

/-- Only a claim appends to the history of a scheduled job, and it looks for one that is due. -/
theorem RecordStep.due_of_scheduled {nextDue : DateTimeOffset → Option JobRecord}
    {ambient : Ambient} {call : StoreCall} {job changed : JobRecord}
    (step : RecordStep nextDue ambient call job changed)
    (due : ∀ now other, nextDue now = some other → other.isDue now = true)
    (scheduled : job.status = .scheduled) {change : JobStateChange}
    (member : change ∈ call.appended ambient job)
    : ∃ instant, job.runAt = some instant ∧ instant ≤ change.changedAt := by
  have dated := StoreCall.appended_changedAt member
  cases step with
  | @claimed now _ _ _ picked =>
      cases dated
      have past := (Bool.and_eq_true_iff.mp (due _ _ picked)).2
      rw [JobRecord.dueInstant, if_neg (by rw [scheduled]; decide)] at past
      simp only [Option.any_eq_true, decide_eq_true_eq] at past
      exact past
  | renewed | acknowledged => cases member
  | completed running | failed running | retried running => cases scheduled.symm.trans running

/-- A record step keeps delays, and leaves a job that is scheduled for what its last entry says. -/
theorem RecordStep.waits {nextDue : DateTimeOffset → Option JobRecord} {ambient : Ambient}
    {call : StoreCall} {job changed : JobRecord}
    (step : RecordStep nextDue ambient call job changed) (waits : job.Waits)
    (due : ∀ now other, nextDue now = some other → other.isDue now = true)
    : changed.Waits := by
  have history := step.history_eq
  refine ⟨waits.legal.step step, ?_, ?_⟩
  · rw [JobRecord.KeepsDelays, history, isChain_delays_numbered]
    refine waits.keeps.append (call.appended_delays ambient job) ?_
    intro last final next first scheduled
    have current := waits.legal.current
    rw [JobRecord.statuses, List.getLast?_map, final] at current
    have same : job.status = .scheduled := (Option.some.inj current).symm.trans scheduled
    obtain ⟨instant, runAt, past⟩ :=
      step.due_of_scheduled due same (List.mem_of_mem_head? first)
    exact ⟨instant, (waits.runAt same last final).trans runAt, past⟩
  · intro scheduled last final
    have shown := congrArg (Option.map JobStateChange.scheduledAt) final
    rw [← List.getLast?_map, history, map_numbered (fun _ _ => rfl), List.getLast?_map] at shown
    cases step with
    | claimed => simp at scheduled
    | completed | failed => cases scheduled
    | retried =>
        rw [StoreCall.appended, List.getLast?_append] at shown
        exact (Option.some.inj shown).symm
    | renewed | acknowledged =>
        have kept : job.history.getLast?.map JobStateChange.scheduledAt
            = some last.scheduledAt := by
          rw [← List.append_nil job.history]
          exact shown
        obtain ⟨entry, ends, same⟩ := Option.map_eq_some_iff.mp kept
        exact same ▸ waits.runAt scheduled entry ends

/-- The delay a job was asked to wait stays what it is. -/
theorem JobRecord.DelayedAsAsked.continues {definitions : IJobDefinitionRegistry}
    {job changed : JobRecord} (asked : job.DelayedAsAsked definitions)
    (legal : job.LegalHistory) (later : job.Continues changed)
    : changed.DelayedAsAsked definitions := by
  intro first begins scheduled
  obtain ⟨added, history⟩ := later.history
  rw [← history, List.head?_append] at begins
  rw [later.type]
  cases before : job.history.head? with
  | none =>
      have starts := legal.starts
      rw [JobRecord.statuses, List.head?_map, before] at starts
      exact absurd starts (by simp)
  | some entry =>
      rw [before] at begins
      cases begins
      exact asked _ before scheduled

namespace WorkerPool

variable {worker : QueuedJobWorker} {pool : WorkerPool} {system : WorkerSystem Database}

end WorkerPool

end JobScheduler
