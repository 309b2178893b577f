import Mathlib.Data.List.Chain
import JobScheduler.Ledger.LawfulStore
import JobScheduler.Ledger.RecordSteps

/-! The status changes a history shows: which status may follow which, and what that says
about the outcomes recorded for the runs of one job.
-/

namespace JobScheduler

open Library

/-- The first status may be followed by the second one in a history. -/
inductive JobStatus.Precedes : JobStatus → JobStatus → Prop
  | queued : Precedes .scheduled .queued
  | claimed : Precedes .queued .running
  | reclaimed : Precedes .running .running
  | completed : Precedes .running .completed
  | failed : Precedes .running .failed
  | retried : Precedes .failed .scheduled

namespace JobRecord

/-- The statuses of the history, oldest first. -/
def statuses (job : JobRecord) : List JobStatus := job.history.map JobStateChange.status

/-- Attempts are the `Running` statuses. -/
theorem attemptCount_eq_count (job : JobRecord)
    : job.attemptCount = job.statuses.count .running := by
  rw [statuses, List.count, List.countP_map]
  rfl

/-- A history that starts pending, moves by legal steps, and ends in the job's status. -/
structure LegalHistory (job : JobRecord) : Prop where
  starts : job.statuses.head? = some .queued ∨ job.statuses.head? = some .scheduled
  chain : job.statuses.IsChain JobStatus.Precedes
  current : job.statuses.getLast? = some job.status
  inOrder : job.Numbered

/-- A new job waits and shows its first status alone. -/
theorem NewlyMade.waits {job : JobRecord} (new : job.NewlyMade)
    : job.isPending = true ∧ job.statuses = [job.status] := by
  obtain ⟨_, _, _, made, -⟩ := new.cases
  rcases made with ⟨history, status, -⟩ | ⟨_, history, status, -⟩
  · simp only [isPending, statuses, history, status]
    exact ⟨rfl, rfl⟩
  · simp only [isPending, statuses, history, status]
    exact ⟨rfl, rfl⟩

theorem NewlyMade.legalHistory {job : JobRecord} (new : job.NewlyMade)
    : job.LegalHistory := by
  obtain ⟨pending, shown⟩ := new.waits
  have first : job.status = .queued ∨ job.status = .scheduled := by
    simpa [isPending] using pending
  refine ⟨?_, ?_, ?_, new.numbered⟩
  · rw [shown]
    exact first.imp (congrArg some) (congrArg some)
  · rw [shown]
    exact .singleton _
  · rw [shown]
    rfl

/-- A history that is not extended stays legal under the same status. -/
theorem LegalHistory.sameHistory {job changed : JobRecord} (legal : job.LegalHistory)
    (history : changed.history = job.history) (status : changed.status = job.status)
    : changed.LegalHistory := by
  obtain ⟨starts, chain, current, inOrder⟩ := legal
  have shown : changed.statuses = job.statuses := by rw [statuses, statuses, history]
  refine ⟨shown ▸ starts, shown ▸ chain, ?_, ?_⟩
  · rw [shown, status]
    exact current
  · rwa [Numbered, history]

/-- Entries that form a chain from the current status on extend a legal history. -/
theorem LegalHistory.extended {job changed : JobRecord} {added : List JobStateChange}
    (legal : job.LegalHistory)
    (history : changed.history = numbered (job.history ++ added))
    (chain
      : (job.status :: added.map JobStateChange.status).IsChain JobStatus.Precedes)
    (current : (added.map JobStateChange.status).getLast? = some changed.status)
    : changed.LegalHistory := by
  have shown : changed.statuses = job.statuses ++ added.map JobStateChange.status := by
    rw [statuses, history, statuses_numbered, List.map_append, statuses]
  obtain ⟨first, rest⟩ := List.isChain_cons.mp chain
  refine ⟨?_, ?_, ?_, numbered_of_construct history⟩
  · rw [shown]
    rcases legal.starts with queued | scheduled
    · exact Or.inl (by rw [List.head?_append, queued]; rfl)
    · exact Or.inr (by rw [List.head?_append, scheduled]; rfl)
  · rw [shown]
    refine legal.chain.append rest ?_
    intro last final next after
    rw [legal.current] at final
    cases final
    exact first next after
  · rw [shown, List.getLast?_append, current]
    rfl

/-- Every step keeps the history legal, one kind of step at a time. -/
theorem LegalHistory.step {nextDue : DateTimeOffset → Option JobRecord} {ambient : Ambient}
    {call : StoreCall} {job changed : JobRecord} (legal : job.LegalHistory)
    (step : RecordStep nextDue ambient call job changed)
    : changed.LegalHistory := by
  have history := step.history_eq
  cases step with
  | @claimed now workerId leaseExpiresAt _ picked ready valid =>
      refine legal.extended history ?_ ?_
      -- only a job that waits or runs can be claimed
      · cases status : job.status with
        | queued =>
            simp only [StoreCall.appended, status]
            exact .cons_cons .claimed (.singleton _)
        | scheduled =>
            simp only [StoreCall.appended, status]
            exact .cons_cons .queued (.cons_cons .claimed (.singleton _))
        | running =>
            simp only [StoreCall.appended, status]
            exact .cons_cons .reclaimed (.singleton _)
        | completed | failed =>
            rcases ready with pending | ⟨running, -⟩
            · simp [isPending, status] at pending
            · cases status.symm.trans running
      · obtain ⟨last, final, running, -⟩ := job.claimedUnder_eq ambient now workerId
          leaseExpiresAt
        rw [List.getLast?_map, final, claimedUnder_status, Option.map_some, running]
  | renewed => exact legal.sameHistory legal.inOrder rfl
  | acknowledged => exact legal.sameHistory legal.inOrder rfl
  | completed running =>
      refine legal.extended history ?_ rfl
      rw [running]
      exact .cons_cons .completed (.singleton _)
  | failed running =>
      refine legal.extended history ?_ rfl
      rw [running]
      exact .cons_cons .failed (.singleton _)
  | retried running =>
      refine legal.extended history ?_ rfl
      rw [running]
      exact .cons_cons .failed (.cons_cons .retried (.singleton _))

end JobRecord

/-- The entries a step appends show in the statuses. -/
theorem RecordStep.statuses_eq {nextDue : DateTimeOffset → Option JobRecord}
    {ambient : Ambient} {call : StoreCall} {job changed : JobRecord}
    (step : RecordStep nextDue ambient call job changed)
    : changed.statuses
      = job.statuses ++ (call.appended ambient job).map JobStateChange.status := by
  rw [JobRecord.statuses, step.history_eq, statuses_numbered, List.map_append,
    JobRecord.statuses]

/-- Every job of a lawful store has a legal history in every reachable state. -/
theorem LawfulStore.jobs_legalHistory {State Caller : Type}
    {store : LawfulStore State Caller} {state : State} (reached : store.Reachable state)
    : ∀ job ∈ store.jobs state, job.LegalHistory :=
  store.jobs_reached (P := JobRecord.LegalHistory) (fun _ _ admissible => admissible)
    (fun _ _ _ _ _ new => new.legalHistory) (fun _ _ _ _ _ step _ legal => legal.step step)
    reached

/-- The entry records how a run ended. -/
def JobStateChange.isOutcome (change : JobStateChange) : Bool :=
  change.status = .completed || change.status = .failed

theorem JobStateChange.isOutcome_iff {change : JobStateChange}
    : change.isOutcome = true ↔ change.status = .completed ∨ change.status = .failed := by
  simp [isOutcome]

/-- Only a running job gets an outcome. -/
theorem JobStatus.Precedes.outcome {status : JobStatus} {change : JobStateChange}
    (step : status.Precedes change.status) (outcome : change.isOutcome = true)
    : status = .running := by
  rcases JobStateChange.isOutcome_iff.mp outcome with completed | failed
  · rw [completed] at step
    cases step
    rfl
  · rw [failed] at step
    cases step
    rfl

namespace JobRecord

/-- Between two outcomes a new run is recorded, the entry before the second one. -/
theorem LegalHistory.run_between {job : JobRecord} (legal : job.LegalHistory)
    {before middle after : List JobStateChange} {first second : JobStateChange}
    (history : job.history = before ++ first :: (middle ++ second :: after))
    (firstEnds : first.isOutcome = true) (secondEnds : second.isOutcome = true)
    : ∃ change ∈ middle, change.status = .running := by
  have chain := legal.chain
  rw [statuses, history, List.map_append, List.map_cons, List.map_append,
    List.map_cons] at chain
  have rest := chain.right_of_append
  cases last : middle.getLast? with
  | none =>
      rw [List.getLast?_eq_none_iff.mp last] at rest
      have adjacent : first.status.Precedes second.status := (List.isChain_cons_cons.mp rest).1
      have running := adjacent.outcome secondEnds
      rcases JobStateChange.isOutcome_iff.mp firstEnds with other | other <;>
        cases other.symm.trans running
  | some change =>
      have parts := List.isChain_append.mp (List.isChain_cons.mp rest).2
      have adjacent : change.status.Precedes second.status :=
        parts.2.2 change.status (by simp [last]) second.status (by simp)
      exact ⟨change, List.mem_of_getLast? last, adjacent.outcome secondEnds⟩

/-- An entry that ends the job: `Completed`, or `Failed` with no retry scheduled after. -/
def EndsJob (change : JobStateChange) (after : List JobStateChange) : Prop :=
  change.status = .completed
  ∨ change.status = .failed ∧ after.head?.map JobStateChange.status ≠ some .scheduled

/-- Nothing follows the entry that ends the job. -/
theorem LegalHistory.ends {job : JobRecord} (legal : job.LegalHistory)
    {before after : List JobStateChange} {change : JobStateChange}
    (history : job.history = before ++ change :: after) (ends : EndsJob change after)
    : after = [] := by
  cases after with
  | nil => rfl
  | cons next rest =>
      have chain := legal.chain
      rw [statuses, history, List.map_append, List.map_cons, List.map_cons] at chain
      have adjacent : change.status.Precedes next.status :=
        (List.isChain_cons_cons.mp chain.right_of_append).1
      rcases ends with completed | ⟨failed, noRetry⟩
      · rw [completed] at adjacent
        cases adjacent
      · rw [failed] at adjacent
        have retried : next.status = .scheduled := by
          generalize next.status = status at adjacent
          cases adjacent
          rfl
        simp [retried] at noRetry

end JobRecord

end JobScheduler
