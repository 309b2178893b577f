import JobScheduler.Ledger.AttemptReports

/-! Histories in order of time. A record step puts one clock reading on what it appends, so it
keeps the order exactly when that reading does not lie before the last change.
-/

namespace JobScheduler

namespace JobRecord

/-- `ChangedAt` never decreases along the history. -/
def Chronological (job : JobRecord) : Prop :=
  (job.history.map JobStateChange.changedAt).IsChain (· ≤ ·)

instance (job : JobRecord) : Decidable job.Chronological :=
  inferInstanceAs (Decidable (List.IsChain _ _))

/-- `History[^1].ChangedAt`. -/
def lastChangedAt (job : JobRecord) : Option DateTimeOffset :=
  (job.history.map JobStateChange.changedAt).getLast?

/-- No finished attempt ended before it started. -/
def NonnegativeDurations (job : JobRecord) : Prop :=
  ∀ attempt ∈ job.attempts, ∀ duration ∈ attempt.duration, 0 ≤ duration.ticks

instance (job : JobRecord) : Decidable job.NonnegativeDurations :=
  inferInstanceAs (Decidable (∀ attempt ∈ job.attempts, _))

theorem subtract_nonnegative {later earlier : DateTimeOffset} (ordered : earlier ≤ later)
    : 0 ≤ (later.subtract earlier).ticks := by
  have ticks : earlier.utcTicks ≤ later.utcTicks := ordered
  simp only [DateTimeOffset.subtract]
  omega

/-- No run is followed by a change dated before its start. -/
def RunsForward (job : JobRecord) : Prop :=
  (job.history.map (fun change => (change.status, change.changedAt))).IsChain
    (fun first second => first.1 = .running → first.2 ≤ second.2)

/-- Attempts projected from a legal history whose runs go forward have no negative duration, by
induction along the projection; the run it remembers stands before the rest of the history.
-/
theorem duration_attemptsFrom (count : Nat) (current : Option JobStateChange)
    (history : List JobStateChange)
    (legal
      : ((current.toList ++ history).map JobStateChange.status).IsChain JobStatus.Precedes)
    (running : ∀ run ∈ current, run.status = .running)
    (forward
      : (current.toList ++ history).IsChain
          (fun first second => first.status = .running → first.changedAt ≤ second.changedAt))
    : ∀ attempt ∈ attemptsFrom count current history,
        ∀ duration ∈ attempt.duration, 0 ≤ duration.ticks := by
  fun_induction attemptsFrom count current history with
  | case1 count => simp
  | case2 count run => simp [JobAttempt.running, JobAttempt.duration, JobAttempt.finishedAt]
  | case3 count current change rest starts ih =>
      cases current with
      | none => exact ih legal (by simp [starts]) forward
      | some run => exact ih legal.tail (by simp [starts]) forward.tail
  | case4 count change rest idle ih => exact ih legal.tail running forward.tail
  | case5 count change rest idle run completes ih | case6 count change rest idle run _ fails ih =>
      have took := (List.isChain_cons_cons.mp forward).1 (running run rfl)
      intro attempt member duration finished
      rcases List.mem_cons.mp member with rfl | later
      · cases finished
        exact subtract_nonnegative took
      · exact ih legal.tail.tail (by simp) forward.tail.tail attempt later duration finished
  | case7 count change rest idle run incomplete lasts ih =>
      rcases next_of_running legal (running run rfl) with starts | completes | fails
      · exact absurd starts idle
      · exact absurd completes incomplete
      · exact absurd fails lasts

/-- If its runs go forward, a legal history gives no negative duration. -/
theorem LegalHistory.nonnegativeDurations {job : JobRecord} (legal : job.LegalHistory)
    (forward : job.RunsForward)
    : job.NonnegativeDurations := by
  unfold NonnegativeDurations
  rw [attempts_eq]
  exact duration_attemptsFrom 0 none job.history legal.chain (by simp)
    ((List.isChain_map _).mp forward)

end JobRecord

/-- The clock reading a call brings to the job it changes. -/
def StoreCall.reading (ambient : Ambient) : StoreCall → Option DateTimeOffset
  | .tryClaimNextDueJob now _ _ => some now
  | .renewLease _ _ renewedAt _ => some renewedAt
  | .markCompleted _ _ | .markFailed _ _ _ | .scheduleRetry _ _ _ _ => some ambient.utcNow
  | _ => none

/-- What a call appends carries the reading of the call. -/
theorem StoreCall.appended_changedAt {ambient : Ambient} {job : JobRecord} {call : StoreCall}
    {change : JobStateChange} (member : change ∈ call.appended ambient job)
    : call.reading ambient = some change.changedAt := by
  cases call with
  | tryClaimNextDueJob now workerId leaseExpiresAt =>
      cases status : job.status with
      | scheduled =>
          simp only [appended, status, List.mem_cons, List.not_mem_nil, or_false] at member
          rcases member with rfl | rfl <;> rfl
      | queued | running | completed | failed =>
          simp only [appended, status, List.mem_singleton] at member
          cases member
          rfl
  | markCompleted | markFailed =>
      cases List.mem_singleton.mp member
      rfl
  | scheduleRetry =>
      simp only [appended, List.mem_cons, List.not_mem_nil, or_false] at member
      rcases member with rfl | rfl <;> rfl
  | add | get | list | renewLease | acknowledge => cases member

namespace JobRecord

/-- The last time is not changed by renumbering, and is that of the entries added, if any. -/
theorem lastChangedAt_extended {job changed : JobRecord} {added : List JobStateChange}
    (history : changed.history = numbered (job.history ++ added))
    : changed.lastChangedAt
      = (added.map JobStateChange.changedAt).getLast?.or job.lastChangedAt := by
  rw [lastChangedAt, history, map_numbered (fun _ _ => rfl), List.map_append,
    List.getLast?_append]
  rfl

/-- The last change of a claimed job is dated by the claim. -/
theorem claimedUnder_lastChangedAt (job : JobRecord) (ambient : Ambient)
    (now : DateTimeOffset) (workerId : String) (leaseExpiresAt : DateTimeOffset)
    : (job.claimedUnder ambient now workerId leaseExpiresAt).lastChangedAt = some now := by
  obtain ⟨entry, added, -, record⟩ := job.claimedUnder_eq ambient now workerId leaseExpiresAt
  have stamped := StoreCall.appended_changedAt (List.mem_of_getLast? added)
  cases stamped
  rw [lastChangedAt_extended (by rw [record]), List.getLast?_map, added]
  rfl

end JobRecord

/-- All entries a call appends are dated alike, so any two of them are in order. -/
theorem StoreCall.appended_isChain (ambient : Ambient) (job : JobRecord) (call : StoreCall)
    : (call.appended ambient job).IsChain
        (fun first second => first.changedAt ≤ second.changedAt) := by
  refine (List.pairwise_of_forall_mem_list ?_).isChain
  intro first here second there
  have same := (StoreCall.appended_changedAt here).symm.trans
    (StoreCall.appended_changedAt there)
  exact (Option.some.inj same).le

/-- A step keeps a history in order of time exactly when what it appends is not dated before
the last change.
-/
theorem RecordStep.chronological_iff {nextDue : DateTimeOffset → Option JobRecord}
    {ambient : Ambient} {call : StoreCall} {job changed : JobRecord}
    (step : RecordStep nextDue ambient call job changed)
    : changed.Chronological
      ↔ job.Chronological
        ∧ ∀ last ∈ job.lastChangedAt,
            ∀ change ∈ call.appended ambient job, last ≤ change.changedAt := by
  have inner := (List.isChain_map JobStateChange.changedAt).mpr
    (call.appended_isChain ambient job)
  rw [JobRecord.Chronological, step.history_eq, map_numbered (fun _ _ => rfl),
    List.map_append, List.isChain_append]
  constructor
  · rintro ⟨before, -, joined⟩
    refine ⟨before, ?_⟩
    intro last final change member
    cases added : call.appended ambient job with
    | nil =>
        rw [added] at member
        cases member
    | cons first rest =>
        rw [added] at joined
        have here : first ∈ call.appended ambient job := added ▸ List.mem_cons_self
        have same := (StoreCall.appended_changedAt here).symm.trans
          (StoreCall.appended_changedAt member)
        exact (joined last final first.changedAt rfl).trans (Option.some.inj same).le
  · rintro ⟨before, later⟩
    refine ⟨before, inner, ?_⟩
    intro last final changedAt first
    obtain ⟨change, member, rfl⟩ := List.mem_map.mp (List.mem_of_mem_head? first)
    exact later last final change member

/-- The reading a call brings does not lie before the last change of the job. -/
def StoreCall.NotBeforeLast (ambient : Ambient) (call : StoreCall) (job : JobRecord) : Prop :=
  ∀ last ∈ job.lastChangedAt, ∀ reading ∈ call.reading ambient, last ≤ reading

/-- A step whose reading is not too early keeps the history in order of time. -/
theorem RecordStep.chronological {nextDue : DateTimeOffset → Option JobRecord}
    {ambient : Ambient} {call : StoreCall} {job changed : JobRecord}
    (step : RecordStep nextDue ambient call job changed) (before : job.Chronological)
    (later : call.NotBeforeLast ambient job)
    : changed.Chronological := by
  refine step.chronological_iff.mpr ⟨before, ?_⟩
  intro last final change member
  exact later last final change.changedAt (StoreCall.appended_changedAt member)

/-- A step keeps runs forward if its reading is not too early for a job that runs: only such a
job has a run as its last change.
-/
theorem RecordStep.runsForward {nextDue : DateTimeOffset → Option JobRecord}
    {ambient : Ambient} {call : StoreCall} {job changed : JobRecord}
    (step : RecordStep nextDue ambient call job changed) (legal : job.LegalHistory)
    (before : job.RunsForward)
    (later : job.status = .running → call.NotBeforeLast ambient job)
    : changed.RunsForward := by
  rw [JobRecord.RunsForward, step.history_eq, map_numbered (fun _ _ => rfl),
    List.map_append, List.isChain_append]
  refine ⟨before, ?_, ?_⟩
  · apply (List.isChain_map _).mpr
    exact (call.appended_isChain ambient job).imp (fun _ _ ordered _ => ordered)
  · intro last final first added running
    rw [List.getLast?_map] at final
    obtain ⟨change, ends, rfl⟩ := Option.map_eq_some_iff.mp final
    obtain ⟨entry, member, rfl⟩ := List.mem_map.mp (List.mem_of_mem_head? added)
    have current := legal.current
    rw [JobRecord.statuses, List.getLast?_map, ends] at current
    have runs : job.status = .running := (Option.some.inj current).symm.trans running
    refine later runs change.changedAt ?_ entry.changedAt
      (StoreCall.appended_changedAt member)
    rw [JobRecord.lastChangedAt, List.getLast?_map, ends]
    rfl

namespace JobRecord

/-- A job that may be claimed is not due before its last change. -/
def DueLater (job : JobRecord) : Prop :=
  ∀ last ∈ job.lastChangedAt, ∀ due ∈ job.dueInstant, last ≤ due

/-- Runs go forward, and unless the job is scheduled it is not due before its last change. -/
structure Punctual (job : JobRecord) : Prop where
  runsForward : job.RunsForward
  dueLater : job.status ≠ .scheduled → job.DueLater

/-- A new job is in order: it shows one change, by which a queued one is due. -/
theorem NewlyMade.punctual {job : JobRecord} (new : job.NewlyMade)
    : job.Chronological ∧ job.Punctual := by
  obtain ⟨newGuid, changedAt, reason, made, -⟩ := new.cases
  rcases made with ⟨history, status, runAt⟩ | ⟨scheduledAt, history, status, -⟩
  · refine ⟨by rw [Chronological, history]; exact .singleton _, ?_, ?_⟩
    · rw [RunsForward, history]
      exact .singleton _
    · intro _ last final due dueAt
      rw [lastChangedAt, history] at final
      rw [dueInstant, status, if_neg (by decide), runAt] at dueAt
      cases final
      cases dueAt
      exact le_refl changedAt
  · refine ⟨by rw [Chronological, history]; exact .singleton _, ?_, ?_⟩
    · rw [RunsForward, history]
      exact .singleton _
    · exact fun notScheduled => absurd status notScheduled

end JobRecord

/-- A step leaves a job that is not due before its last change, if its reading is not too early
for a job that runs; an acknowledgement if it was so before, and a retry if it is not due
before its failure.
-/
theorem RecordStep.dueLater_cases {nextDue : DateTimeOffset → Option JobRecord}
    {ambient : Ambient} {call : StoreCall} {job changed : JobRecord}
    (step : RecordStep nextDue ambient call job changed)
    (later : job.status = .running → call.NotBeforeLast ambient job)
    : changed.DueLater
      ∨ (changed.status = job.status ∧ (job.DueLater → changed.DueLater))
      ∨ ∃ id token reason scheduledAt,
          call = .scheduleRetry id token reason scheduledAt
          ∧ changed.status = .scheduled
          ∧ (ambient.utcNow ≤ scheduledAt → changed.DueLater) := by
  have final := JobRecord.lastChangedAt_extended step.history_eq
  cases step with
  | @claimed now workerId leaseExpiresAt _ picked ready valid =>
      apply Or.inl
      obtain ⟨_, -, -, record⟩ := job.claimedUnder_eq ambient now workerId leaseExpiresAt
      intro last lastAt due dueAt
      cases (job.claimedUnder_lastChangedAt ambient now workerId leaseExpiresAt).symm.trans lastAt
      rw [JobRecord.dueInstant, record, if_pos rfl] at dueAt
      cases dueAt
      exact valid.2.le
  | @renewed _ renewedAt leaseExpiresAt running ahead =>
      apply Or.inl
      intro last lastAt due dueAt
      have stillRunning : (job.withLease leaseExpiresAt).status = .running := running
      rw [JobRecord.dueInstant, if_pos stillRunning] at dueAt
      cases dueAt
      exact (later running last (final.symm.trans lastAt) _ rfl).trans ahead.le
  | completed running | failed running =>
      apply Or.inl
      intro last _ due dueAt
      cases dueAt
  | @retried _ reason scheduledAt =>
      refine Or.inr (Or.inr ⟨_, _, _, _, rfl, rfl, ?_⟩)
      intro covered last lastAt due dueAt
      cases final.symm.trans lastAt
      cases dueAt
      exact covered
  | acknowledged =>
      refine Or.inr (Or.inl ⟨rfl, ?_⟩)
      intro before last lastAt due dueAt
      exact before last (final.symm.trans lastAt) due dueAt

/-- A step keeps the job punctual if its reading is not too early for a job that runs. -/
theorem RecordStep.punctual {nextDue : DateTimeOffset → Option JobRecord} {ambient : Ambient}
    {call : StoreCall} {job changed : JobRecord}
    (step : RecordStep nextDue ambient call job changed) (legal : job.LegalHistory)
    (before : job.Punctual)
    (later : job.status = .running → call.NotBeforeLast ambient job)
    : changed.Punctual := by
  refine ⟨step.runsForward legal before.runsForward later, ?_⟩
  intro notScheduled
  rcases step.dueLater_cases later with dueLater | ⟨same, kept⟩ | ⟨_, _, _, _, -, scheduled, -⟩
  · exact dueLater
  · exact kept (before.dueLater (same ▸ notScheduled))
  · exact absurd scheduled notScheduled

/-- If no retry is due before its failure, the job stays due after its last change. -/
theorem RecordStep.dueLater {nextDue : DateTimeOffset → Option JobRecord} {ambient : Ambient}
    {call : StoreCall} {job changed : JobRecord}
    (step : RecordStep nextDue ambient call job changed) (before : job.DueLater)
    (later : job.status = .running → call.NotBeforeLast ambient job)
    (covered
      : ∀ id token reason scheduledAt,
          call = .scheduleRetry id token reason scheduledAt → ambient.utcNow ≤ scheduledAt)
    : changed.DueLater := by
  rcases step.dueLater_cases later with
    dueLater | ⟨-, kept⟩ | ⟨id, token, reason, scheduledAt, retries, -, after⟩
  · exact dueLater
  · exact kept before
  · exact after (covered id token reason scheduledAt retries)

end JobScheduler
