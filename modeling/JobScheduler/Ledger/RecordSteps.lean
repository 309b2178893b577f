import JobScheduler.Ledger.Ledger

/-! What every record step has in common: the job keeps its identity and its terms, and its
history is extended at the end with entries under freshly drawn identifiers.
-/

namespace JobScheduler

/-- Renumbering an extended history again changes nothing before the extension. -/
theorem numbered_numbered_append (history added : List JobStateChange)
    : numbered (numbered history ++ added) = numbered (history ++ added) := by
  rw [numbered_append, numbered_append, numbered_idempotent, length_numbered]

/-- The entries a call appends to the history of a job it changes. -/
def StoreCall.appended (ambient : Ambient) (job : JobRecord)
    : StoreCall → List JobStateChange
  | .tryClaimNextDueJob now workerId _ =>
      match job.status with
      | .running =>
          [.running ambient.newGuid now
            ("Worker " ++ workerId ++ " reclaimed expired lease.")]
      | .scheduled =>
          [.queued ambient.newGuid now "Job queued.",
            .running ambient.newGuidAgain now ("Worker " ++ workerId ++ " claimed job.")]
      | _ => [.running ambient.newGuid now ("Worker " ++ workerId ++ " claimed job.")]
  | .markCompleted _ _ =>
      [.completed ambient.newGuid ambient.utcNow "Job completed successfully."]
  | .markFailed _ _ reason => [.failed ambient.newGuid ambient.utcNow reason]
  | .scheduleRetry _ _ reason scheduledAt =>
      [.failed ambient.newGuid ambient.utcNow reason,
        .scheduled ambient.newGuidAgain ambient.utcNow "Retry scheduled." scheduledAt]
  | _ => []

/-- Appended entries draw the call's identifiers, each at most once and in order. -/
theorem StoreCall.appended_drawn (ambient : Ambient) (job : JobRecord) (call : StoreCall)
    : ((call.appended ambient job).map JobStateChange.id).Sublist
        [ambient.newGuid, ambient.newGuidAgain] := by
  have first : [ambient.newGuid].Sublist [ambient.newGuid, ambient.newGuidAgain] :=
    List.sublist_append_left [ambient.newGuid] [ambient.newGuidAgain]
  cases call with
  | tryClaimNextDueJob now workerId leaseExpiresAt =>
      cases status : job.status with
      | scheduled => simp only [appended, status]; exact .refl _
      | queued | running | completed | failed => simp only [appended, status]; exact first
  | markCompleted => exact first
  | markFailed => exact first
  | scheduleRetry => exact .refl _
  | add | get | list | renewLease | acknowledge => exact List.nil_sublist _

/-- A claim appends no outcome and schedules nothing. -/
theorem StoreCall.appended_of_claim {ambient : Ambient} {job : JobRecord}
    {now : DateTimeOffset} {workerId : String} {leaseExpiresAt : DateTimeOffset}
    {change : JobStateChange}
    (member
      : change ∈ (StoreCall.tryClaimNextDueJob now workerId leaseExpiresAt).appended ambient
          job)
    : change.status = .queued ∨ change.status = .running := by
  cases status : job.status with
  | scheduled =>
      simp only [appended, status, List.mem_cons, List.not_mem_nil, or_false] at member
      rcases member with rfl | rfl
      · exact Or.inl rfl
      · exact Or.inr rfl
  | queued | running | completed | failed =>
      simp only [appended, status, List.mem_singleton] at member
      exact Or.inr (member ▸ rfl)

namespace JobRecord

/-- A claim extends the history, replaces the fields of the run, and takes the last entry
as the current one.
-/
theorem claimedUnder_eq (job : JobRecord) (ambient : Ambient) (now : DateTimeOffset)
    (workerId : String) (leaseExpiresAt : DateTimeOffset)
    : ∃ last,
        ((StoreCall.tryClaimNextDueJob now workerId leaseExpiresAt).appended ambient
            job).getLast?
          = some last
        ∧ last.status = .running
        ∧ job.claimedUnder ambient now workerId leaseExpiresAt
          = { job with
              status := .running
              currentStateChangeId := last.id
              runAt := none
              claimedBy := some workerId
              claimedAt := some now
              leaseExpiresAt := some leaseExpiresAt
              history := numbered (job.history
                ++ (StoreCall.tryClaimNextDueJob now workerId leaseExpiresAt).appended ambient
                  job) } := by
  cases status : job.status with
  | scheduled =>
      refine ⟨.running ambient.newGuidAgain now ("Worker " ++ workerId ++ " claimed job."),
        by simp only [StoreCall.appended, status]; rfl, rfl, ?_⟩
      have history : numbered (numbered (job.history
            ++ [.queued ambient.newGuid now "Job queued."])
            ++ [.running ambient.newGuidAgain now ("Worker " ++ workerId ++ " claimed job.")])
          = numbered (job.history ++ [.queued ambient.newGuid now "Job queued.",
              .running ambient.newGuidAgain now ("Worker " ++ workerId ++ " claimed job.")]) := by
        rw [numbered_numbered_append, List.append_assoc, List.singleton_append]
      simp only [claimedUnder, StoreCall.appended, status, runUnder, construct, requeued,
        history]
  | running =>
      refine ⟨.running ambient.newGuid now
          ("Worker " ++ workerId ++ " reclaimed expired lease."),
        by simp only [StoreCall.appended, status]; rfl, rfl, ?_⟩
      simp only [claimedUnder, StoreCall.appended, status]
      rfl
  | queued | completed | failed =>
      refine ⟨.running ambient.newGuid now ("Worker " ++ workerId ++ " claimed job."),
        by simp only [StoreCall.appended, status]; rfl, rfl, ?_⟩
      simp only [claimedUnder, StoreCall.appended, status]
      rfl

@[simp] theorem claimedUnder_status (job : JobRecord) (ambient : Ambient)
    (now : DateTimeOffset) (workerId : String) (leaseExpiresAt : DateTimeOffset)
    : (job.claimedUnder ambient now workerId leaseExpiresAt).status = .running := by
  obtain ⟨last, _, _, record⟩ := job.claimedUnder_eq ambient now workerId leaseExpiresAt
  rw [record]

end JobRecord

/-- The history after a record step, one kind of step at a time. -/
theorem RecordStep.history_eq {nextDue : DateTimeOffset → Option JobRecord}
    {ambient : Ambient} {call : StoreCall} {job changed : JobRecord}
    (step : RecordStep nextDue ambient call job changed)
    : changed.history = numbered (job.history ++ call.appended ambient job) := by
  cases step with
  | @claimed now workerId leaseExpiresAt =>
      obtain ⟨last, _, _, record⟩ := job.claimedUnder_eq ambient now workerId leaseExpiresAt
      rw [record]
  | renewed => simp [JobRecord.withLease, JobRecord.construct, StoreCall.appended]
  | completed => rfl
  | failed => rfl
  | retried => rfl
  | acknowledged => simp [JobRecord.acknowledgedAs, JobRecord.construct, StoreCall.appended]

-----------------------------------------------------------------------------------------
-- What a step leaves alone
-----------------------------------------------------------------------------------------

namespace JobRecord

/-- The records are of one job: its identity, its owner and its terms are the same. -/
structure SameTerms (job changed : JobRecord) : Prop where
  id : changed.id = job.id
  tenantId : changed.tenantId = job.tenantId
  createdByActorId : changed.createdByActorId = job.createdByActorId
  maxAttempts : changed.maxAttempts = job.maxAttempts

theorem SameTerms.refl (job : JobRecord) : job.SameTerms job := ⟨rfl, rfl, rfl, rfl⟩

theorem SameTerms.trans {first second third : JobRecord}
    (head : first.SameTerms second) (tail : second.SameTerms third)
    : first.SameTerms third :=
  ⟨tail.id.trans head.id, tail.tenantId.trans head.tenantId,
    tail.createdByActorId.trans head.createdByActorId,
    tail.maxAttempts.trans head.maxAttempts⟩

/-- The second record continues the first under the identifiers a call draws. -/
structure Extends (ambient : Ambient) (job changed : JobRecord) : Prop
    extends SameTerms job changed where
  inOrder : changed.Numbered
  history
    : ∃ added : List JobStateChange,
        changed.history = job.history ++ added
        ∧ (added.map JobStateChange.id).Sublist [ambient.newGuid, ambient.newGuidAgain]

theorem numbered_of_construct {job : JobRecord} {history : List JobStateChange}
    (constructed : job.history = numbered history)
    : job.Numbered := by
  rw [Numbered, constructed, numbered_idempotent]

theorem NewlyMade.numbered {job : JobRecord} (new : job.NewlyMade) : job.Numbered := by
  obtain ⟨newGuid, changedAt, reason, made, -⟩ := new.cases
  rcases made with ⟨history, -⟩ | ⟨scheduledAt, history, -⟩
  · exact @numbered_of_construct _ [.queued newGuid changedAt reason] history
  · exact @numbered_of_construct _ [.scheduled newGuid changedAt reason scheduledAt] history

/-- A history in order keeps its entries when the constructor extends it, and the new
entries keep their identifiers.
-/
theorem Numbered.append {job : JobRecord} (inOrder : job.Numbered)
    (added : List JobStateChange)
    : ∃ entries : List JobStateChange,
        JobScheduler.numbered (job.history ++ added) = job.history ++ entries
        ∧ entries.map JobStateChange.id = added.map JobStateChange.id := by
  have extended := numbered_append job.history added
  rw [inOrder] at extended
  refine ⟨_, extended, ?_⟩
  have ids := ids_numbered (job.history ++ added)
  rw [extended, List.map_append, List.map_append] at ids
  exact List.append_cancel_left ids

end JobRecord

/-- Every record step changes the record of one job, one kind of step at a time. -/
theorem RecordStep.sameTerms {nextDue : DateTimeOffset → Option JobRecord}
    {ambient : Ambient} {call : StoreCall} {job changed : JobRecord}
    (step : RecordStep nextDue ambient call job changed)
    : job.SameTerms changed := by
  cases step with
  | @claimed now workerId leaseExpiresAt =>
      obtain ⟨last, _, _, record⟩ := job.claimedUnder_eq ambient now workerId leaseExpiresAt
      rw [record]
      exact ⟨rfl, rfl, rfl, rfl⟩
  | renewed | completed | failed | retried | acknowledged => exact ⟨rfl, rfl, rfl, rfl⟩

/-- Every record step keeps the job's type, for each kind of call. -/
theorem RecordStep.type_eq {nextDue : DateTimeOffset → Option JobRecord} {ambient : Ambient}
    {call : StoreCall} {job changed : JobRecord}
    (step : RecordStep nextDue ambient call job changed)
    : changed.type = job.type := by
  cases step with
  | @claimed now workerId leaseExpiresAt =>
      obtain ⟨last, -, -, record⟩ := job.claimedUnder_eq ambient now workerId leaseExpiresAt
      rw [record]
  | renewed | completed | failed | retried | acknowledged => rfl

/-- Every record step extends the record, by what the call appends to its history. -/
theorem RecordStep.extends {nextDue : DateTimeOffset → Option JobRecord}
    {ambient : Ambient} {call : StoreCall} {job changed : JobRecord}
    (step : RecordStep nextDue ambient call job changed) (inOrder : job.Numbered)
    : job.Extends ambient changed := by
  have history := step.history_eq
  obtain ⟨entries, extended, ids⟩ := inOrder.append (call.appended ambient job)
  exact ⟨step.sameTerms, JobRecord.numbered_of_construct history, entries,
    history.trans extended, ids ▸ call.appended_drawn ambient job⟩

end JobScheduler
