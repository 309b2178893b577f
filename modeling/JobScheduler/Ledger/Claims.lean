import JobScheduler.Ledger.Coherence
import JobScheduler.Lifecycle.JobLifecycleService

/-! Claims held in a run. Stored jobs only ever grow at the end of their histories, so the
snapshot a claim returned stays a beginning of the stored job, and its token tells whether
anything was recorded since.
-/

namespace JobScheduler

open Library JobLifecycleService

/-- Every job stored before is stored after, under the same terms and with the same history
to begin with.
-/
def Ledger.Continues (before after : Ledger) : Prop :=
  ∀ id job,
    before.find? id = some job
    → ∃ later,
        after.find? id = some later
        ∧ job.SameTerms later
        ∧ job.history <+: later.history

theorem Ledger.Continues.refl (ledger : Ledger) : Ledger.Continues ledger ledger :=
  fun _ job stored => ⟨job, stored, .refl job, List.prefix_rfl⟩

theorem Ledger.Continues.trans {first second third : Ledger}
    (head : Ledger.Continues first second) (tail : Ledger.Continues second third)
    : Ledger.Continues first third := by
  intro id job stored
  obtain ⟨middle, there, sameTerms, begins⟩ := head id job stored
  obtain ⟨later, last, sameAgain, beginsAgain⟩ := tail id middle there
  exact ⟨later, last, sameTerms.trans sameAgain, begins.trans beginsAgain⟩

/-- A step continues the ledger, if it does not add a job under a stored id. -/
theorem LedgerStep.continues {visible : JobRecord → Bool}
    {nextDue : DateTimeOffset → Option JobRecord} {ambient : Ambient}
    {ledger next : Ledger} {call : StoreCall} {answer : StoreAnswer}
    (step : LedgerStep visible nextDue ambient ledger call answer next)
    (newId : ∀ job : JobRecord, call = .add job → ledger.find? job.id = none)
    (inOrder : ∀ job ∈ ledger.rows, job.Numbered)
    : Ledger.Continues ledger next := by
  intro id job stored
  rcases step.find?_next stored with same | ⟨new, added, rfl, -⟩ | ⟨changed, one, -, there⟩
  · exact ⟨job, same, .refl job, List.prefix_rfl⟩
  · cases stored.symm.trans (newId new added)
  · have grown := one.extends (inOrder job (KeyedTable.find?_mem stored))
    obtain ⟨added, history, -⟩ := grown.history
    exact ⟨changed, there, grown.toSameTerms, added, history.symm⟩

-----------------------------------------------------------------------------------------
-- Orderly runs
-----------------------------------------------------------------------------------------

namespace LawfulStore

variable {State Caller : Type} (store : LawfulStore State Caller)

/-- Jobs are added as `Enqueue` and `Schedule` make them, and no identifier repeats: those
a call draws, and those of an added job, are not stored yet.
-/
structure Orderly (state : State) (input : StoreInput Caller) : Prop where
  admissible : input.call.Admissible
  fresh : input.ambient.Fresh (store.ledger state)
  newJob : ∀ job, input.call = .add job → job.FreshIn (store.ledger state)

/-- The second state is reached from the first by an orderly run. -/
abbrev OrderlyReaches : State → State → Prop := store.machine.Reaches store.Orderly

variable {store}

/-- Orderly runs are among those that keep jobs coherent. -/
theorem OrderlyReaches.coherenceInvariant {state : State}
    (reached : store.OrderlyReaches store.initial state)
    : ∀ job ∈ store.jobs state, job.CoherenceInvariant :=
  store.jobs_coherenceInvariant
    (reached.mono (fun _ _ orderly => ⟨orderly.admissible, orderly.fresh⟩))

theorem OrderlyReaches.reachable {state : State}
    (reached : store.OrderlyReaches store.initial state)
    : store.Reachable state :=
  reached.mono (fun _ _ orderly => orderly.admissible)

/-- A call that adds no job is orderly when the identifiers it draws are not stored. -/
theorem Orderly.ofOther {state : State} {caller : Caller} {ambient : Ambient}
    {call : StoreCall} (noAddition : ∀ job, call ≠ .add job)
    (fresh : ambient.Fresh (store.ledger state))
    : store.Orderly state ⟨caller, ambient, call⟩ where
  admissible job added := absurd added (noAddition job)
  fresh := fresh
  newJob job added := absurd added (noAddition job)

theorem Orderly.claim {state : State} {caller : Caller} {ambient : Ambient}
    {now : DateTimeOffset} {workerId : String} {leaseExpiresAt : DateTimeOffset}
    (fresh : ambient.Fresh (store.ledger state))
    : store.Orderly state
        ⟨caller, ambient, .tryClaimNextDueJob now workerId leaseExpiresAt⟩ :=
  .ofOther (fun job added => by cases added) fresh

/-- An addition is orderly when its own identifiers are not stored either. -/
theorem Orderly.add {state : State} {caller : Caller} {ambient : Ambient} {job : JobRecord}
    (new : job.NewlyMade) (fresh : ambient.Fresh (store.ledger state))
    (freshIn : job.FreshIn (store.ledger state))
    : store.Orderly state ⟨caller, ambient, .add job⟩ where
  admissible := by
    intro other added
    cases added
    exact new
  fresh := fresh
  newJob := by
    intro other added
    cases added
    exact freshIn

/-- The first addition to an empty store is orderly. -/
theorem Orderly.firstAdd {caller : Caller} {ambient : Ambient} {job : JobRecord}
    (new : job.NewlyMade) (apart : ambient.newGuid ≠ ambient.newGuidAgain)
    : store.Orderly store.initial ⟨caller, ambient, .add job⟩ :=
  .add new ⟨apart, store.initially_forall _⟩
    ⟨KeyedTable.find?_eq_none.mpr (store.initially_forall _), store.initially_forall _⟩

/-- An orderly call follows the ledger and continues it. -/
theorem Orderly.continues {state : State} {input : StoreInput Caller}
    (orderly : store.Orderly state input)
    (reached : store.OrderlyReaches store.initial state)
    : Ledger.Continues (store.ledger state) (store.ledger (store.machine.step state input).2) := by
  have step := store.follows input.caller input.ambient input.call state
    reached.reachable.sound orderly.admissible
  exact step.continues (fun job added => (orderly.newJob job added).1)
    (fun job member => (reached.coherenceInvariant job member).inOrder)

/-- An orderly run continues the ledger, by induction on its last step. -/
theorem OrderlyReaches.continues {first last : State}
    (tail : store.OrderlyReaches first last)
    (reached : store.OrderlyReaches store.initial first)
    : Ledger.Continues (store.ledger first) (store.ledger last) := by
  induction tail with
  | refl => exact .refl _
  | step before orderly ih => exact ih.trans (orderly.continues (reached.trans before))

-----------------------------------------------------------------------------------------
-- Snapshots of claims
-----------------------------------------------------------------------------------------

variable (store)

/-- A claim of the caller returned the snapshot, in an orderly run that led to the state. -/
def HoldsClaim (caller : Caller) (snapshot : JobRecord) (state : State) : Prop :=
  ∃ before ambient now workerId leaseExpiresAt after,
    store.OrderlyReaches store.initial before
    ∧ store.Orderly before
        ⟨caller, ambient, .tryClaimNextDueJob now workerId leaseExpiresAt⟩
    ∧ (store.methods caller).call ambient
          (.tryClaimNextDueJob now workerId leaseExpiresAt) before
        = (.job (some snapshot), after)
    ∧ store.OrderlyReaches after state

end LawfulStore

/-- The snapshot of a claim ends with the `Running` change whose id is its token. -/
def JobRecord.EndsRunning (snapshot : JobRecord) : Prop :=
  ∃ change,
    snapshot.history.getLast? = some change
    ∧ change.id = snapshot.currentStateChangeId
    ∧ change.status = .running

theorem JobRecord.claimedUnder_endsRunning (job : JobRecord) (ambient : Ambient)
    (now : DateTimeOffset) (workerId : String) (leaseExpiresAt : DateTimeOffset)
    : (job.claimedUnder ambient now workerId leaseExpiresAt).EndsRunning := by
  obtain ⟨last, final, running, record⟩ := job.claimedUnder_eq ambient now workerId
    leaseExpiresAt
  rw [record]
  obtain ⟨entry, here, sameId, sameStatus⟩ := @getLast?_extended job { job with
    history := numbered (job.history
      ++ (StoreCall.tryClaimNextDueJob now workerId leaseExpiresAt).appended ambient job) }
    _ last rfl final
  exact ⟨entry, here, sameId, sameStatus.trans running⟩

/-- A history whose last entry is also the last one of a beginning is that beginning, since
ids do not repeat.
-/
theorem eq_of_prefix_of_lastId {short long : List JobStateChange} {inner outer : JobStateChange}
    (begins : short <+: long) (distinct : (long.map JobStateChange.id).Nodup)
    (innerLast : short.getLast? = some inner) (outerLast : long.getLast? = some outer)
    (same : outer.id = inner.id)
    : long = short := by
  obtain ⟨rest, rfl⟩ := begins
  cases last : rest.getLast? with
  | none => rw [List.getLast?_eq_none_iff.mp last, List.append_nil]
  | some change =>
      rw [List.getLast?_append, last, Option.some_or] at outerLast
      cases outerLast
      rw [List.map_append, List.nodup_append] at distinct
      exact absurd same.symm (distinct.2.2 _
        (List.mem_map_of_mem (List.mem_of_getLast? innerLast)) _
        (List.mem_map_of_mem (List.mem_of_getLast? last)))

/-- A coherent job that continues a claim's snapshot runs under its token exactly when
nothing was recorded since.
-/
theorem JobRecord.Coherent.isRunningUnder_iff {snapshot job : JobRecord}
    (coherent : job.Coherent) (running : snapshot.EndsRunning)
    (begins : snapshot.history <+: job.history)
    : job.isRunningUnder snapshot.currentStateChangeId = true
      ↔ job.history = snapshot.history := by
  obtain ⟨change, final, token, status⟩ := running
  obtain ⟨last, jobLast, jobToken, jobStatus⟩ := coherent.current
  rw [JobRecord.isRunningUnder_iff]
  constructor
  · rintro ⟨-, same⟩
    exact eq_of_prefix_of_lastId begins coherent.distinctIds final jobLast
      (jobToken.symm.trans (same.trans token.symm))
  · intro same
    rw [same, final] at jobLast
    cases jobLast
    exact ⟨jobStatus.trans status, jobToken.trans token⟩

namespace LawfulStore

variable {State Caller : Type} {store : LawfulStore State Caller} {caller : Caller}
  {snapshot : JobRecord} {state : State}

/-- A claim that returns a job stores the returned record, read off the ledger's step. -/
theorem stored_of_claim {ambient : Ambient} {now : DateTimeOffset} {workerId : String}
    {leaseExpiresAt : DateTimeOffset} {before after : State} (sound : store.Sound before)
    (claimed
      : (store.methods caller).call ambient
          (.tryClaimNextDueJob now workerId leaseExpiresAt) before
        = (.job (some snapshot), after))
    : ∃ job,
        store.nextDue caller before now = some job
        ∧ (store.ledger before).find? job.id = some job
        ∧ store.visible caller job = true
        ∧ (job.isPending = true ∨ job.LeaseExpired now)
        ∧ JobRecord.ValidClaim workerId now leaseExpiresAt
        ∧ snapshot = job.claimedUnder ambient now workerId leaseExpiresAt
        ∧ store.ledger after = (store.ledger before).set snapshot := by
  have step := store.follows caller ambient _ before sound
    (StoreCall.admissible_claim now workerId leaseExpiresAt)
  rw [claimed] at step
  generalize store.ledger after = next at step ⊢
  generalize answered : StoreAnswer.job (some snapshot) = answer at step
  cases step with
  | claimed picked stored seen ready valid =>
      cases answered
      exact ⟨_, picked, stored, seen, ready, valid, rfl, rfl⟩
  | nothingClaimed => cases answered
  | revised => cases answered
  | refused => cases answered
  | conflicted => cases answered
  | threw => cases answered

/-- A valid claim that comes to a job whose lease has expired changes and stores it. -/
theorem stored_of_reclaim {input : StoreInput Caller} {now : DateTimeOffset}
    {workerId : String} {leaseExpiresAt : DateTimeOffset} {job : JobRecord}
    (sound : store.Sound state) (fresh : input.ambient.Fresh (store.ledger state))
    (call : input.call = .tryClaimNextDueJob now workerId leaseExpiresAt)
    (picked : store.nextDue input.caller state now = some job) (expired : job.LeaseExpired now)
    (valid : JobRecord.ValidClaim workerId now leaseExpiresAt)
    : job ∈ store.jobs state
      ∧ RecordStep (store.nextDue input.caller state) input.ambient
          (.tryClaimNextDueJob now workerId leaseExpiresAt) job
          (job.claimedUnder input.ambient now workerId leaseExpiresAt)
      ∧ job.claimedUnder input.ambient now workerId leaseExpiresAt
        ∈ store.jobs (store.machine.step state input).2 := by
  obtain ⟨next, outcome, ledger⟩ := store.claims input.caller input.ambient state now workerId
    leaseExpiresAt job sound picked (Or.inr expired) valid fresh
  obtain ⟨_, pickedAgain, found, -⟩ := stored_of_claim sound outcome
  cases picked.symm.trans pickedAgain
  have after : (store.machine.step state input).2 = next := by
    rw [← call] at outcome
    exact congrArg Prod.snd outcome
  refine ⟨KeyedTable.find?_mem found, .claimed picked (Or.inr expired) valid, ?_⟩
  rw [after, jobs, ledger]
  exact KeyedTable.mem_set.mpr (Or.inl rfl)

/-- An accepted addition stores the job, read off the ledger's step. -/
theorem stored_of_add {ambient : Ambient} {job : JobRecord} (sound : store.Sound state)
    (new : job.NewlyMade)
    (accepted : (store.machine.step state ⟨caller, ambient, .add job⟩).1 = .done)
    : (store.ledger (store.machine.step state ⟨caller, ambient, .add job⟩).2).find? job.id
      = some job := by
  have step := store.follows caller ambient (.add job) state sound (by
    intro other added
    cases added
    exact new)
  change ((store.methods caller).call ambient (.add job) state).1 = .done at accepted
  change (store.ledger ((store.methods caller).call ambient (.add job) state).2).find? job.id
    = some job
  rw [accepted] at step
  generalize store.ledger ((store.methods caller).call ambient (.add job) state).2 = next
    at step ⊢
  cases step with
  | added => exact KeyedTable.find?_set_self _ _

/-- The state in which a claim is held was reached by an orderly run. -/
theorem HoldsClaim.reached (held : store.HoldsClaim caller snapshot state)
    : store.OrderlyReaches store.initial state := by
  obtain ⟨before, ambient, now, workerId, leaseExpiresAt, after, reached, orderly, claimed,
    since⟩ := held
  have next := reached.step orderly
  rw [show (store.machine.step before ⟨caller, ambient,
    .tryClaimNextDueJob now workerId leaseExpiresAt⟩).2 = after from congrArg Prod.snd claimed]
    at next
  exact next.trans since

/-- A claim stays held in later states. -/
theorem HoldsClaim.later {last : State} (held : store.HoldsClaim caller snapshot state)
    (tail : store.OrderlyReaches state last)
    : store.HoldsClaim caller snapshot last := by
  obtain ⟨before, ambient, now, workerId, leaseExpiresAt, after, reached, orderly, claimed,
    since⟩ := held
  exact ⟨before, ambient, now, workerId, leaseExpiresAt, after, reached, orderly, claimed,
    since.trans tail⟩

/-- The snapshot of a claim ends with its `Running` change, is a beginning of the stored
job, and its caller sees that job.
-/
theorem HoldsClaim.stored (held : store.HoldsClaim caller snapshot state)
    : snapshot.EndsRunning
      ∧ ∃ job,
          (store.ledger state).find? snapshot.id = some job
          ∧ snapshot.SameTerms job
          ∧ snapshot.history <+: job.history
          ∧ job.Coherent
          ∧ store.visible caller job = true := by
  have here := held.reached
  obtain ⟨before, ambient, now, workerId, leaseExpiresAt, after, reached, orderly, claimed,
    since⟩ := held
  obtain ⟨job, -, stored, seen, -, -, rfl, ledger⟩ :=
    stored_of_claim reached.reachable.sound claimed
  have next := reached.step orderly
  rw [show (store.machine.step before ⟨caller, ambient,
    .tryClaimNextDueJob now workerId leaseExpiresAt⟩).2 = after from congrArg Prod.snd claimed]
    at next
  refine ⟨job.claimedUnder_endsRunning _ _ _ _, ?_⟩
  obtain ⟨later, there, sameTerms, begins⟩ :=
    since.continues next (job.claimedUnder ambient now workerId leaseExpiresAt).id _ (by
      rw [ledger]
      exact KeyedTable.find?_set_self _ _)
  have coherent := (here.coherenceInvariant later (KeyedTable.find?_mem there)).coherent
  refine ⟨later, there, sameTerms, begins, coherent, ?_⟩
  obtain ⟨last, -, -, record⟩ := job.claimedUnder_eq ambient now workerId leaseExpiresAt
  have tenant : later.tenantId = job.tenantId := by rw [sameTerms.tenantId, record]
  have owner : later.createdByActorId = job.createdByActorId := by
    rw [sameTerms.createdByActorId, record]
  rw [store.ownership caller later job tenant owner, seen]

/-- The first claim of the small run is held after it, if it is granted. -/
theorem firstSnapshot_held (store : LawfulStore State Caller) (caller : Caller)
    (fresh
      : (smallAmbient 1).Fresh
          (store.ledger (store.machine.run store.initial ((firstClaimRun caller).take 1)).2))
    (granted
      : ((store.methods caller).call (smallAmbient 1)
            (.tryClaimNextDueJob (.ofTicks 1) "worker-1" (.ofTicks 5))
            (store.machine.run store.initial ((firstClaimRun caller).take 1)).2).1
        = .job (some firstSnapshot))
    : store.HoldsClaim caller firstSnapshot
        (store.machine.run store.initial (firstClaimRun caller)).2 :=
  ⟨_, smallAmbient 1, .ofTicks 1, "worker-1", .ofTicks 5, _,
    (Machine.Reaches.refl _).step (.firstAdd smallJob_newlyMade (by decide)), .claim fresh,
    Prod.ext granted rfl, .refl _⟩

end LawfulStore

-----------------------------------------------------------------------------------------
-- Calls that carry a claim token
-----------------------------------------------------------------------------------------

/-- A call with a claim token is a revision of the claimed job that tests the token. -/
theorem JobLifecycleService.Carries.revision {snapshot : JobRecord} {call : StoreCall}
    (carries : Carries snapshot call) (ambient : Ambient)
    : ∃ revision,
        call.revision ambient = some revision
        ∧ revision.jobId = snapshot.id
        ∧ ∀ job,
            revision.enabled job = true
            → job.isRunningUnder snapshot.currentStateChangeId = true := by
  cases carries with
  | renewLease renewedAt leaseExpiresAt =>
      exact ⟨_, rfl, rfl, fun job enabled => (Bool.and_eq_true_iff.mp enabled).2⟩
  | markCompleted => exact ⟨_, rfl, rfl, fun job enabled => enabled⟩
  | markFailed reason =>
      exact ⟨_, rfl, rfl, fun job enabled => (Bool.and_eq_true_iff.mp enabled).2⟩
  | scheduleRetry reason scheduledAt =>
      refine ⟨_, rfl, rfl, ?_⟩
      intro job enabled
      exact (Bool.and_eq_true_iff.mp (Bool.and_eq_true_iff.mp enabled).1).2

/-- The claim token a call expects to find. -/
def StoreCall.expectedToken : StoreCall → Option Guid
  | .renewLease _ token _ _ | .markCompleted _ token | .markFailed _ token _
  | .scheduleRetry _ token _ _ => some token
  | _ => none

theorem JobLifecycleService.Carries.expectedToken {snapshot : JobRecord} {call : StoreCall}
    (carries : Carries snapshot call)
    : call.expectedToken = some snapshot.currentStateChangeId := by
  cases carries <;> rfl

namespace LawfulStore

variable {State Caller : Type} {store : LawfulStore State Caller} {caller : Caller}

/-- A call that carries a token is orderly when the identifiers it draws are not stored. -/
theorem Orderly.carries {state : State} {ambient : Ambient} {snapshot : JobRecord}
    {call : StoreCall} (carries : Carries snapshot call)
    (fresh : ambient.Fresh (store.ledger state))
    : store.Orderly state ⟨caller, ambient, call⟩ := by
  refine .ofOther ?_ fresh
  intro job added
  rw [added] at carries
  cases carries

end LawfulStore

end JobScheduler
