import JobScheduler.Ledger.Claims
import JobScheduler.Ledger.Transitions

/-! Fencing by claim tokens: whatever other workers did in the meantime, a call that carries
the token of a claim takes effect only while the claim's own `Running` change is the last
entry of the job's history.
-/

namespace JobScheduler

open Library JobLifecycleService

/-- The last entry of the job's history is the `Running` change that the token of the
snapshot names.
-/
def ClaimIsLast (snapshot : JobRecord) (ledger : Ledger) : Prop :=
  ∃ job change,
    ledger.find? snapshot.id = some job
    ∧ job.history.getLast? = some change
    ∧ change.id = snapshot.currentStateChangeId
    ∧ change.status = .running

/-- Something was recorded after the history the snapshot shows: the `Running` change of a
reclaim, or an outcome.
-/
def Superseded (snapshot : JobRecord) (ledger : Ledger) : Prop :=
  ∃ job entry rest,
    ledger.find? snapshot.id = some job
    ∧ job.history = snapshot.history ++ entry :: rest

/-- A superseded claim stays superseded, since histories only grow. -/
theorem Superseded.continues {snapshot : JobRecord} {before after : Ledger}
    (superseded : Superseded snapshot before) (grows : Ledger.Continues before after)
    : Superseded snapshot after := by
  obtain ⟨job, entry, rest, stored, history⟩ := superseded
  obtain ⟨later, there, -, added, longer⟩ := grows _ job stored
  refine ⟨later, entry, rest ++ added, there, ?_⟩
  rw [← longer, history, List.append_assoc, List.cons_append]

namespace LawfulStore

variable {State Caller : Type} {store : LawfulStore State Caller} {holder : Caller}
  {snapshot : JobRecord} {state : State}

/-- A call with the token takes effect only while the claim's change is the last one. -/
theorem HoldsClaim.claimIsLast (held : store.HoldsClaim holder snapshot state)
    (caller : Caller) (ambient : Ambient) {call : StoreCall} (carries : Carries snapshot call)
    (effect
      : ((store.methods caller).call ambient call state).1 = .flag true
        ∨ ((store.methods caller).call ambient call state).2 ≠ state)
    : ClaimIsLast snapshot (store.ledger state) := by
  obtain ⟨revision, revises, target, tests⟩ := carries.revision ambient
  obtain ⟨⟨change, final, token, running⟩, job, stored, -, begins, coherent, -⟩ := held.stored
  have accepted : revision.enabled job = true := by
    rcases @revision_cases _ _ store caller _ _ _ _ held.reached.reachable.sound revises with
      ⟨other, next, -, there, -, enabled, -⟩ | ⟨refused, -⟩ | ⟨thrown, -⟩
    · rw [target, stored] at there
      cases there
      exact enabled
    · rw [refused] at effect
      simp at effect
    · rw [thrown] at effect
      simp at effect
  have same := (coherent.isRunningUnder_iff ⟨change, final, token, running⟩ begins).mp
    (tests job accepted)
  exact ⟨job, change, stored, same ▸ final, token, running⟩

/-- A call with the token of a superseded claim is refused and leaves the state behind. -/
theorem HoldsClaim.refused (held : store.HoldsClaim holder snapshot state)
    (superseded : Superseded snapshot (store.ledger state)) (caller : Caller)
    (ambient : Ambient) {call : StoreCall} (carries : Carries snapshot call)
    : (store.methods caller).call ambient call state = (.flag false, state) := by
  obtain ⟨revision, revises, target, tests⟩ := carries.revision ambient
  obtain ⟨running, job, stored, -, begins, coherent, -⟩ := held.stored
  have disabled : ∀ other,
      (store.ledger state).find? revision.jobId = some other
      → revision.enabled other ≠ true := by
    intro other there enabled
    rw [target, stored] at there
    cases there
    have same := (coherent.isRunningUnder_iff running begins).mp (tests job enabled)
    obtain ⟨again, entry, rest, here, longer⟩ := superseded
    cases stored.symm.trans here
    rw [same] at longer
    simp at longer
  rcases @revision_cases _ _ store caller _ _ _ _ held.reached.reachable.sound revises with
    ⟨other, next, -, there, -, enabled, -⟩ | ⟨refused, -⟩ | ⟨-, -, other, there, enabled⟩
  · exact absurd enabled (disabled other there)
  · exact refused
  · exact absurd enabled (disabled other there)

/-- The answer to a refused renewal, read off its store call. -/
theorem renewLease_of_refused {methods : IJobStore State}
    {renewedAt leaseExpiresAt : DateTimeOffset}
    (refused
      : ∀ ambient call,
          Carries snapshot call → methods.call ambient call state = (.flag false, state))
    (ambient : Ambient)
    : JobLifecycleService.renewLease methods snapshot renewedAt leaseExpiresAt state
      = (.ok false, state) := by
  have answer := refused ambient _ (.renewLease renewedAt leaseExpiresAt)
  unfold JobLifecycleService.renewLease
  simp only [IJobStore.call] at answer
  generalize methods.renewLease snapshot.id snapshot.currentStateChangeId renewedAt
    leaseExpiresAt state = outcome at answer ⊢
  obtain ⟨result, next⟩ := outcome
  obtain ⟨shown, same⟩ := Prod.mk.inj answer
  cases result with
  | error exception => cases shown
  | ok accepted =>
      cases shown
      cases same
      rfl

end LawfulStore

/-- What claim tokens guarantee in every orderly run of a store, whatever calls its callers
make and in whatever order.
-/
structure Fences {State Caller : Type} (store : LawfulStore State Caller) : Prop where
  /-- A call with a claim's token that is accepted, or changes anything, meets the claim's
  `Running` change as the last entry. -/
  effect
    : ∀ holder snapshot state,
        store.HoldsClaim holder snapshot state
        → ∀ caller ambient call,
            Carries snapshot call
            → ((store.methods caller).call ambient call state).1 = .flag true
              ∨ ((store.methods caller).call ambient call state).2 ≠ state
            → ClaimIsLast snapshot (store.ledger state)
  /-- Once a claim is superseded, every later call with its token is refused. -/
  refused
    : ∀ holder snapshot state later,
        store.HoldsClaim holder snapshot state
        → Superseded snapshot (store.ledger state)
        → store.OrderlyReaches state later
        → ∀ caller ambient call,
            Carries snapshot call
            → (store.methods caller).call ambient call later = (.flag false, later)
  /-- The service then reports `false`, and `LeaseLost` for each completion that issues its
  call; a completion without a representable retry time issues none. -/
  leaseLost
    : ∀ holder snapshot state later,
        store.HoldsClaim holder snapshot state
        → Superseded snapshot (store.ledger state)
        → store.OrderlyReaches state later
        → ∀ caller,
            (∀ renewedAt leaseExpiresAt,
              JobLifecycleService.renewLease (store.methods caller) snapshot renewedAt
                  leaseExpiresAt later
                = (.ok false, later))
            ∧ ∀ definitions utcNow ambient result,
                completeExecution (store.methods caller) definitions utcNow ambient snapshot
                    result later
                  = match completionCall definitions utcNow snapshot result with
                    | .ok _ => (.ok .leaseLost, later)
                    | .error exception => (.error exception, later)
  /-- Two outcomes of a job belong to different runs. -/
  oneOutcome
    : ∀ state,
        store.OrderlyReaches store.initial state
        → ∀ job ∈ store.jobs state,
            ∀ before first middle second after,
              job.history = before ++ first :: (middle ++ second :: after)
              → first.isOutcome = true
              → second.isOutcome = true
              → ∃ change ∈ middle, change.status = .running
  /-- A job ends at most once: nothing follows the entry that ends it. -/
  endsOnce
    : ∀ state,
        store.OrderlyReaches store.initial state
        → ∀ job ∈ store.jobs state,
            ∀ before change after,
              job.history = before ++ change :: after
              → JobRecord.EndsJob change after
              → after = []

/-- Every lawful store fences, by the growth of histories and the coherence of jobs. -/
theorem LawfulStore.fences {State Caller : Type} (store : LawfulStore State Caller)
    : Fences store where
  effect _ _ _ held caller ambient _ carries effect :=
    held.claimIsLast caller ambient carries effect
  refused _ _ _ _ held superseded since caller ambient _ carries :=
    (held.later since).refused (superseded.continues (since.continues held.reached)) caller
      ambient carries
  leaseLost _ _ _ later held superseded since caller := by
    have refused := fun ambient call =>
      @HoldsClaim.refused _ _ store _ _ _ (held.later since)
        (superseded.continues (since.continues held.reached)) caller ambient call
    refine ⟨fun renewedAt leaseExpiresAt =>
      renewLease_of_refused refused ⟨renewedAt, renewedAt, ⟨0⟩, ⟨0⟩⟩, ?_⟩
    intro definitions utcNow ambient result
    rw [completeExecution_eq]
    cases issued : completionCall definitions utcNow _ result with
    | error exception => rfl
    | ok completion =>
        obtain ⟨call, reported⟩ := completion
        simp only [refused ambient call (completionCall_carries issued)]
        rfl
  oneOutcome _ reached job member _ _ _ _ _ history first second :=
    (jobs_legalHistory reached.reachable job member).run_between history first second
  endsOnce _ reached job member _ _ _ history ends :=
    (jobs_legalHistory reached.reachable job member).ends history ends

/-- Claim tokens fence in both stores: whatever other callers did, a stale token is refused
and changes nothing, each run gets at most one outcome, and a job ends at most once.
-/
theorem stale_tokens_fenced
    : Fences InMemoryJobStore.lawful ∧ Fences SqliteJobStore.lawful :=
  ⟨InMemoryJobStore.lawful.fences, SqliteJobStore.lawful.fences⟩

/-- After the second worker reclaimed the job, the first one's completion is `LeaseLost`. -/
theorem stale_tokens_fenced_afterReclaim
    : completeExecution (InMemoryJobStore.lawful.methods ()) (fun _ => none) (.ofTicks 10)
          (smallAmbient 10) firstSnapshot .success
          (InMemoryJobStore.lawful.machine.run .empty (crashedWorkerRun ())).2
      = (.ok .leaseLost,
          (InMemoryJobStore.lawful.machine.run .empty (crashedWorkerRun ())).2) := by
  have claimed : InMemoryJobStore.lawful.HoldsClaim () firstSnapshot
      (InMemoryJobStore.lawful.machine.run .empty (firstClaimRun ())).2 :=
    LawfulStore.firstSnapshot_held _ _ (by decide +kernel) (by decide +kernel)
  have second : InMemoryJobStore.lawful.Orderly
      (InMemoryJobStore.lawful.machine.run .empty (firstClaimRun ())).2
      ⟨(), smallAmbient 9, .tryClaimNextDueJob (.ofTicks 9) "worker-2" (.ofTicks 15)⟩ :=
    .claim (by decide +kernel)
  have held : InMemoryJobStore.lawful.HoldsClaim () firstSnapshot
      (InMemoryJobStore.lawful.machine.run .empty (crashedWorkerRun ())).2 :=
    claimed.later ((Machine.Reaches.refl _).step second)
  have superseded : Superseded firstSnapshot
      (InMemoryJobStore.lawful.machine.run .empty (crashedWorkerRun ())).2.jobsById :=
    ⟨firstSnapshot.claimedUnder (smallAmbient 9) (.ofTicks 9) "worker-2" (.ofTicks 15), _, _,
      by decide +kernel, rfl⟩
  exact (stale_tokens_fenced.1.leaseLost () _ _ _ held superseded (.refl _) ()).2 _ _ _ _

end JobScheduler
