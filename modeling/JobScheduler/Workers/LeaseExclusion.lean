import JobScheduler.Workers.WorkerSystem

/-! Mutual exclusion by leases. A claim whose lease lies ahead and whose worker has not issued
its completion is the stored one: its `Running` change is the last entry of the job, under
the lease it was granted last.
-/

namespace JobScheduler

open Library JobLifecycleService

/-- The stored job ends with the claim's `Running` change, under the claim's lease. -/
def WorkerClaim.Current (held : WorkerClaim) (ledger : Ledger) : Prop :=
  ∃ job,
    ledger.find? held.snapshot.id = some job
    ∧ job.history = held.snapshot.history
    ∧ job.leaseExpiresAt = some held.leaseExpiresAt

/-- A current claim stays current through a call, unless the call is a claim after its lease
or carries its token.
-/
theorem WorkerClaim.Current.next {State Caller : Type} {store : LawfulStore State Caller}
    {state : State} {input : StoreInput Caller} {held : WorkerClaim}
    (current : held.Current (store.ledger state)) (running : held.snapshot.EndsRunning)
    (reached : store.OrderlyReaches store.initial state)
    (orderly : store.Orderly state input)
    : held.Current (store.ledger (store.machine.step state input).2)
      ∨ (∃ now workerId leaseExpiresAt,
          input.call = .tryClaimNextDueJob now workerId leaseExpiresAt
          ∧ held.leaseExpiresAt ≤ now)
      ∨ Carries held.snapshot input.call := by
  obtain ⟨job, stored, same, lease⟩ := current
  have invariant := reached.coherenceInvariant job (KeyedTable.find?_mem stored)
  have sameId := KeyedTable.find?_key stored
  obtain ⟨status, token⟩ := JobRecord.isRunningUnder_iff.mp
    ((invariant.coherent.isRunningUnder_iff running (by rw [same])).mpr same)
  have step := store.follows input.caller input.ambient input.call state
    reached.reachable.sound orderly.admissible
  rcases step.find?_next stored with untouched | ⟨new, added, sameNew, -⟩
    | ⟨changed, one, -, there⟩
  · exact Or.inl ⟨job, untouched, same, lease⟩
  · have absent := (orderly.newJob new added).1
    rw [sameNew, stored] at absent
    cases absent
  · generalize input.call = call at one ⊢
    cases one with
    | claimed picked ready valid =>
        rcases ready with pending | ⟨-, expiry, expires, elapsed⟩
        · simp [JobRecord.isPending, status] at pending
        · cases expires.symm.trans lease
          exact Or.inr (Or.inl ⟨_, _, _, rfl, elapsed⟩)
    | acknowledged =>
        refine Or.inl ⟨_, there, ?_, lease⟩
        exact invariant.inOrder.trans same
    | renewed =>
        rw [sameId, token]
        exact Or.inr (Or.inr (.renewLease _ _))
    | completed =>
        rw [sameId, token]
        exact Or.inr (Or.inr .markCompleted)
    | failed =>
        rw [sameId, token]
        exact Or.inr (Or.inr (.markFailed _))
    | retried =>
        rw [sameId, token]
        exact Or.inr (Or.inr (.scheduleRetry _ _))

namespace WorkerSystem

variable {State Caller : Type} {store : LawfulStore State Caller}
  {system : WorkerSystem State}

/-- Every listed claim was granted in the run, no two of them share a token, and those that
count as held are current.
-/
structure Invariant (store : LawfulStore State Caller) (system : WorkerSystem State)
    : Prop where
  reached : store.OrderlyReaches store.initial system.store
  granted
    : ∀ (index : Nat) (held : WorkerClaim),
        system.claims[index]? = some held
        → ∃ caller, store.HoldsClaim caller held.snapshot system.store
  distinct
    : ∀ (first second : Nat) (held other : WorkerClaim),
        system.claims[first]? = some held
        → system.claims[second]? = some other
        → held.snapshot.currentStateChangeId = other.snapshot.currentStateChangeId
        → first = second
  current
    : ∀ (index : Nat) (held : WorkerClaim),
        system.claims[index]? = some held
        → system.HeldNow held
        → held.Current (store.ledger system.store)

theorem Invariant.endsRunning (invariant : Invariant store system) {index : Nat}
    {held : WorkerClaim} (listed : system.claims[index]? = some held)
    : held.snapshot.EndsRunning := by
  obtain ⟨caller, claimed⟩ := invariant.granted index held listed
  exact claimed.stored.1

/-- Two claims held on one job are both current, so they show the same last entry. -/
theorem Invariant.exclusive (invariant : Invariant store system) : system.Exclusive := by
  intro first second held other here there sameJob heldNow otherNow
  obtain ⟨job, stored, history, -⟩ := invariant.current first held here heldNow
  obtain ⟨again, storedAgain, historyAgain, -⟩ :=
    invariant.current second other there otherNow
  rw [sameJob, storedAgain] at stored
  cases stored
  obtain ⟨change, final, token, -⟩ := invariant.endsRunning here
  obtain ⟨entry, last, otherToken, -⟩ := invariant.endsRunning there
  rw [← history, historyAgain, last] at final
  cases final
  exact invariant.distinct first second held other here there (token.symm.trans otherToken)

/-- The invariant after a store call, with claims of the same snapshots: each of them is the
old one and its token was not used, or is current if it is held.
-/
theorem Invariant.moved (invariant : Invariant store system) {input : StoreInput Caller}
    {claims : List WorkerClaim} (orderly : store.Orderly system.store input)
    (past
      : ∀ now workerId leaseExpiresAt,
          input.call = .tryClaimNextDueJob now workerId leaseExpiresAt → now ≤ system.clock)
    (same
      : ∀ (index : Nat) (other : WorkerClaim),
          claims[index]? = some other
          → ∃ held,
              system.claims[index]? = some held
              ∧ other.snapshot = held.snapshot
              ∧ (other = held ∧ ¬ Carries held.snapshot input.call
                ∨ (system.HeldNow other
                  → other.Current
                      (store.ledger (store.machine.step system.store input).2))))
    : Invariant store
        { system with
          store := (store.machine.step system.store input).2
          claims := claims } where
  reached := invariant.reached.step orderly
  granted index other listed := by
    obtain ⟨held, before, snapshot, -⟩ := same index other listed
    obtain ⟨caller, claimed⟩ := invariant.granted index held before
    rw [snapshot]
    exact ⟨caller, claimed.later ((Machine.Reaches.refl _).step orderly)⟩
  distinct first second one two here there equal := by
    obtain ⟨held, heldHere, heldSame, -⟩ := same first one here
    obtain ⟨other, otherThere, otherSame, -⟩ := same second two there
    rw [heldSame, otherSame] at equal
    exact invariant.distinct first second held other heldHere otherThere equal
  current index other listed heldNow := by
    obtain ⟨held, before, -, ⟨rfl, unused⟩ | current⟩ := same index other listed
    · have stored := invariant.current index other before heldNow
      rcases stored.next (invariant.endsRunning before) invariant.reached orderly with
        stays | ⟨now, workerId, leaseExpiresAt, claims, expired⟩ | carries
      · exact stays
      · exact absurd (expired.trans (past _ _ _ claims)) (not_le.mpr heldNow.2)
      · exact absurd carries unused
    · exact current heldNow

/-- The invariant after a store call under unchanged claims, if no claim still held has its
token used.
-/
theorem Invariant.afterCall (invariant : Invariant store system) {input : StoreInput Caller}
    (orderly : store.Orderly system.store input)
    (past
      : ∀ now workerId leaseExpiresAt,
          input.call = .tryClaimNextDueJob now workerId leaseExpiresAt → now ≤ system.clock)
    (unused
      : ∀ (index : Nat) (held : WorkerClaim),
          system.claims[index]? = some held
          → Carries held.snapshot input.call
          → held.completionIssued = true)
    : Invariant store
        { system with store := (store.machine.step system.store input).2 } := by
  refine invariant.moved orderly past ?_
  intro index held listed
  refine ⟨held, listed, rfl, ?_⟩
  by_cases carries : Carries held.snapshot input.call
  · refine Or.inr ?_
    rintro ⟨notIssued, -⟩
    cases notIssued.symm.trans (unused index held listed carries)
  · exact Or.inl ⟨rfl, carries⟩

/-- A granted claim joins the others: it is current, and its token is not theirs. -/
theorem Invariant.grant (invariant : Invariant store system) {held : WorkerClaim}
    {caller : Caller} (claimed : store.HoldsClaim caller held.snapshot system.store)
    (current : held.Current (store.ledger system.store))
    (newToken
      : ∀ (index : Nat) (other : WorkerClaim),
          system.claims[index]? = some other
          → other.snapshot.currentStateChangeId ≠ held.snapshot.currentStateChangeId)
    : Invariant store { system with claims := system.claims ++ [held] } := by
  have cases (index : Nat) (other : WorkerClaim)
      (listed : (system.claims ++ [held])[index]? = some other)
      : system.claims[index]? = some other ∨ (index = system.claims.length ∧ other = held) := by
    rcases lt_or_ge index system.claims.length with inside | outside
    · rw [List.getElem?_append_left inside] at listed
      exact Or.inl listed
    · rw [List.getElem?_append_right outside, List.getElem?_singleton] at listed
      by_cases first : index - system.claims.length = 0
      · rw [if_pos first] at listed
        exact Or.inr ⟨by omega, (Option.some.inj listed).symm⟩
      · rw [if_neg first] at listed
        cases listed
  refine ⟨invariant.reached, ?_, ?_, ?_⟩
  · intro index other listed
    rcases cases index other listed with old | ⟨-, rfl⟩
    · exact invariant.granted index other old
    · exact ⟨caller, claimed⟩
  · intro first second one two here there same
    rcases cases first one here with old | ⟨position, rfl⟩
    · rcases cases second two there with older | ⟨-, rfl⟩
      · exact invariant.distinct first second one two old older same
      · exact absurd same (newToken first one old)
    · rcases cases second two there with older | ⟨again, rfl⟩
      · exact absurd same.symm (newToken second two older)
      · rw [position, again]
  · intro index other listed heldNow
    rcases cases index other listed with old | ⟨-, rfl⟩
    · exact invariant.current index other old heldNow
    · exact current

/-- A claim of a list in which one claim was changed is an old one or the changed one. -/
theorem listed_modify {claims : List WorkerClaim} {index position : Nat}
    {change : WorkerClaim → WorkerClaim} {other : WorkerClaim}
    (listed : (claims.modify index change)[position]? = some other)
    : ∃ held,
        claims[position]? = some held
        ∧ (index ≠ position ∧ other = held ∨ index = position ∧ other = change held) := by
  rw [List.getElem?_modify] at listed
  obtain ⟨held, here, rfl⟩ := Option.map_eq_some_iff.mp listed
  by_cases picked : index = position
  · exact ⟨held, here, Or.inr ⟨picked, by simp [picked]⟩⟩
  · exact ⟨held, here, Or.inl ⟨picked, by simp [picked]⟩⟩

/-- Issuing a completion keeps the invariant, since the claim is not held any more. -/
theorem Invariant.issueCompletion (invariant : Invariant store system) (index : Nat)
    : Invariant store
        { system with
          claims :=
            system.claims.modify index
              (fun held => { held with completionIssued := true }) } := by
  have same (position : Nat) (other : WorkerClaim)
      (listed
        : (system.claims.modify index
            (fun held => { held with completionIssued := true }))[position]? = some other)
      : ∃ held,
          system.claims[position]? = some held
          ∧ other.snapshot = held.snapshot
          ∧ (other = held ∨ other.completionIssued = true) := by
    obtain ⟨held, before, ⟨-, rfl⟩ | ⟨-, rfl⟩⟩ := listed_modify listed
    · exact ⟨other, before, rfl, Or.inl rfl⟩
    · exact ⟨held, before, rfl, Or.inr rfl⟩
  refine ⟨invariant.reached, ?_, ?_, ?_⟩
  · intro position other listed
    obtain ⟨held, before, snapshot, -⟩ := same position other listed
    rw [snapshot]
    exact invariant.granted position held before
  · intro first second one two here there equal
    obtain ⟨held, heldHere, heldSame, -⟩ := same first one here
    obtain ⟨other, otherThere, otherSame, -⟩ := same second two there
    rw [heldSame, otherSame] at equal
    exact invariant.distinct first second held other heldHere otherThere equal
  · intro position other listed heldNow
    obtain ⟨held, before, -, rfl | issued⟩ := same position other listed
    · exact invariant.current position other before heldNow
    · cases heldNow.1.symm.trans issued

/-- A granted claim draws its token afresh, so no listed claim has it. -/
theorem Invariant.newToken (invariant : Invariant store system) {job : JobRecord}
    {ambient : Ambient} {now leaseExpiresAt : DateTimeOffset} {workerId : String}
    (fresh : ambient.Fresh (store.ledger system.store)) {index : Nat} {other : WorkerClaim}
    (listed : system.claims[index]? = some other)
    : other.snapshot.currentStateChangeId
      ≠ (job.claimedUnder ambient now workerId leaseExpiresAt).currentStateChangeId := by
  obtain ⟨caller, claimed⟩ := invariant.granted index other listed
  obtain ⟨⟨change, final, token, -⟩, stored, there, -, begins, -⟩ := claimed.stored
  obtain ⟨last, added, -, record⟩ := job.claimedUnder_eq ambient now workerId leaseExpiresAt
  have used : other.snapshot.currentStateChangeId ∈ stored.history.map JobStateChange.id := by
    rw [← token]
    exact List.mem_map_of_mem (begins.subset (List.mem_of_getLast? final))
  have drawn := (StoreCall.appended_drawn ambient job
    (.tryClaimNextDueJob now workerId leaseExpiresAt)).subset
      (List.mem_map_of_mem (List.mem_of_getLast? added))
  obtain ⟨notFirst, notSecond⟩ := fresh.2 stored (KeyedTable.find?_mem there)
  rw [record]
  rintro same
  rw [same] at used
  rcases List.mem_cons.mp drawn with first | second
  · exact notFirst (first ▸ used)
  · exact notSecond (List.mem_singleton.mp second ▸ used)

/-- A claim step keeps the invariant: what it grants is current and joins the claims. -/
theorem Invariant.claim (invariant : Invariant store system) (leaseDuration : TimeSpan)
    {caller : Caller} {ambient : Ambient} {now : DateTimeOffset} {workerId : String}
    (fresh : ambient.Fresh (store.ledger system.store)) (past : now ≤ system.clock)
    : Invariant store
        (system.claim (store.methods caller) leaseDuration ambient now workerId) := by
  rcases system.claim_cases (store.methods caller) leaseDuration ambient now workerId with
    nothing | ⟨leaseExpiresAt, answer, next, -, called, granted⟩
  · rwa [nothing]
  have orderly : store.Orderly system.store
      ⟨caller, ambient, .tryClaimNextDueJob now workerId leaseExpiresAt⟩ :=
    .claim fresh
  have moved : (store.machine.step system.store
      ⟨caller, ambient, .tryClaimNextDueJob now workerId leaseExpiresAt⟩).2 = next :=
    congrArg Prod.snd called
  have after := invariant.afterCall orderly (by
      intro other worker lease same
      cases same
      exact past) (by
      intro index held listed carries
      cases carries)
  rw [moved] at after
  rcases granted with none | ⟨job, rfl, granted⟩
  · rwa [none]
  rw [granted]
  obtain ⟨picked, -, -, -, -, -, rfl, ledger⟩ :=
    LawfulStore.stored_of_claim invariant.reached.reachable.sound called
  refine @Invariant.grant _ _ _ _ after
    ⟨picked.claimedUnder ambient now workerId leaseExpiresAt, leaseExpiresAt, false⟩ caller
    ?_ ?_ ?_
  · exact ⟨system.store, ambient, now, workerId, leaseExpiresAt, next, invariant.reached,
      orderly, called, .refl next⟩
  · refine ⟨picked.claimedUnder ambient now workerId leaseExpiresAt, ?_, rfl, ?_⟩
    · rw [ledger]
      exact KeyedTable.find?_set_self _ _
    · obtain ⟨last, -, -, record⟩ := picked.claimedUnder_eq ambient now workerId leaseExpiresAt
      rw [record]
  · exact fun index other listed => invariant.newToken fresh listed

/-- A renewal step keeps the invariant: an accepted one makes the claim the stored one, under
the new lease.
-/
theorem Invariant.renew (invariant : Invariant store system) (leaseDuration : TimeSpan)
    (index : Nat) {caller : Caller} {ambient : Ambient} {renewedAt : DateTimeOffset}
    (fresh : ambient.Fresh (store.ledger system.store))
    : Invariant store
        (system.renew (store.methods caller) leaseDuration index renewedAt) := by
  rcases system.renew_cases (store.methods caller) leaseDuration index ambient renewedAt with
    nothing | ⟨held, leaseExpiresAt, answer, next, listed, called, outcome⟩
  · rwa [nothing]
  have sound := invariant.reached.reachable.sound
  have carries : Carries held.snapshot (held.renewal renewedAt leaseExpiresAt) :=
    .renewLease renewedAt leaseExpiresAt
  rcases outcome with ⟨refused, same⟩ | ⟨rfl, accepted⟩
  · obtain ⟨revision, revises, -⟩ := carries.revision ambient
    have keeps := store.refusalKeeps caller ambient _ system.store revision sound revises
    rw [called] at keeps
    rw [same, show next = system.store from keeps refused]
    exact invariant
  have orderly : store.Orderly system.store
      ⟨caller, ambient, held.renewal renewedAt leaseExpiresAt⟩ :=
    .carries carries fresh
  have stored : (WorkerClaim.mk held.snapshot leaseExpiresAt held.completionIssued).Current
      (store.ledger next) := by
    obtain ⟨granter, claimed⟩ := invariant.granted index held listed
    obtain ⟨running, job, there, -, begins, coherent, -⟩ := claimed.stored
    rcases @LawfulStore.revision_cases _ _ store caller ambient
      (held.renewal renewedAt leaseExpiresAt) _ _ sound rfl with
      ⟨other, after, answered, found, -, enabled, written⟩ | ⟨answered, -⟩ | ⟨answered, -⟩
    · cases called.symm.trans answered
      cases found.symm.trans there
      have numbered := (invariant.reached.coherenceInvariant job
        (KeyedTable.find?_mem there)).inOrder
      refine ⟨job.withLease leaseExpiresAt, ?_, ?_, rfl⟩
      · rw [written]
        have sameId := KeyedTable.find?_key there
        exact sameId ▸ KeyedTable.find?_set_self _ (job.withLease leaseExpiresAt)
      · exact numbered.trans ((coherent.isRunningUnder_iff running begins).mp
          (Bool.and_eq_true_iff.mp enabled).2)
    · cases called.symm.trans answered
    · cases called.symm.trans answered
  have moved := @Invariant.moved _ _ _ _ invariant
    ⟨caller, ambient, held.renewal renewedAt leaseExpiresAt⟩
    (system.claims.modify index (fun held => { held with leaseExpiresAt := leaseExpiresAt }))
    orderly (fun _ _ _ claims => (by cases claims))
  have after : (store.machine.step system.store
      ⟨caller, ambient, held.renewal renewedAt leaseExpiresAt⟩).2 = next :=
    congrArg Prod.snd called
  rw [after] at moved
  rw [accepted]
  refine moved ?_
  intro position other there
  obtain ⟨before, found, ⟨apart, rfl⟩ | ⟨rfl, rfl⟩⟩ := listed_modify there
  · refine ⟨other, found, rfl, Or.inl ⟨rfl, ?_⟩⟩
    intro carriesOther
    exact apart (invariant.distinct index position held other listed found
      (Option.some.inj (carries.expectedToken.symm.trans carriesOther.expectedToken)))
  · cases listed.symm.trans found
    exact ⟨held, listed, rfl, Or.inr fun _ => stored⟩

/-- A completion step keeps the invariant: its claim is not counted as held any more. -/
theorem Invariant.complete (invariant : Invariant store system) (index : Nat)
    {caller : Caller} {ambient : Ambient} (definitions : IJobDefinitionRegistry)
    (utcNow : DateTimeOffset) (result : JobExecutionResult)
    (fresh : ambient.Fresh (store.ledger system.store))
    (issued
      : ∀ held, system.claims[index]? = some held → held.completionIssued = true)
    : Invariant store
        (system.complete (store.methods caller) index ambient definitions utcNow result) := by
  rcases system.complete_cases (store.methods caller) index ambient definitions utcNow
    result with nothing | ⟨held, call, listed, carries, moved⟩
  · rwa [nothing]
  rw [moved]
  refine @Invariant.afterCall _ _ _ _ invariant ⟨caller, ambient, call⟩ ?_ ?_ ?_
  · exact .carries carries fresh
  · rintro now workerId leaseExpiresAt rfl
    cases carries
  · intro position other there carriesOther
    have same := carries.expectedToken.symm.trans carriesOther.expectedToken
    have equal := invariant.distinct index position held other listed there
      (Option.some.inj same)
    subst equal
    exact issued other there

/-- Every allowed step keeps the invariant, one kind of step at a time. -/
theorem Invariant.step (invariant : Invariant store system) (leaseDuration : TimeSpan)
    {input : WorkerInput Caller} (allowed : system.Allowed store input)
    : Invariant store (system.step store.methods leaseDuration input) := by
  cases input with
  | advance clock =>
      refine ⟨invariant.reached, invariant.granted, invariant.distinct, ?_⟩
      intro index held listed heldNow
      exact invariant.current index held listed
        ⟨heldNow.1, lt_of_le_of_lt allowed heldNow.2⟩
  | client input =>
      obtain ⟨orderly, client⟩ := allowed
      refine invariant.afterCall orderly ?_ ?_
      · intro now workerId leaseExpiresAt claims
        rw [claims] at client
        cases client
      · intro index held listed carries
        generalize input.call = call at client carries
        cases carries <;> cases client
  | claim caller ambient now workerId =>
      exact invariant.claim leaseDuration allowed.1 allowed.2
  | renew index caller ambient renewedAt =>
      exact invariant.renew leaseDuration index allowed.1
  | issueCompletion index => exact invariant.issueCompletion index
  | complete index caller ambient definitions utcNow result =>
      exact invariant.complete index definitions utcNow result allowed.1 allowed.2

theorem Invariant.start (clock : DateTimeOffset)
    : Invariant store (WorkerSystem.start store clock) where
  reached := .refl _
  granted index held listed := by simp [WorkerSystem.start] at listed
  distinct first second held other listed := by simp [WorkerSystem.start] at listed
  current index held listed := by simp [WorkerSystem.start] at listed

/-- In every state that workers of one lease duration reach, no two claims on one job are
held, by the invariant of the system.
-/
theorem exclusive_of_reached {leaseDuration : TimeSpan} {clock : DateTimeOffset}
    (reached
      : (machine store.methods leaseDuration).Reaches (fun system => system.Allowed store)
          (WorkerSystem.start store clock) system)
    : system.Exclusive := by
  have invariant : Invariant store system :=
    reached.preserves (fun _ _ invariant allowed => invariant.step leaseDuration allowed)
      (Invariant.start clock)
  exact invariant.exclusive

end WorkerSystem

/-- Leases exclude in both stores: for workers of one lease duration whose time arguments are
earlier readings of one clock, at most one claim on a job has no completion issued and a
lease that ends after the time the clock shows.
-/
theorem claims_exclusive_of_reached
    : (∀ leaseDuration clock system,
          (WorkerSystem.machine InMemoryJobStore.lawful.methods leaseDuration).Reaches
              (fun system => system.Allowed InMemoryJobStore.lawful)
              (.start InMemoryJobStore.lawful clock) system
          → system.Exclusive)
      ∧ ∀ leaseDuration clock system,
          (WorkerSystem.machine SqliteJobStore.lawful.methods leaseDuration).Reaches
              (fun system => system.Allowed SqliteJobStore.lawful)
              (.start SqliteJobStore.lawful clock) system
          → system.Exclusive :=
  ⟨fun _ _ _ => WorkerSystem.exclusive_of_reached,
    fun _ _ _ => WorkerSystem.exclusive_of_reached⟩

/-- A job is enqueued, claimed for four ticks, and claimed again after the clock passed the
lease, while the first worker has not issued its completion.
-/
def overtakenWorkerRun {Caller : Type} (caller : Caller) : List (WorkerInput Caller) :=
  [.client ⟨caller, smallAmbient 0, .add smallJob⟩,
    .advance (.ofTicks 1),
    .claim caller (smallAmbient 1) (.ofTicks 1) "worker-1",
    .advance (.ofTicks 9),
    .claim caller (smallAmbient 9) (.ofTicks 9) "worker-2"]

/-- The system after that run. -/
def overtakenWorkerSystem {State Caller : Type} (store : LawfulStore State Caller)
    (caller : Caller)
    : WorkerSystem State :=
  ((WorkerSystem.machine store.methods ⟨4⟩).run (.start store (.ofTicks 0))
    (overtakenWorkerRun caller)).2

/-- Two claims on the job are listed in the end, and only the second one is held. -/
theorem claims_exclusive_of_reached_overtaken
    : (overtakenWorkerSystem InMemoryJobStore.lawful ()).claims.length = 2
      ∧ (overtakenWorkerSystem InMemoryJobStore.lawful ()).Exclusive
      ∧ (overtakenWorkerSystem SqliteJobStore.lawful .everyRow).claims.length = 2
      ∧ (overtakenWorkerSystem SqliteJobStore.lawful .everyRow).Exclusive := by
  refine ⟨by decide +kernel, ?_, by decide +kernel, ?_⟩
  · refine claims_exclusive_of_reached.1 ⟨4⟩ (.ofTicks 0) _ (Machine.reaches_run ?_)
    exact ⟨⟨.firstAdd smallJob_newlyMade (by decide), rfl⟩, .advance (by decide +kernel),
      ⟨by decide +kernel, by decide +kernel⟩, .advance (by decide +kernel),
      ⟨by decide +kernel, by decide +kernel⟩, trivial⟩
  · refine claims_exclusive_of_reached.2 ⟨4⟩ (.ofTicks 0) _ (Machine.reaches_run ?_)
    exact ⟨⟨.firstAdd smallJob_newlyMade (by decide), rfl⟩, .advance (by decide +kernel),
      ⟨by decide +kernel, by decide +kernel⟩, .advance (by decide +kernel),
      ⟨by decide +kernel, by decide +kernel⟩, trivial⟩

end JobScheduler
