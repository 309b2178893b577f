import JobScheduler.Ledger.DueOrder
import JobScheduler.Persistence.SqliteLedger
import JobScheduler.Storage.PendingIndex

/-! Both stores hand out the due jobs oldest first: the in-memory store by its exact index,
the SQLite store by its due query over every row.
-/

namespace JobScheduler

open Library

namespace JobRecord

/-- A pending job is due when its run instant has come. -/
theorem isDue_of_pending {now instant : DateTimeOffset} {job : JobRecord}
    (waits : job.isPending = true) (runAt : job.runAt = some instant)
    : job.dueInstant = some instant ∧ (job.isDue now = true ↔ instant ≤ now) := by
  have idle : job.status ≠ .running := by
    intro running
    simp [isPending, running] at waits
  have due : job.dueInstant = some instant := by rw [dueInstant, if_neg idle, runAt]
  exact ⟨due, by simp [isDue, waits, due]⟩

/-- A job that is pending or whose lease has expired is due from its due instant on. -/
theorem isDue_of_ready {now instant : DateTimeOffset} {job : JobRecord}
    (ready : job.isPending = true ∨ job.LeaseExpired now)
    (due : job.dueInstant = some instant) (past : instant ≤ now)
    : job.isDue now = true := by
  rcases ready with waits | ⟨running, -⟩
  · simp [isDue, waits, due, past]
  · simp [isDue, running, due, past]

/-- A job that is not pending is due when its lease has expired. -/
theorem isDue_of_notPending {now : DateTimeOffset} {job : JobRecord}
    (idle : job.isPending = false) (due : job.isDue now = true)
    : job.LeaseExpired now :=
  (isDue_ready due).resolve_left (by simp [idle])

end JobRecord

namespace InMemoryJobStore

/-- The due instant of a due job, as the index or its lease names it. -/
theorem Exact.due_cases {store : InMemoryJobStore} (exact : store.Exact)
    {now : DateTimeOffset} {job : JobRecord} (member : job ∈ store.jobsById.rows)
    (due : job.isDue now = true)
    : (∃ entry ∈ store.pendingJobs, job.dueInstant = some entry.runAt ∧ entry.runAt ≤ now)
      ∨ ∃ lease,
          job.status = .running
          ∧ job.leaseExpiresAt = some lease
          ∧ lease ≤ now
          ∧ job.dueInstant = some lease := by
  cases waits : job.isPending with
  | true =>
      obtain ⟨entry, there, same⟩ := exact.complete job member waits
      obtain ⟨owner, found, -, runAt⟩ := exact.entries entry there
      rw [same, KeyedTable.find?_of_mem member] at found
      cases found
      obtain ⟨instant, dueIff⟩ := @JobRecord.isDue_of_pending now _ _ waits runAt
      exact Or.inl ⟨entry, there, instant, dueIff.mp due⟩
  | false =>
      obtain ⟨running, lease, expires, past⟩ := JobRecord.isDue_of_notPending waits due
      refine Or.inr ⟨lease, running, expires, past, ?_⟩
      rw [JobRecord.dueInstant, if_pos running, expires]

/-- The job an indexed store would claim is stored and due. -/
theorem Indexed.due_of_picks {store : InMemoryJobStore} (indexed : store.Indexed)
    {now : DateTimeOffset} {job : JobRecord} (picks : nextDue store now = some job)
    : job ∈ store.jobsById.rows ∧ job.isDue now = true := by
  rcases indexed.next_spec now with
    ⟨nothing, -, -⟩ | ⟨nextJob, found, next, stored, instant, past, ready, -, -⟩
  · rw [nextDue, nothing] at picks
    cases picks
  · rw [nextDue, next] at picks
    cases stored.symm.trans picks
    exact ⟨KeyedTable.find?_mem stored,
      JobRecord.isDue_of_ready (ready.imp_left And.left) instant past⟩

/-- With an exact index, claims look at the job that is due first. -/
theorem Exact.dueFirst {store : InMemoryJobStore} (exact : store.Exact)
    : lawful.DueFirst () store where
  sound := trivial
  picked now job picks := by
    rcases exact.next_spec now with
      ⟨nothing, -, -⟩ | ⟨nextJob, found, next, stored, instant, past, ready, leastRunAt, leastLease⟩
    · change nextDue store now = some job at picks
      rw [nextDue, nothing] at picks
      cases picks
    · change nextDue store now = some job at picks
      rw [nextDue, next] at picks
      cases stored.symm.trans picks
      have due : job.isDue now = true :=
        JobRecord.isDue_of_ready (ready.imp_left And.left) instant past
      refine ⟨KeyedTable.find?_of_mem (KeyedTable.find?_mem stored), due, ?_⟩
      intro other member otherDue first second jobDue otherInstant
      cases instant.symm.trans jobDue
      rcases exact.due_cases member otherDue with
        ⟨entry, there, known, -⟩ | ⟨lease, running, expires, elapsed, known⟩
      · cases known.symm.trans otherInstant
        exact leastRunAt entry there
      · cases known.symm.trans otherInstant
        exact leastLease other member _ running expires elapsed
  nothing now nothing := by
    change nextDue store now = none at nothing
    rcases exact.next_spec now with
      ⟨none, later, unexpired⟩ | ⟨nextJob, found, next, stored, -⟩
    · refine ⟨?_, ?_⟩
      · intro job member
        by_contra due
        rcases exact.due_cases member (Bool.not_eq_false _ ▸ due) with
          ⟨entry, there, -, past⟩ | ⟨lease, running, expires, past, -⟩
        · exact absurd past (not_le.mpr (later entry there))
        · exact unexpired job member ⟨running, lease, expires, past⟩
      · intro ambient workerId leaseExpiresAt
        change methods.call ambient (.tryClaimNextDueJob now workerId leaseExpiresAt) store = _
        simp only [IJobStore.call, methods, tryClaimNextDueJob, none]
        rfl
    · rw [nextDue, next] at nothing
      cases stored.symm.trans nothing

end InMemoryJobStore

namespace SqliteJobStore

/-- Over every row, the due query looks at the job that is due first. -/
theorem dueFirst_everyRow {db : Database} (sound : db.Sound)
    : lawful.DueFirst .everyRow db where
  sound := sound
  picked now job picks := by
    obtain ⟨stored, -, due, least⟩ := nextDue_eq_some picks
    refine ⟨stored, due, ?_⟩
    intro other member otherDue instant otherInstant jobInstant known
    rcases Prod.Lex.toLex_le_toLex.mp (least other member rfl otherDue) with less | ⟨equal, -⟩
    · rw [jobInstant, known] at less
      exact (WithBot.coe_lt_coe.mp less).le
    · rw [jobInstant, known] at equal
      exact (WithBot.coe_inj.mp equal).le
  nothing now nothing := by
    refine ⟨?_, ?_⟩
    · intro job member
      refine @nextDueJobId_eq_none .everyRow db now ?_ job member rfl
      cases picked : nextDueJobId .everyRow now db with
      | none => rfl
      | some id =>
          obtain ⟨job, loaded⟩ := loadJob_of_picked picked
          change (nextDueJobId .everyRow now db).bind _ = none at nothing
          rw [picked, Option.bind_some, loaded] at nothing
          cases nothing
    · intro ambient workerId leaseExpiresAt
      change (methods .everyRow).call ambient
        (.tryClaimNextDueJob now workerId leaseExpiresAt) db = _
      simp only [IJobStore.call, methods, tryClaimNextDueJob_of_none nothing]
      rfl

end SqliteJobStore

/-- If the call is a claim, it names a worker and a lease that lies ahead. -/
def StoreCall.ValidIfClaim (call : StoreCall) : Prop :=
  ∀ now workerId leaseExpiresAt,
    call = .tryClaimNextDueJob now workerId leaseExpiresAt
    → JobRecord.ValidClaim workerId now leaseExpiresAt

namespace LawfulStore

variable {State Caller : Type} (store : LawfulStore State Caller)

/-- What of an orderly call with valid claim arguments can be told from the state. -/
def Tidy (state : State) (input : StoreInput Caller) : Prop :=
  input.ambient.Fresh (store.ledger state)
  ∧ match input.call with
    | .add job => job.FreshIn (store.ledger state)
    | .tryClaimNextDueJob now workerId leaseExpiresAt =>
        JobRecord.ValidClaim workerId now leaseExpiresAt
    | _ => True

instance (state : State) (input : StoreInput Caller) : Decidable (store.Tidy state input) := by
  unfold Tidy JobRecord.FreshIn
  cases input.call <;> infer_instance

variable {store}

/-- A tidy call is orderly if a job that it adds was just made. -/
theorem Tidy.orderly {state : State} {input : StoreInput Caller}
    (tidy : store.Tidy state input)
    (made : ∀ job, input.call = .add job → job.NewlyMade)
    : store.Orderly state input ∧ input.call.ValidIfClaim := by
  obtain ⟨fresh, rest⟩ := tidy
  obtain ⟨caller, ambient, call⟩ := input
  cases call with
  | add job => exact ⟨.add (made job rfl) fresh rest, fun _ _ _ claims => by cases claims⟩
  | tryClaimNextDueJob now workerId leaseExpiresAt =>
      refine ⟨.claim fresh, ?_⟩
      intro _ _ _ claims
      cases claims
      exact rest
  | get | list | renewLease | markCompleted | markFailed | scheduleRetry | acknowledge =>
      exact ⟨.ofOther (fun _ added => by cases added) fresh,
        fun _ _ _ claims => by cases claims⟩

/-- The same along a run, by induction on its inputs. -/
theorem tidy_orderly {state : State} {inputs : List (StoreInput Caller)}
    (tidy : store.machine.AlongSteps store.Tidy state inputs)
    (made : ∀ input ∈ inputs, ∀ job, input.call = .add job → job.NewlyMade)
    : store.machine.AlongSteps
        (fun state input => store.Orderly state input ∧ input.call.ValidIfClaim) state
        inputs := by
  induction inputs generalizing state with
  | nil => trivial
  | cons input rest ih =>
      exact ⟨tidy.1.orderly (made input (List.mem_cons_self ..)),
        ih tidy.2 (fun other member => made other (List.mem_cons_of_mem _ member))⟩

end LawfulStore

/-- The index is exact in every state reached through new job ids and valid claims. -/
theorem InMemoryJobStore.exact_of_reached {store : InMemoryJobStore}
    (reached
      : InMemoryJobStore.lawful.machine.Reaches
          (fun store input =>
            InMemoryJobStore.lawful.Orderly store input ∧ input.call.ValidIfClaim)
          .empty store)
    : store.Exact :=
  reached.preserves
    (fun _ input exact met => exact.call input.ambient met.1.admissible
      (fun job added => (met.1.newJob job added).1) met.2)
    InMemoryJobStore.empty_exact

/-- In both stores, whatever was done before with valid claims, a series of valid claims at
one instant hands out the jobs due then, each once and oldest first, and then answers `null`;
none of the claims throws.
-/
theorem due_jobs_handed_out
    : (∀ store,
          InMemoryJobStore.lawful.machine.Reaches
              (fun store input =>
                InMemoryJobStore.lawful.Orderly store input ∧ input.call.ValidIfClaim)
              .empty store
          → ∀ now attempts,
              InMemoryJobStore.lawful.ValidSeries () now store attempts
              → InMemoryJobStore.lawful.HandsOut () now store attempts)
      ∧ ∀ db,
          SqliteJobStore.lawful.machine.Reaches
              (fun db input =>
                SqliteJobStore.lawful.Orderly db input ∧ input.call.ValidIfClaim)
              .empty db
          → ∀ now attempts,
              SqliteJobStore.lawful.ValidSeries .everyRow now db attempts
              → SqliteJobStore.lawful.HandsOut .everyRow now db attempts := by
  refine ⟨?_, ?_⟩
  · intro store reached now attempts valid
    refine LawfulStore.handsOut_of_dueFirst _ (P := InMemoryJobStore.Exact)
      (fun _ exact => exact.dueFirst) now ?_ (InMemoryJobStore.exact_of_reached reached) valid
    intro state attempt exact valid
    refine exact.call attempt.ambient (StoreCall.admissible_claim _ _ _) ?_ ?_
    · intro job added
      cases added
    · intro now workerId leaseExpiresAt claims
      cases claims
      exact valid.2
  · intro db reached now attempts valid
    have sound : db.Sound :=
      LawfulStore.Reachable.sound (reached.mono (fun _ _ met => met.1.admissible))
    refine LawfulStore.handsOut_of_dueFirst _ (P := Database.Sound)
      (fun _ sound => SqliteJobStore.dueFirst_everyRow sound) now ?_ sound valid
    intro state attempt sound _
    exact SqliteJobStore.lawful.stays _ _ _ _ sound (StoreCall.admissible_claim _ _ _)

/-- A job for two attempts, and one that is enqueued at tick 6. -/
def otherJob : JobRecord :=
  .construct ⟨2⟩ "tenant-b" "bob" "email" ⟨"{}"⟩ .queued ⟨102⟩ (some (.ofTicks 1)) none none
    none none none 2 none [.queued ⟨102⟩ (.ofTicks 1) "Job accepted."]

def lateJob : JobRecord :=
  .construct ⟨3⟩ "tenant-a" "alice" "email" ⟨"{}"⟩ .queued ⟨103⟩ (some (.ofTicks 6)) none none
    none none none 1 none [.queued ⟨103⟩ (.ofTicks 6) "Job accepted."]

theorem otherJob_newlyMade : otherJob.NewlyMade :=
  @JobRecord.NewlyMade.enqueued otherJob ⟨102⟩ ⟨2⟩ "tenant-b" "bob" "email" ⟨"{}"⟩ 2
    (.ofTicks 1) (by decide)

theorem lateJob_newlyMade : lateJob.NewlyMade :=
  @JobRecord.NewlyMade.enqueued lateJob ⟨103⟩ ⟨3⟩ "tenant-a" "alice" "email" ⟨"{}"⟩ 1
    (.ofTicks 6) (by decide)

/-- Two workers claim a job each. The first one stops, and its lease ends at tick 5; the job of
the second one fails and is to be tried again at tick 7. A third job comes in.
-/
def busyRun {Caller : Type} (caller : Caller) : List (StoreInput Caller) :=
  [⟨caller, smallAmbient 0, .add smallJob⟩,
    ⟨caller, smallAmbient 1, .add otherJob⟩,
    ⟨caller, smallAmbient 2, .tryClaimNextDueJob (.ofTicks 2) "worker-1" (.ofTicks 5)⟩,
    ⟨caller, smallAmbient 3, .tryClaimNextDueJob (.ofTicks 3) "worker-2" (.ofTicks 20)⟩,
    ⟨caller, smallAmbient 4, .scheduleRetry ⟨2⟩ (smallAmbient 3).newGuid "no mail server"
      (.ofTicks 7)⟩,
    ⟨caller, smallAmbient 6, .add lateJob⟩]

/-- The states of the stores after the busy run. -/
def InMemoryJobStore.busy : InMemoryJobStore :=
  (InMemoryJobStore.lawful.machine.run .empty (busyRun ())).2

def Database.busy : Database :=
  (SqliteJobStore.lawful.machine.run .empty (busyRun .everyRow)).2

theorem busyRun_made {Caller : Type} (caller : Caller)
    : ∀ input ∈ busyRun caller, ∀ job, input.call = .add job → job.NewlyMade := by
  intro input member job added
  simp only [busyRun, List.mem_cons, List.not_mem_nil, or_false] at member
  rcases member with rfl | rfl | rfl | rfl | rfl | rfl
  · cases added
    exact smallJob_newlyMade
  · cases added
    exact otherJob_newlyMade
  · cases added
  · cases added
  · cases added
  · cases added
    exact lateJob_newlyMade

theorem InMemoryJobStore.busyRun_orderly
    : lawful.machine.AlongSteps
        (fun store input => lawful.Orderly store input ∧ input.call.ValidIfClaim) .empty
        (busyRun ()) :=
  LawfulStore.tidy_orderly (by decide +kernel) (busyRun_made ())

theorem SqliteJobStore.busyRun_orderly
    : lawful.machine.AlongSteps
        (fun db input => lawful.Orderly db input ∧ input.call.ValidIfClaim) .empty
        (busyRun .everyRow) :=
  LawfulStore.tidy_orderly (by decide +kernel) (busyRun_made QueryFilter.everyRow)

/-- Four claims at tick 8. -/
def fourAttempts : List ClaimAttempt :=
  [⟨smallAmbient 8, "worker-1", .ofTicks 15⟩, ⟨smallAmbient 9, "worker-2", .ofTicks 16⟩,
    ⟨smallAmbient 10, "worker-1", .ofTicks 15⟩, ⟨smallAmbient 11, "worker-3", .ofTicks 16⟩]

/-- At tick 8 three jobs are due, the first of them under an expired lease. They are stored in
another order than they are due in, and the last of four claims gets nothing.
-/
theorem due_jobs_handed_out_busy
    : ((InMemoryJobStore.lawful.jobs .busy).filter (·.isDue (.ofTicks 8))).map
          (fun job => (job.id, job.dueInstant))
        = [(⟨1⟩, some (.ofTicks 5)), (⟨2⟩, some (.ofTicks 7)), (⟨3⟩, some (.ofTicks 6))]
      ∧ InMemoryJobStore.lawful.HandsOut () (.ofTicks 8) .busy fourAttempts
      ∧ SqliteJobStore.lawful.HandsOut .everyRow (.ofTicks 8) .busy fourAttempts := by
  refine ⟨by decide +kernel, due_jobs_handed_out.1 _ ?_ _ _ ?_,
    due_jobs_handed_out.2 _ ?_ _ _ ?_⟩
  · exact Machine.reaches_run InMemoryJobStore.busyRun_orderly
  · exact ⟨⟨by decide +kernel, by decide +kernel⟩, ⟨by decide +kernel, by decide +kernel⟩,
      ⟨by decide +kernel, by decide +kernel⟩, ⟨by decide +kernel, by decide +kernel⟩, trivial⟩
  · exact Machine.reaches_run SqliteJobStore.busyRun_orderly
  · exact ⟨⟨by decide +kernel, by decide +kernel⟩, ⟨by decide +kernel, by decide +kernel⟩,
      ⟨by decide +kernel, by decide +kernel⟩, ⟨by decide +kernel, by decide +kernel⟩, trivial⟩

end JobScheduler
