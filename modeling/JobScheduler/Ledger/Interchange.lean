import JobScheduler.Ledger.ClaimOrder

/-! The two stores answer alike. As long as their ledgers are equal, a revision depends on the
ledger alone, and a claim looks at the one job that is due first in it.
-/

namespace JobScheduler

open Library

/-- The jobs due at an instant have different due instants. -/
def Ledger.DistinctDue (ledger : Ledger) (now : DateTimeOffset) : Prop :=
  ∀ job ∈ ledger.rows,
    ∀ other ∈ ledger.rows,
      job.isDue now = true
      → other.isDue now = true
      → job.dueInstant = other.dueInstant
      → job = other

/-- The call lists no jobs. -/
def StoreCall.isList : StoreCall → Bool
  | .list => true
  | _ => false

section Lockstep

variable {First Second Caller Other : Type} {first : LawfulStore First Caller}
  {second : LawfulStore Second Other} {caller : Caller} {other : Other} {state : First}
  {twin : Second} {ambient : Ambient}

/-- Revisions of equal ledgers are made or refused alike. -/
theorem LawfulStore.revision_alike (sound : first.Sound state) (twinSound : second.Sound twin)
    (same : first.ledger state = second.ledger twin)
    (sees : ∀ job, first.visible caller job = true)
    (twinSees : ∀ job, second.visible other job = true) {call : StoreCall}
    {revision : Revision} (revises : call.revision ambient = some revision)
    (fresh : ambient.Fresh (first.ledger state))
    : ((first.methods caller).call ambient call state).1
          = ((second.methods other).call ambient call twin).1
        ∧ first.ledger ((first.methods caller).call ambient call state).2
          = second.ledger ((second.methods other).call ambient call twin).2 := by
  rcases @revision_cases _ _ first caller _ _ _ _ sound revises with
    ⟨job, next, answered, stored, -, enabled, written⟩ | ⟨answered, disabled⟩ | ⟨-, stale, -⟩
  · rcases @revision_cases _ _ second other _ _ _ _ twinSound revises with
      ⟨again, after, answeredAlike, storedAlike, -, -, writtenAlike⟩ | ⟨-, disabled⟩
      | ⟨-, stale, -⟩
    · rw [same] at stored
      cases stored.symm.trans storedAlike
      rw [answered, answeredAlike]
      exact ⟨rfl, by rw [written, writtenAlike, same]⟩
    · cases (disabled job (same ▸ stored) (twinSees job)).symm.trans enabled
    · exact absurd (same ▸ fresh) stale
  · rcases @revision_cases _ _ second other _ _ _ _ twinSound revises with
      ⟨again, after, -, stored, -, enabled, -⟩ | ⟨answeredAlike, -⟩ | ⟨-, stale, -⟩
    · cases (disabled again (same ▸ stored) (sees again)).symm.trans enabled
    · rw [answered, answeredAlike]
      exact ⟨rfl, same⟩
    · exact absurd (same ▸ fresh) stale
  · exact absurd fresh stale

/-- With different due instants, equal ledgers have one job that is due first. -/
theorem LawfulStore.DueFirst.nextDue_alike (order : first.DueFirst caller state)
    (twinOrder : second.DueFirst other twin)
    (same : first.ledger state = second.ledger twin) {now : DateTimeOffset}
    (distinct : Ledger.DistinctDue (first.ledger state) now)
    : first.nextDue caller state now = second.nextDue other twin now := by
  cases picks : first.nextDue caller state now with
  | none =>
      cases twinPicks : second.nextDue other twin now with
      | none => rfl
      | some job =>
          obtain ⟨stored, due, -⟩ := twinOrder.picked now job twinPicks
          have member : job ∈ first.jobs state := by
            rw [jobs, same]
            exact KeyedTable.find?_mem stored
          cases ((order.nothing now picks).1 job member).symm.trans due
  | some job =>
      obtain ⟨stored, due, least⟩ := order.picked now job picks
      have member := KeyedTable.find?_mem stored
      cases twinPicks : second.nextDue other twin now with
      | none =>
          have idle := (twinOrder.nothing now twinPicks).1 job (by
            rw [jobs, ← same]
            exact member)
          cases idle.symm.trans due
      | some rival =>
          obtain ⟨twinStored, twinDue, twinLeast⟩ := twinOrder.picked now rival twinPicks
          have rivalMember : rival ∈ first.jobs state := by
            rw [jobs, same]
            exact KeyedTable.find?_mem twinStored
          have twinMember : job ∈ second.jobs twin := by
            rw [jobs, ← same]
            exact member
          obtain ⟨instant, known, -⟩ := JobRecord.dueInstant_of_isDue due
          obtain ⟨rivalInstant, rivalKnown, -⟩ := JobRecord.dueInstant_of_isDue twinDue
          have equal : instant = rivalInstant := le_antisymm
            (least rival rivalMember twinDue _ _ known rivalKnown)
            (twinLeast job twinMember due _ _ rivalKnown known)
          rw [distinct job member rival rivalMember due twinDue
            (by rw [known, rivalKnown, equal])]

/-- Valid claims from equal ledgers claim the same job, or none. -/
theorem LawfulStore.claim_alike (order : first.DueFirst caller state)
    (twinOrder : second.DueFirst other twin)
    (same : first.ledger state = second.ledger twin) {now : DateTimeOffset}
    (distinct : Ledger.DistinctDue (first.ledger state) now) {workerId : String}
    {leaseExpiresAt : DateTimeOffset}
    (valid : JobRecord.ValidClaim workerId now leaseExpiresAt)
    (fresh : ambient.Fresh (first.ledger state))
    : ((first.methods caller).call ambient
            (.tryClaimNextDueJob now workerId leaseExpiresAt) state).1
          = ((second.methods other).call ambient
              (.tryClaimNextDueJob now workerId leaseExpiresAt) twin).1
        ∧ first.ledger ((first.methods caller).call ambient
              (.tryClaimNextDueJob now workerId leaseExpiresAt) state).2
          = second.ledger ((second.methods other).call ambient
              (.tryClaimNextDueJob now workerId leaseExpiresAt) twin).2 := by
  have alike := order.nextDue_alike twinOrder same distinct
  cases picks : first.nextDue caller state now with
  | none =>
      rw [(order.nothing now picks).2, (twinOrder.nothing now (alike.symm.trans picks)).2]
      exact ⟨rfl, same⟩
  | some job =>
      obtain ⟨-, due, -⟩ := order.picked now job picks
      have ready := JobRecord.isDue_ready due
      obtain ⟨next, claimed, written⟩ := first.claims caller ambient state now workerId
        leaseExpiresAt job order.sound picks ready valid fresh
      obtain ⟨after, claimedAlike, writtenAlike⟩ := second.claims other ambient twin now
        workerId leaseExpiresAt job twinOrder.sound (alike.symm.trans picks) ready valid
        (same ▸ fresh)
      rw [claimed, claimedAlike]
      exact ⟨rfl, by rw [written, writtenAlike, same]⟩

end Lockstep

/-- The calls that both stores have to answer alike: jobs are added under new ids, drawn
identifiers do not repeat, claims are valid, and no two jobs are due at the same instant when
one is claimed.
-/
structure Interchangeable (store : InMemoryJobStore) (input : StoreInput Unit) : Prop where
  orderly : InMemoryJobStore.lawful.Orderly store input
  notList : input.call.isList = false
  validClaim : input.call.ValidIfClaim
  distinctDue
    : ∀ now workerId leaseExpiresAt,
        input.call = .tryClaimNextDueJob now workerId leaseExpiresAt
        → Ledger.DistinctDue store.jobsById now

/-- The SQLite store under a scope whose actor may access every row. -/
def sqliteMachine : Machine Database (StoreInput Unit) StoreAnswer :=
  callMachine (fun _ => SqliteJobStore.methods .everyRow)

/-- Both stores hold the same records, and each of them is in order. -/
structure Alike (store : InMemoryJobStore) (db : Database) : Prop where
  exact : store.Exact
  sound : db.Sound
  same : store.jobsById = db.ledger

/-- A new job is stored by both stores. -/
theorem Alike.add {store : InMemoryJobStore} {db : Database} (alike : Alike store db)
    {job : JobRecord} (new : job.NewlyMade) (freshIn : job.FreshIn store.jobsById)
    (ambient : Ambient)
    : (InMemoryJobStore.methods.call ambient (.add job) store).1
          = ((SqliteJobStore.methods .everyRow).call ambient (.add job) db).1
        ∧ (InMemoryJobStore.methods.call ambient (.add job) store).2.jobsById
          = ((SqliteJobStore.methods .everyRow).call ambient (.add job) db).2.ledger := by
  obtain ⟨runAt, -, stored⟩ := InMemoryJobStore.call_add new ambient store
  rcases @SqliteJobStore.call_add .everyRow db alike.sound job new ambient with
    ⟨next, storedAlike, written⟩ | ⟨-, stale⟩
  · rw [stored, storedAlike]
    exact ⟨rfl, by rw [written.1, ← alike.same]⟩
  · exact absurd (alike.same ▸ freshIn) stale

/-- One call is answered alike and keeps the stores alike, one kind of call at a time. -/
theorem Alike.step {store : InMemoryJobStore} {db : Database} (alike : Alike store db)
    {input : StoreInput Unit} (allowed : Interchangeable store input)
    : (InMemoryJobStore.lawful.machine.step store input).1 = (sqliteMachine.step db input).1
      ∧ Alike (InMemoryJobStore.lawful.machine.step store input).2
          (sqliteMachine.step db input).2 := by
  obtain ⟨⟨admissible, fresh, newJob⟩, notList, validClaim, distinctDue⟩ := allowed
  have exact := alike.exact.call input.ambient admissible
    (fun job added => (newJob job added).1) validClaim
  have sound := SqliteJobStore.lawful.stays .everyRow input.ambient input.call db alike.sound
    admissible
  have conclude
      (both
        : (InMemoryJobStore.methods.call input.ambient input.call store).1
              = ((SqliteJobStore.methods .everyRow).call input.ambient input.call db).1
            ∧ (InMemoryJobStore.methods.call input.ambient input.call store).2.jobsById
              = ((SqliteJobStore.methods .everyRow).call input.ambient input.call db).2.ledger)
      : (InMemoryJobStore.lawful.machine.step store input).1 = (sqliteMachine.step db input).1
        ∧ Alike (InMemoryJobStore.lawful.machine.step store input).2
            (sqliteMachine.step db input).2 :=
    ⟨both.1, exact, sound, both.2⟩
  apply conclude
  obtain ⟨caller, ambient, call⟩ := input
  cases revises : call.revision ambient with
  | some revision =>
      exact @LawfulStore.revision_alike _ _ _ _ InMemoryJobStore.lawful SqliteJobStore.lawful ()
        .everyRow _ _ _ trivial alike.sound alike.same (fun _ => rfl) (fun _ => rfl) _ _ revises
        fresh
  | none =>
      cases call with
      | add job => exact alike.add (admissible job rfl) (newJob job rfl) ambient
      | get id =>
          refine ⟨?_, alike.same⟩
          have seen : (db.ledger.find? id).filter (SqliteJobStore.visible .everyRow)
              = db.ledger.find? id := by
            cases db.ledger.find? id <;> rfl
          simp only [IJobStore.call, InMemoryJobStore.methods, InMemoryJobStore.get,
            SqliteJobStore.methods, SqliteJobStore.get, SqliteJobStore.loadJob_eq, seen,
            alike.same]
          rfl
      | list => cases notList
      | tryClaimNextDueJob now workerId leaseExpiresAt =>
          exact LawfulStore.claim_alike alike.exact.dueFirst
            (SqliteJobStore.dueFirst_everyRow alike.sound) alike.same
            (distinctDue now workerId leaseExpiresAt rfl)
            (validClaim now workerId leaseExpiresAt rfl) fresh
      | renewLease | markCompleted | markFailed | scheduleRetry | acknowledge => cases revises

/-- The stores are interchangeable: every run of such calls, with the same readings of the
clock and the same identifiers, is answered alike by both of them, call by call.
-/
theorem stores_answer_alike
    : ∀ inputs,
        InMemoryJobStore.lawful.machine.AlongSteps Interchangeable .empty inputs
        → (InMemoryJobStore.lawful.machine.run .empty inputs).1
          = (sqliteMachine.run .empty inputs).1 := by
  intro inputs allowed
  have start : Alike .empty .empty :=
    ⟨InMemoryJobStore.empty_exact, SqliteJobStore.empty_sound, rfl⟩
  exact Machine.run_answers_eq (fun _ _ _ alike allowed => alike.step allowed) start allowed

/-- An addition and a claim are answered alike. -/
theorem stores_answer_alike_firstClaim
    : (InMemoryJobStore.lawful.machine.run .empty (firstClaimRun ())).1
      = (sqliteMachine.run .empty (firstClaimRun ())).1 := by
  refine stores_answer_alike _ ⟨⟨.firstAdd smallJob_newlyMade (by decide), rfl, ?_, ?_⟩,
    ⟨.claim (by decide +kernel), rfl, ?_, ?_⟩, trivial⟩
  · intro now workerId leaseExpiresAt claims
    cases claims
  · intro now workerId leaseExpiresAt claims
    cases claims
  · intro now workerId leaseExpiresAt claims
    cases claims
    decide
  · intro now workerId leaseExpiresAt claims
    cases claims
    -- one job is stored
    intro job member other there _ _ _
    exact (List.mem_singleton.mp member).trans (List.mem_singleton.mp there).symm

end JobScheduler
