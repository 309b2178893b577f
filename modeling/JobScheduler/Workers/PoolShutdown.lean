import JobScheduler.Library.Stages
import JobScheduler.Workers.PoolExecutions

/-! A host that stops. Its loops claim nothing any more but through the calls that are already
under way, and each of them gets to its end, whatever the other loops and the clients do.
-/

namespace JobScheduler

open Library

-----------------------------------------------------------------------------------------
-- How far a loop has come
-----------------------------------------------------------------------------------------

def LeaseRenewal.stage : LeaseRenewal → Nat
  | .renewing _ => 2
  | .delaying => 3
  | .ended => 4

/-- How far a loop has come with the work it ends before it stops. The renewal of a lease is
ended after the execution.
-/
def WorkerPhase.stage : WorkerPhase → Nat
  | .claiming _ => 0
  | .executing execution => if execution.ended = none then 1 else execution.renewal.stage
  | .completing _ _ _ => 5
  | .polling => 6
  | .stopped => 7

theorem LeaseRenewal.stage_bounds (renewal : LeaseRenewal)
    : 2 ≤ renewal.stage ∧ renewal.stage ≤ 4 := by
  cases renewal with
  | renewing | delaying | ended => simp [stage]

namespace WorkerPhase

theorem stage_waiting {execution : Execution} (waiting : execution.ended = none)
    : (WorkerPhase.executing execution).stage = 1 :=
  if_pos waiting

theorem stage_ended {execution : Execution} (ended : execution.ended ≠ none)
    : (WorkerPhase.executing execution).stage = execution.renewal.stage :=
  if_neg ended

/-- The end of an execution leads to the end of its renewal. -/
theorem stage_lt_ended {execution : Execution} (waiting : execution.ended = none)
    (ended : ExecutionEnd)
    : (WorkerPhase.executing execution).stage
      < (WorkerPhase.executing { execution with ended := some ended }).stage := by
  rw [stage_waiting waiting, stage_ended (Option.some_ne_none ended)]
  exact execution.renewal.stage_bounds.1

/-- A renewal that gets on takes an ended execution on with it. -/
theorem stage_renewed {execution renewed : Execution} (same : renewed.ended = execution.ended)
    (later : execution.renewal.stage < renewed.renewal.stage)
    : (WorkerPhase.executing execution).stage ≤ (WorkerPhase.executing renewed).stage
      ∧ ((WorkerPhase.executing execution).stage ≠ 1
        → (WorkerPhase.executing execution).stage < (WorkerPhase.executing renewed).stage) := by
  by_cases waiting : execution.ended = none
  · rw [stage_waiting waiting, stage_waiting (same.trans waiting)]
    exact ⟨le_rfl, fun ended => absurd rfl ended⟩
  · rw [stage_ended waiting, stage_ended (same.trans_ne waiting)]
    exact ⟨later.le, fun _ => later⟩

/-- The stages of an execution are its own. -/
theorem executing_iff (phase : WorkerPhase)
    : (∃ execution, phase = .executing execution) ↔ 1 ≤ phase.stage ∧ phase.stage ≤ 4 := by
  cases phase with
  | executing execution =>
      refine ⟨fun _ => ?_, fun _ => ⟨execution, rfl⟩⟩
      by_cases waiting : execution.ended = none
      · rw [stage_waiting waiting]
        decide
      · rw [stage_ended waiting]
        obtain ⟨least, most⟩ := execution.renewal.stage_bounds
        exact ⟨Nat.le_of_succ_le least, most⟩
  | claiming | completing | polling | stopped => simp [stage]

end WorkerPhase

/-- The loop that takes a step, and the stage that the step ends. -/
def PoolInput.ends : PoolInput → Option (Nat × Nat)
  | .claim index _ => some (index, 0)
  | .cancelWork index | .execute index _ => some (index, 1)
  | .renew index _ => some (index, 2)
  | .cancelRenewal index => some (index, 3)
  | .leave index => some (index, 4)
  | .complete index _ => some (index, 5)
  | .poll index => some (index, 6)
  | .advance _ | .stop | .request _ _ _ _ | .endDelay _ => none

/-- The stage of this loop that the step ends. -/
def PoolInput.stageOf (index : Nat) (input : PoolInput) : Option Nat :=
  input.ends.bind (fun ended => if ended.1 = index then some ended.2 else none)

/-- The job of the phase is still to be claimed, or to be executed. -/
def WorkerPhase.hasToExecute (phase : WorkerPhase) : Bool :=
  phase.isClaiming || phase.waiting.isSome

/-- The entry reports a claim. -/
def LogEntry.isClaim : LogEntry → Bool
  | .claimed .. => true
  | _ => false

/-- A delay of this loop ends. -/
def PoolInput.endsDelay (index : Nat) : PoolInput → Bool
  | .endDelay other => other = index
  | _ => false

namespace WorkerPool

variable {worker : QueuedJobWorker} {pool : WorkerPool} {index other : Nat}

/-- A loop that is not there has nothing to end. -/
def stage (index : Nat) (pool : WorkerPool) : Nat :=
  (pool.phases[index]?).elim 7 WorkerPhase.stage

/-- The loop is not taken back by the step, and gets on by a step of its own. -/
def Advances (index : Nat) (pool : WorkerPool) (input : PoolInput) (after : WorkerPool) : Prop :=
  pool.stage index ≤ after.stage index
  ∧ (input.stageOf index = some (pool.stage index) → pool.stage index < after.stage index)

theorem stage_enter {factory : DbContextFactory} {before : WorkerPhase} (after : WorkerPhase)
    (there : pool.phases[other]? = some before)
    : ({ pool with factory := factory }.enter other after).stage index
      = if other = index then after.stage else pool.stage index := by
  obtain ⟨inside, -⟩ := List.getElem?_eq_some_iff.mp there
  simp only [stage, enter, List.getElem?_set]
  split
  · rfl
  · rfl

/-- One loop moves on, in a step of its own. -/
theorem Advances.enter {input : PoolInput} {factory : DbContextFactory} {ended : Nat}
    {before after : WorkerPhase} (there : pool.phases[other]? = some before)
    (own : input.ends = some (other, ended)) (kept : before.stage ≤ after.stage)
    (passed : before.stage = ended → before.stage < after.stage)
    : Advances index pool input ({ pool with factory := factory }.enter other after) := by
  rw [Advances, stage_enter after there, PoolInput.stageOf, own, Option.bind_some]
  split
  · rename_i same
    cases same
    have here : pool.stage index = before.stage := by rw [stage, there, Option.elim_some]
    rw [here]
    exact ⟨kept, fun reached => passed (Option.some.inj reached).symm⟩
  · exact ⟨le_rfl, nofun⟩

/-- A step that the loop does not take where it stands. -/
theorem Advances.stay {input : PoolInput} {ended : Nat} (own : input.ends = some (other, ended))
    (within : ended < 7)
    (elsewhere : ∀ phase, pool.phases[other]? = some phase → phase.stage ≠ ended)
    : Advances index pool input pool := by
  rw [Advances, PoolInput.stageOf, own, Option.bind_some]
  refine ⟨le_rfl, ?_⟩
  split
  · rename_i same
    rw [← same, stage]
    intro reached
    cases there : pool.phases[other]? with
    | none =>
        rw [there] at reached
        exact absurd (Option.some.inj reached) (Nat.ne_of_lt within)
    | some phase =>
        rw [there] at reached
        exact absurd (Option.some.inj reached).symm (elsewhere phase there)
  · exact nofun

/-- A step that the loop takes only at another stage of an execution. -/
theorem Advances.stayExecuting {input : PoolInput} {ended : Nat}
    (own : input.ends = some (other, ended)) (within : 1 ≤ ended ∧ ended ≤ 4)
    (elsewhere
      : ∀ execution,
          pool.phases[other]? = some (.executing execution)
          → (WorkerPhase.executing execution).stage ≠ ended)
    : Advances index pool input pool := by
  refine .stay own (by omega) ?_
  intro phase there same
  obtain ⟨execution, rfl⟩ := phase.executing_iff.mpr (same ▸ within)
  exact elsewhere execution there same

theorem poll_advances (stopping : pool.stopping = true)
    : Advances index pool (.poll other) (pool.poll other) := by
  unfold poll
  split
  · rename_i there
    rw [if_pos stopping]
    exact .enter there rfl (by decide) (by decide)
  · rename_i elsewhere
    refine .stay rfl (by decide) ?_
    intro phase there same
    cases phase with
    | polling => exact elsewhere there
    | executing execution =>
        have bounded := (WorkerPhase.executing_iff _).mp ⟨execution, rfl⟩
        omega
    | claiming | completing | stopped => cases same

theorem claim_advances {ambient : Ambient}
    : Advances index pool (.claim other ambient) (pool.claim worker other ambient).2 := by
  unfold claim
  split
  · rename_i now there
    have begun : 0 < (worker.claim (workerNumber other) (workerId other) ambient now
        pool.factory).2.1.stage := by
      rcases worker.claim_cases (workerNumber other) (workerId other) ambient now pool.factory
        with ⟨entries, quiet, result⟩
          | ⟨leaseExpiresAt, answer, next, authorized, added, answered, ⟨entries, nothing, quiet,
              result⟩ | ⟨job, found, result⟩⟩
      · rw [result]
        exact Nat.succ_pos 5
      · rw [result]
        exact Nat.succ_pos 5
      · rw [result]
        exact Nat.one_pos
    exact .enter there rfl (Nat.zero_le _) (fun _ => begun)
  · rename_i elsewhere
    refine .stay rfl (by decide) ?_
    intro phase there same
    cases phase with
    | claiming now => exact elsewhere now there
    | executing execution =>
        have bounded := (WorkerPhase.executing_iff _).mp ⟨execution, rfl⟩
        omega
    | completing | polling | stopped => cases same

theorem cancelWork_advances (stopping : pool.stopping = true)
    : Advances index pool (.cancelWork other) (pool.cancelWork other) := by
  unfold cancelWork
  split
  · rename_i execution there
    split
    · rename_i waiting
      have later := WorkerPhase.stage_lt_ended waiting.1 .cancelled
      exact .enter there rfl later.le (fun _ => later)
    · rename_i noCancel
      refine .stayExecuting rfl (by decide) ?_
      intro found here same
      cases here.symm.trans there
      rw [WorkerPhase.stage_ended (fun waiting => noCancel ⟨waiting, stopping⟩)] at same
      have bounded := execution.renewal.stage_bounds
      omega
  · rename_i elsewhere
    exact .stayExecuting rfl (by decide) (fun execution there => absurd there (elsewhere execution))

theorem execute_advances {handlers : IJobHandlerRegistry}
    : Advances index pool (.execute other handlers) (pool.execute worker other handlers).2 := by
  unfold execute
  split
  · rename_i execution there
    split
    · rename_i waiting
      have later := WorkerPhase.stage_lt_ended waiting
      exact .enter there rfl (later _).le (fun _ => later _)
    · rename_i finished
      refine .stayExecuting rfl (by decide) ?_
      intro found here same
      cases here.symm.trans there
      rw [WorkerPhase.stage_ended finished] at same
      have bounded := execution.renewal.stage_bounds
      omega
  · rename_i elsewhere
    exact .stayExecuting rfl (by decide) (fun execution there => absurd there (elsewhere execution))

/-- A renewal that is answered is in its delay again, or has ended. -/
theorem renew_renewal (worker : QueuedJobWorker) (workerId : String) (ambient : Ambient)
    (execution : Execution) (renewedAt : DateTimeOffset) (factory : DbContextFactory)
    : (worker.renew workerId ambient execution renewedAt factory).2.1.ended = execution.ended
      ∧ 2 < (worker.renew workerId ambient execution renewedAt factory).2.1.renewal.stage := by
  rcases worker.renew_cases workerId ambient execution renewedAt factory with
    ⟨entries, quiet, result⟩
    | ⟨leaseExpiresAt, answer, next, authorized, added, answered, ⟨entries, refused, quiet,
        result⟩ | ⟨accepted, result⟩⟩
  · rw [result]
    exact ⟨rfl, Nat.lt_succ_of_lt (Nat.lt_succ_self 2)⟩
  · rw [result]
    exact ⟨rfl, Nat.lt_succ_of_lt (Nat.lt_succ_self 2)⟩
  · rw [result]
    exact ⟨rfl, Nat.lt_succ_self 2⟩

theorem renew_advances {ambient : Ambient}
    : Advances index pool (.renew other ambient) (pool.renew worker other ambient).2 := by
  unfold renew
  split
  · rename_i execution there
    split
    · rename_i renewedAt reading
      obtain ⟨ended, later⟩ := renew_renewal worker (workerId other) ambient execution renewedAt
        pool.factory
      have before : execution.renewal.stage = 2 := by rw [reading, LeaseRenewal.stage]
      obtain ⟨kept, passed⟩ := WorkerPhase.stage_renewed ended (before ▸ later)
      exact .enter there rfl kept (fun reached => passed (by omega))
    · rename_i notReading
      refine .stayExecuting rfl (by decide) ?_
      intro found here same
      cases here.symm.trans there
      by_cases waiting : execution.ended = none
      · rw [WorkerPhase.stage_waiting waiting] at same
        cases same
      · rw [WorkerPhase.stage_ended waiting] at same
        cases renewal : execution.renewal with
        | renewing renewedAt => exact notReading renewedAt renewal
        | delaying | ended =>
            rw [renewal] at same
            cases same
  · rename_i elsewhere
    exact .stayExecuting rfl (by decide) (fun execution there => absurd there (elsewhere execution))

theorem cancelRenewal_advances (stopping : pool.stopping = true)
    : Advances index pool (.cancelRenewal other) (pool.cancelRenewal other) := by
  unfold cancelRenewal
  split
  · rename_i execution there
    split
    · rename_i delaying
      have later : execution.renewal.stage < LeaseRenewal.ended.stage := by
        rw [delaying.1]
        decide
      obtain ⟨kept, passed⟩ :=
        @WorkerPhase.stage_renewed execution { execution with renewal := .ended } rfl later
      exact .enter there rfl kept (fun reached => passed (by omega))
    · rename_i notDelaying
      refine .stayExecuting rfl (by decide) ?_
      intro found here same
      cases here.symm.trans there
      by_cases waiting : execution.ended = none
      · rw [WorkerPhase.stage_waiting waiting] at same
        cases same
      · rw [WorkerPhase.stage_ended waiting] at same
        cases renewal : execution.renewal with
        | delaying => exact notDelaying ⟨renewal, Or.inr stopping⟩
        | renewing | ended =>
            rw [renewal] at same
            cases same
  · rename_i elsewhere
    exact .stayExecuting rfl (by decide) (fun execution there => absurd there (elsewhere execution))

theorem leave_advances : Advances index pool (.leave other) (pool.leave other).2 := by
  unfold leave
  split
  · rename_i execution there
    have bounded := (WorkerPhase.executing_iff _).mp ⟨execution, rfl⟩
    have leaves {after : WorkerPhase} (later : 5 ≤ after.stage)
        : Advances index pool (.leave other) (pool.enter other after) :=
      @Advances.enter pool index other _ pool.factory _ _ _ there rfl (by omega) (fun _ => by omega)
    split
    · exact leaves (by simp [WorkerPhase.stage])
    · exact leaves (by decide)
    · exact leaves (by decide)
    · rename_i notFinished notThrew notCancelled
      refine .stayExecuting rfl (by decide) ?_
      intro found here same
      cases here.symm.trans there
      cases ended : execution.ended with
      | none =>
          rw [WorkerPhase.stage_waiting ended] at same
          cases same
      | some how =>
          rw [WorkerPhase.stage_ended (ended ▸ Option.some_ne_none how)] at same
          cases renewal : execution.renewal with
          | ended =>
              cases how with
              | finished result => exact notFinished result renewal ended
              | threw => exact notThrew renewal ended
              | cancelled => exact notCancelled renewal ended
          | renewing | delaying =>
              rw [renewal] at same
              cases same
  · rename_i elsewhere
    exact .stayExecuting rfl (by decide) (fun execution there => absurd there (elsewhere execution))

theorem complete_advances {ambient : Ambient}
    : Advances index pool (.complete other ambient) (pool.complete worker other ambient).2 := by
  unfold complete
  split
  · rename_i job leaseExpiresAt result there
    exact .enter there rfl (by simp [WorkerPhase.stage]) (fun _ => by simp [WorkerPhase.stage])
  · rename_i elsewhere
    refine .stay rfl (by decide) ?_
    intro phase there same
    cases phase with
    | completing job leaseExpiresAt result => exact elsewhere job leaseExpiresAt result there
    | executing execution =>
        have bounded := (WorkerPhase.executing_iff _).mp ⟨execution, rfl⟩
        omega
    | claiming | polling | stopped => cases same

/-- While the host stops, no step takes a loop back, and the step that ends the stage it is at
takes it on.
-/
theorem step_advances (stopping : pool.stopping = true) {input : PoolInput}
    (goesOn : input.endsDelay index = false)
    : Advances index pool input (pool.step worker input).2 := by
  cases input with
  | advance clock | stop | request actor ambient request client => exact ⟨le_rfl, nofun⟩
  | poll other => exact poll_advances stopping
  | claim other ambient => exact claim_advances
  | renew other ambient => exact renew_advances
  | cancelRenewal other => exact cancelRenewal_advances stopping
  | cancelWork other => exact cancelWork_advances stopping
  | execute other handlers => exact execute_advances
  | leave other => exact leave_advances
  | complete other ambient => exact complete_advances
  | endDelay other =>
      refine ⟨?_, nofun⟩
      simp only [step, endDelay]
      split
      · rename_i execution there
        split
        · have apart : other ≠ index := of_decide_eq_false goesOn
          have kept := @stage_enter pool index other pool.factory _
            (.executing { execution with renewal := .renewing pool.clock }) there
          rw [if_neg apart] at kept
          exact kept.ge
        · exact le_rfl
      · exact le_rfl

theorem stopping_step (stopping : pool.stopping = true) (input : PoolInput)
    : (pool.step worker input).2.stopping = true := by
  have move := step_poolStep worker pool input
  generalize (pool.step worker input).1 = entries at move
  generalize (pool.step worker input).2 = after at move ⊢
  cases move with
  | stopping => rfl
  | _ => exact stopping

theorem phases_step_length (input : PoolInput)
    : (pool.step worker input).2.phases.length = pool.phases.length := by
  have move := step_poolStep worker pool input
  generalize (pool.step worker input).1 = entries at move
  generalize (pool.step worker input).2 = after at move ⊢
  cases move with
  | advanced | stopping | requested | idle => rfl
  | _ => exact List.length_set

theorem phases_run_length {inputs : List PoolInput}
    : ((machine worker).run pool inputs).2.phases.length = pool.phases.length := by
  induction inputs generalizing pool with
  | nil => rfl
  | cons input rest ih => exact ih.trans (phases_step_length input)

/-- In a host that stops, a loop that gets its steps for the stages it has not ended yet, in their
order and between any other steps, stops. A delay that is cancelled does not end of itself.
-/
theorem stopping_loop_stops {inputs : List PoolInput} (stopping : pool.stopping = true)
    (goesOn : ∀ input ∈ inputs, input.endsDelay index = false)
    (taken
      : (List.range' (pool.stage index) (7 - pool.stage index)).Sublist
          (inputs.filterMap (PoolInput.stageOf index)))
    (there : index < pool.phases.length)
    : ((machine worker).run pool inputs).2.phases[index]? = some .stopped := by
  have steps := @Machine.alongSteps_of_kept _ _ _ (machine worker)
    (fun pool => pool.stopping = true) (fun input => input.endsDelay index = false)
    (fun _ input before => stopping_step before input) pool inputs stopping goesOn
  have past := Machine.past_stages (fun _ _ allowed => (step_advances allowed.1 allowed.2).1)
    (fun _ _ allowed => (step_advances allowed.1 allowed.2).2) steps le_rfl taken
  have inside : index < ((machine worker).run pool inputs).2.phases.length :=
    there.trans_eq phases_run_length.symm
  have last : 7 ≤ ((machine worker).run pool inputs).2.stage index := by omega
  rw [stage, List.getElem?_eq_getElem inside, Option.elim_some] at last
  rw [List.getElem?_eq_getElem inside]
  cases final : ((machine worker).run pool inputs).2.phases[index] with
  | stopped => rfl
  | executing execution =>
      rw [final] at last
      have bounded := (WorkerPhase.executing_iff _).mp ⟨execution, rfl⟩
      omega
  | polling | claiming | completing =>
      rw [final] at last
      simp [WorkerPhase.stage] at last

-----------------------------------------------------------------------------------------
-- What is still begun
-----------------------------------------------------------------------------------------

/-- One loop moves on, and the number of loops of a kind falls with it. -/
theorem countP_enter_le (kind : WorkerPhase → Bool) {factory : DbContextFactory}
    {before after : WorkerPhase} {count : Nat} (there : pool.phases[index]? = some before)
    (less : count + (kind after).toNat ≤ (kind before).toNat)
    : count + ({ pool with factory := factory }.enter index after).phases.countP kind
      ≤ pool.phases.countP kind := by
  obtain ⟨inside, rfl⟩ := List.getElem?_eq_some_iff.mp there
  have counted : (kind pool.phases[index]).toNat ≤ pool.phases.countP kind := by
    cases holds : kind pool.phases[index] with
    | true => exact List.countP_pos_iff.mpr ⟨_, List.getElem_mem inside, holds⟩
    | false => exact Nat.zero_le _
  have number (holds : Bool) : (if holds = true then 1 else 0) = holds.toNat := by
    cases holds <;> rfl
  simp only [enter, List.countP_set inside, number]
  omega

theorem countP_isClaim_quiet {entries : List LogEntry}
    (quiet : entries.all LogEntry.isQuiet = true)
    : entries.countP LogEntry.isClaim = 0 := by
  rw [List.countP_eq_zero]
  intro entry member claim
  have silent := List.all_eq_true.mp quiet entry member
  cases entry with
  | claimed => cases silent
  | _ => cases claim

/-- While the host stops, every claim ends a call that was under way, and every execution takes
the place of a call under way or of a job that was waiting.
-/
theorem stopping_step_bounds (stopping : pool.stopping = true) (input : PoolInput)
    : (pool.step worker input).1.countP LogEntry.isClaim
          + (pool.step worker input).2.phases.countP WorkerPhase.isClaiming
        ≤ pool.phases.countP WorkerPhase.isClaiming
      ∧ (pool.executedBy input).toList.length
          + (pool.step worker input).2.phases.countP WorkerPhase.hasToExecute
        ≤ pool.phases.countP WorkerPhase.hasToExecute := by
  have move := step_poolStep worker pool input
  generalize (pool.step worker input).1 = entries at move ⊢
  generalize (pool.step worker input).2 = after at move ⊢
  cases move with
  | advanced | stopping | requested => exact ⟨by simp, by simp [executedBy]⟩
  | idle executes quiet =>
      rw [countP_isClaim_quiet quiet, executes]
      exact ⟨by simp, by simp⟩
  | @moved input entries index before after there _ _ waiting _ begins executes quiet =>
      have claimless : after.isClaiming = false := by
        cases claims : after.isClaiming with
        | false => rfl
        | true => exact absurd ((begins claims).symm.trans stopping) Bool.false_ne_true
      rw [countP_isClaim_quiet quiet, executes]
      refine ⟨countP_enter_le _ there ?_, countP_enter_le _ there ?_⟩
      · rw [claimless]
        exact Nat.zero_le _
      · rw [WorkerPhase.hasToExecute, WorkerPhase.hasToExecute, claimless]
        rcases waiting with none | same
        · rw [none]
          exact Nat.zero_le _
        · rw [same]
          cases before.isClaiming <;> simp [Bool.toNat_le]
  | @executed index handlers execution entries ended there waiting outcome quiet =>
      have runs : pool.executedBy (.execute index handlers) = some execution.job := by
        rw [executedBy, there]
        exact if_pos waiting
      rw [countP_isClaim_quiet quiet, runs]
      refine ⟨countP_enter_le _ there le_rfl, countP_enter_le _ there ?_⟩
      simp [WorkerPhase.hasToExecute, WorkerPhase.waiting, WorkerPhase.isClaiming, waiting]
  | claimMissed there _ _ _ _ quiet =>
      rw [countP_isClaim_quiet quiet]
      exact ⟨countP_enter_le _ there (Nat.zero_le _), countP_enter_le _ there (Nat.zero_le _)⟩
  | claimed there => exact ⟨countP_enter_le _ there le_rfl, countP_enter_le _ there le_rfl⟩
  | renewalMissed there _ _ _ _ _ quiet =>
      rw [countP_isClaim_quiet quiet]
      exact ⟨countP_enter_le _ there le_rfl,
        countP_enter_le _ there (Nat.zero_add _).le⟩
  | renewed there =>
      exact ⟨countP_enter_le _ there le_rfl, countP_enter_le _ there (Nat.zero_add _).le⟩
  | issued there =>
      exact ⟨@countP_enter_le pool _ _ pool.factory _ _ _ there le_rfl,
        @countP_enter_le pool _ _ pool.factory _ _ _ there (Nat.zero_le _)⟩
  | @completed _ _ job _ _ _ completion _ _ _ there _ _ _ reports =>
      have reported : entries.countP LogEntry.isClaim = 0 := by
        rcases reports with ⟨reported, -, rfl⟩ | ⟨exception, -, rfl⟩
        · rw [QueuedJobWorker.completionEntry]
          split <;> rfl
        · rfl
      rw [reported]
      exact ⟨countP_enter_le _ there le_rfl, countP_enter_le _ there (Nat.zero_le _)⟩

/-- From the moment the host stops, there are no more claims than calls under way, by induction on
what happens then.
-/
theorem stopping_run_bounds {inputs : List PoolInput} (stopping : pool.stopping = true)
    : (pool.log worker inputs).countP LogEntry.isClaim
        ≤ pool.phases.countP WorkerPhase.isClaiming
      ∧ (executions worker pool inputs).length
        ≤ pool.phases.countP WorkerPhase.hasToExecute := by
  induction inputs generalizing pool with
  | nil => exact ⟨Nat.zero_le _, Nat.zero_le _⟩
  | cons input rest ih =>
      obtain ⟨claimsNow, executesNow⟩ := @stopping_step_bounds worker pool stopping input
      obtain ⟨claimsLater, executesLater⟩ := ih (@stopping_step worker pool stopping input)
      have entries : pool.log worker (input :: rest)
          = (pool.step worker input).1 ++ (pool.step worker input).2.log worker rest := rfl
      rw [entries, List.countP_append, executions, List.length_append]
      exact ⟨by omega, by omega⟩

/-- A host that stops lets its loops finish and begins nothing: whatever comes in which order, jobs
are claimed only by the calls that were under way and executed only where a claim was under way
or made, and a loop that gets the steps it has left stops.
-/
theorem stopping_pool_finishes {inputs : List PoolInput} (stopping : pool.stopping = true)
    : (pool.log worker inputs).countP LogEntry.isClaim
        ≤ pool.phases.countP WorkerPhase.isClaiming
      ∧ (executions worker pool inputs).length
        ≤ pool.phases.countP WorkerPhase.hasToExecute
      ∧ ∀ index < pool.phases.length,
          (∀ input ∈ inputs, input.endsDelay index = false)
          → (List.range' (pool.stage index) (7 - pool.stage index)).Sublist
              (inputs.filterMap (PoolInput.stageOf index))
          → ((machine worker).run pool inputs).2.phases[index]? = some .stopped := by
  obtain ⟨claims, executes⟩ := @stopping_run_bounds worker pool inputs stopping
  exact ⟨claims, executes, fun index there goesOn taken =>
    stopping_loop_stops stopping goesOn taken there⟩

end WorkerPool

/-- The steps of a loop that is to end, from the first on. -/
def lastSteps (index : Nat) : List PoolInput :=
  [.claim index (smallAmbient 2), .execute index failingHandlers, .renew index (smallAmbient 2),
    .cancelRenewal index, .leave index, .complete index (smallAmbient 3), .poll index]

/-- The host stops while the first loop works on the email and the second one claims. -/
def stoppingProcess : WorkerPool :=
  ((WorkerPool.machine emailWorker).run (.start ⟨2, 60⟩ ⟨none, .empty⟩ (.ofTicks 0))
    (abandonedEmail ++ [.poll 1, .stop])).2

/-- The loops take turns. -/
def turns : List PoolInput :=
  ((lastSteps 0).zip (lastSteps 1)).flatMap (fun steps => [steps.1, steps.2])

/-- Both loops stop; the second one claims at most one more job. -/
theorem stopping_pool_finishes_turns
    : (stoppingProcess.log emailWorker turns).countP LogEntry.isClaim ≤ 1
      ∧ (WorkerPool.executions emailWorker stoppingProcess turns).length ≤ 2
      ∧ ((WorkerPool.machine emailWorker).run stoppingProcess turns).2.phases[0]?
        = some .stopped
      ∧ ((WorkerPool.machine emailWorker).run stoppingProcess turns).2.phases[1]?
        = some .stopped := by
  have stopping : stoppingProcess.stopping = true := by decide +kernel
  have loops : stoppingProcess.phases.length = 2 := by decide +kernel
  have underway : stoppingProcess.phases.countP WorkerPhase.isClaiming = 1 := by decide +kernel
  have toExecute : stoppingProcess.phases.countP WorkerPhase.hasToExecute = 2 := by
    decide +kernel
  have goesOn (index : Nat) : ∀ input ∈ turns, input.endsDelay index = false := by
    simp [turns, lastSteps, PoolInput.endsDelay]
  obtain ⟨claims, executes, stops⟩ :=
    @WorkerPool.stopping_pool_finishes emailWorker stoppingProcess turns stopping
  refine ⟨underway ▸ claims, toExecute ▸ executes, ?_, ?_⟩
  · exact stops 0 (by omega) (goesOn 0) (by decide +kernel)
  · exact stops 1 (by omega) (goesOn 1) (by decide +kernel)

end JobScheduler
