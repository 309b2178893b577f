import Mathlib.Data.List.Chain
import JobScheduler.Core.JobRecord

/-! The attempts a record shows, projected from its history. The projection remembers one
`Running` entry at a time, so a run that another one follows directly is left out.
-/

namespace JobScheduler

/-- The difference of two instants. -/
def DateTimeOffset.subtract (later earlier : DateTimeOffset) : TimeSpan :=
  ⟨(later.utcTicks : Int) - earlier.utcTicks⟩

structure JobAttempt where
  number : Nat
  status : JobStatus
  startedAt : DateTimeOffset
  completedAt : Option DateTimeOffset
  failedAt : Option DateTimeOffset
  failureReason : Option String
  deriving DecidableEq, Repr

namespace JobAttempt

/-- `CompletedAt ?? FailedAt`. -/
def finishedAt (attempt : JobAttempt) : Option DateTimeOffset :=
  attempt.completedAt.or attempt.failedAt

/-- `FinishedAt - StartedAt`, which is null for a run without an outcome. -/
def duration (attempt : JobAttempt) : Option TimeSpan :=
  attempt.finishedAt.map (fun finishedAt => finishedAt.subtract attempt.startedAt)

def running (number : Nat) (startedAt : DateTimeOffset) : JobAttempt :=
  ⟨number, .running, startedAt, none, none, none⟩

def completed (number : Nat) (startedAt completedAt : DateTimeOffset) : JobAttempt :=
  ⟨number, .completed, startedAt, some completedAt, none, none⟩

def failed (number : Nat) (startedAt failedAt : DateTimeOffset) (failureReason : String)
    : JobAttempt :=
  ⟨number, .failed, startedAt, none, some failedAt, some failureReason⟩

end JobAttempt

namespace JobRecord

/-- The loop body of `BuildAttempts`, over the attempts so far and `runningChange`. -/
def addChange
    : List JobAttempt × Option JobStateChange
      → JobStateChange
      → List JobAttempt × Option JobStateChange
  | (attempts, runningChange), change =>
      if change.status = .running then
        (attempts, some change)
      else
        match runningChange with
        | none => (attempts, none)
        | some run =>
            if change.status = .completed then
              (attempts
                ++ [.completed (attempts.length + 1) run.changedAt change.changedAt], none)
            else if change.status = .failed then
              (attempts
                ++ [.failed (attempts.length + 1) run.changedAt change.changedAt
                  change.reason], none)
            else
              (attempts, some run)

/-- What follows the loop: a run without an outcome is an attempt of its own. -/
def lastAttempt : List JobAttempt × Option JobStateChange → List JobAttempt
  | (attempts, none) => attempts
  | (attempts, some run) =>
      attempts ++ [.running (attempts.length + 1) run.changedAt]

def buildAttempts (job : JobRecord) : List JobAttempt :=
  lastAttempt (job.history.foldl addChange ([], none))

def attempts (job : JobRecord) : List JobAttempt := job.buildAttempts

/-- The attempts that a history adds to the first `count`, after the run given. -/
def attemptsFrom (count : Nat) (runningChange : Option JobStateChange)
    : List JobStateChange → List JobAttempt
  | [] =>
      match runningChange with
      | none => []
      | some run => [.running (count + 1) run.changedAt]
  | change :: rest =>
      if change.status = .running then
        attemptsFrom count (some change) rest
      else
        match runningChange with
        | none => attemptsFrom count none rest
        | some run =>
            if change.status = .completed then
              .completed (count + 1) run.changedAt change.changedAt
              :: attemptsFrom (count + 1) none rest
            else if change.status = .failed then
              .failed (count + 1) run.changedAt change.changedAt change.reason
              :: attemptsFrom (count + 1) none rest
            else
              attemptsFrom count (some run) rest

/-- The loop appends what the rest of the history adds, by induction on the history. -/
theorem lastAttempt_foldl (history : List JobStateChange) (attempts : List JobAttempt)
    (runningChange : Option JobStateChange)
    : lastAttempt (history.foldl addChange (attempts, runningChange))
      = attempts ++ attemptsFrom attempts.length runningChange history := by
  induction history generalizing attempts runningChange with
  | nil => cases runningChange <;> simp [lastAttempt, attemptsFrom]
  | cons change rest ih =>
      rw [List.foldl_cons]
      cases status : change.status with
      | running => simp [addChange, attemptsFrom, status, ih]
      | completed | failed | queued | scheduled =>
          cases runningChange <;> simp [addChange, attemptsFrom, status, ih]

theorem attempts_eq (job : JobRecord) : job.attempts = attemptsFrom 0 none job.history :=
  lastAttempt_foldl job.history [] none

end JobRecord

end JobScheduler
