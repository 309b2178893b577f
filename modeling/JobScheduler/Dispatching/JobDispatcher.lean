import JobScheduler.Library.KeyedTable
import JobScheduler.Lifecycle.JobLifecycleService

/-! The registries of job definitions and job handlers, and the dispatcher that runs the
handler of a job's type.
-/

namespace JobScheduler

open Library

/-- How the task of a handler ends: with a result, with an exception, or cancelled. -/
inductive HandlerOutcome
  | returned (result : JobExecutionResult)
  | threw
  | cancelled
  deriving DecidableEq, Repr

/-- `IJobHandler`; what a handler makes of a job is up to the handler. -/
structure IJobHandler where
  type : String
  executeAsync : JobRecord → HandlerOutcome

/-- `IJobHandlerRegistry.Find`. -/
abbrev IJobHandlerRegistry : Type := String → Option IJobHandler

-----------------------------------------------------------------------------------------
-- Registries
-----------------------------------------------------------------------------------------

/-- `Dictionary.Add`, which throws on a key that is there already. -/
def addItem {Item : Type} (key : Item → String) (table : KeyedTable key) (item : Item)
    : Except SchedulerException (KeyedTable key) :=
  match table.insert? item with
  | some next => .ok next
  | none =>
      .error (.argument
        ("An item with the same key has already been added. Key: " ++ key item) "")

/-- `ToDictionary` over ordinal keys adds one item after the other. -/
def toDictionary {Item : Type} (key : Item → String) (items : List Item)
    : Except SchedulerException (KeyedTable key) :=
  items.foldlM (addItem key) .empty

/-- The constructor of `JobDefinitionRegistry`; `Find` is a lookup in its dictionary. -/
def JobDefinitionRegistry.create (definitions : List IJobDefinition)
    : Except SchedulerException IJobDefinitionRegistry :=
  (toDictionary IJobDefinition.type definitions).map (fun table type => table.find? type)

/-- The constructor of `JobHandlerRegistry`. -/
def JobHandlerRegistry.create (handlers : List IJobHandler)
    : Except SchedulerException IJobHandlerRegistry :=
  (toDictionary IJobHandler.type handlers).map (fun table type => table.find? type)

/-- Adding items puts them behind the others in their order, by induction on the items. -/
theorem foldlM_addItem {Item : Type} {key : Item → String} {items : List Item}
    {table next : KeyedTable key} (added : items.foldlM (addItem key) table = .ok next)
    : next.rows = table.rows ++ items := by
  induction items generalizing table with
  | nil =>
      cases added
      exact (List.append_nil _).symm
  | cons item rest ih =>
      rw [List.foldlM_cons] at added
      cases inserted : table.insert? item with
      | none =>
          simp only [addItem, inserted] at added
          cases added
      | some middle =>
          simp only [addItem, inserted] at added
          rw [ih added, (KeyedTable.insert?_eq_some.mp inserted).2, List.append_assoc]
          rfl

/-- `Find` gives the item of the type, from among those the registry was made of. -/
theorem find?_toDictionary {Item : Type} {key : Item → String} {items : List Item}
    {registry : String → Option Item}
    (made
      : (toDictionary key items).map (fun table type => table.find? type) = .ok registry)
    (type : String)
    : registry type = items.find? (fun item => key item = type) := by
  cases built : toDictionary key items with
  | error exception =>
      rw [built] at made
      cases made
  | ok table =>
      rw [built] at made
      cases made
      have rows : table.rows = items := foldlM_addItem built
      simp only [KeyedTable.find?, rows]

-----------------------------------------------------------------------------------------
-- Dispatch
-----------------------------------------------------------------------------------------

def JobDispatcher.executeAsync (handlers : IJobHandlerRegistry) (job : JobRecord)
    : HandlerOutcome :=
  match handlers job.type with
  | none => .returned (.failure "No executor is registered for this job type.")
  | some handler => handler.executeAsync job

end JobScheduler
