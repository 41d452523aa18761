import ModuleCatalog.Log.Logged

/-!
# Pools of workers

Workers complete tasks in an order that nobody controls. Results are handed back by position, so the
first failure that is seen is the one of the earliest task, whichever task failed first.
-/

namespace ModuleCatalog.Discovery.Pool

variable {α : Type}

/-- The completed tasks with their positions, in the order of completion. -/
abbrev Completed (α : Type) := List (Nat × Logged α)

/-- The tasks of a schedule, which lists positions in the order of completion. -/
def complete (schedule : List Nat) (tasks : List (Logged α)) : Completed α :=
  schedule.filterMap fun position => (tasks[position]?).map fun task => (position, task)

/-- The outcome at a position. A task that has not been completed is waited for. -/
def outcomeAt (completed : Completed α) (position : Nat) (task : Logged α) : Except Failure α :=
  ((Assoc.get? position completed).getD task).outcome

/-- Wait for the tasks from a position on, one after the other. -/
def collect (completed : Completed α) : Nat → List (Logged α) → Except Failure (List α)
  | _, [] => .ok []
  | position, task :: tasks => do
    let result ← outcomeAt completed position task
    let results ← collect completed (position + 1) tasks
    .ok (result :: results)

/-- Run tasks in a pool. -/
def run (schedule : List Nat) (tasks : List (Logged α)) : Logged (List α) :=
  let completed := complete schedule tasks
  ⟨completed.flatMap fun (_, task) => task.records, collect completed 0 tasks⟩

end ModuleCatalog.Discovery.Pool
