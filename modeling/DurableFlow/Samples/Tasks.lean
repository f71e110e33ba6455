import DurableFlow.Scheduler.Run

/-! # Tasks for trying out a scheduler

A task notes its start and its end. In between it may wait for a gate of its name to be opened, and
it may crash.
-/

namespace DurableFlow.Samples

structure Task where
  name : String
  gated : Bool
  crashes : Bool
  started : Bool
  deriving DecidableEq, Repr

/-- What tasks see and change. -/
structure Desk where
  log : List String
  opened : List String
  done : List String

namespace Desk

def note (desk : Desk) (line : String) : Desk := { desk with log := desk.log ++ [line] }

end Desk

/-- Let a task go on as far as it can. -/
def Task.poll (task : Task) (desk : Desk) : Progress Task × Desk :=
  let desk := if task.started then desk else desk.note ("start " ++ task.name)
  if task.gated && !desk.opened.contains task.name then
    (.blocked { task with started := true }, desk)
  else if task.crashes then (.crashed, desk)
  else
    let desk := desk.note ("end " ++ task.name)
    (.done, { desk with done := task.name :: desk.done })

/-- A scheduler of tasks and what is known about them. -/
structure Board where
  scheduler : Scheduler Task
  desk : Desk
  /-- The names of the accepted tasks. -/
  accepted : List String
  shutdowns : Nat

namespace Board

def new (poolSize : Nat) : Board := ⟨.new poolSize, ⟨[], [], []⟩, [], 0⟩

def onScheduler (board : Board) (change : Scheduler Task → Scheduler Task) : Board :=
  { board with scheduler := change board.scheduler }

def submit (board : Board) (id : FlowId) (task : Task) : Except SchedulerError Board := do
  let scheduler ← board.scheduler.submit id task
  return { board with scheduler, accepted := board.accepted ++ [task.name] }

/-- Open the gate of a task, which may not be there yet. -/
def release (board : Board) (name : String) : Board :=
  let blocked := board.scheduler.lanes.filter fun _ lane =>
    (lane.phase.job?.map fun task => task.name) = some name
  { board with
    scheduler := blocked.keys.foldl Scheduler.wake board.scheduler
    desk := { board.desk with opened := name :: board.desk.opened } }

def shutdown (board : Board) : Board :=
  { board.onScheduler Scheduler.shutdown with shutdowns := board.shutdowns + 1 }

/-- Let everything go on until nothing can; the log is that of this run. -/
def settle (board : Board) : Board :=
  let (scheduler, desk) := board.scheduler.settle Task.poll { board.desk with log := [] }
  { board with scheduler, desk }

/-- The shutdowns that are over. -/
def drained (board : Board) : Nat := if board.scheduler.isDrained then board.shutdowns else 0

/-- What has become of a task. -/
def stateOf (board : Board) (name : String) : String :=
  if board.desk.done.contains name then "ok " ++ name
  else if (board.scheduler.jobs.map fun task => task.name).contains name then "pending"
  else "Cancelled: " ++ SchedulerError.cancelled.message

end Board

end DurableFlow.Samples
