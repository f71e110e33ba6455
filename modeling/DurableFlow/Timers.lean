import DurableFlow.Event
import DurableFlow.Publisher
import DurableFlow.Store

/-! # Timers

A flow that waits for a point in time has a timer that delivers a wake-up. A flow has at most one
timer, and setting it again replaces it. Timers follow the records that are published, and they are
set before the records go on, so that a transport that fails leaves no flow without its timer. They
are lost with the process and can be set again from the store.
-/

namespace DurableFlow

structure Timer where
  due : Timestamp
  /-- How many timers were set before it. -/
  serial : Nat
  deriving DecidableEq, Repr

structure Timers where
  armed : SortedMap FlowId Timer := {}
  /-- How many timers were ever set. -/
  count : Nat := 0

namespace Timers

def due? (timers : Timers) (id : FlowId) : Option Timestamp :=
  (timers.armed.get? id).map fun timer => timer.due

def size (timers : Timers) : Nat := timers.armed.size

def schedule (timers : Timers) (id : FlowId) (due : Timestamp) : Timers :=
  ⟨timers.armed.insert id ⟨due, timers.count⟩, timers.count + 1⟩

def cancel (timers : Timers) (id : FlowId) : Timers :=
  { timers with armed := timers.armed.erase id }

theorem due?_schedule (timers : Timers) (id other : FlowId) (due : Timestamp) :
    (timers.schedule id due).due? other = if other = id then some due else timers.due? other := by
  simp only [due?, schedule, SortedMap.get?_insert, Std.LawfulEqOrd.compare_eq_iff_eq]
  split <;> rfl

theorem due?_cancel (timers : Timers) (id other : FlowId) :
    (timers.cancel id).due? other = if other = id then none else timers.due? other := by
  simp only [due?, cancel, SortedMap.get?_erase, Std.LawfulEqOrd.compare_eq_iff_eq]
  split <;> rfl

/-- The wake-ups that are due, in the order in which their timers were set, and the timers that
remain. -/
def fire (timers : Timers) (now : Timestamp) : List Event × Timers :=
  let due := timers.armed.filter fun _ timer => timer.due ≤ now
  let inTurn := due.entries.mergeSort fun a b => a.2.serial ≤ b.2.serial
  (inTurn.map fun (id, _) => ⟨id, .wakeup⟩,
    { timers with armed := timers.armed.filter fun _ timer => now < timer.due })

/-- The wake-up that a record asks for. -/
def alarm? : Record → Option (FlowId × Timestamp)
  | .scheduleWakeup id due => some (id, due)
  | _ => none

/-- The flow that a record says is over. -/
def ended? : Record → Option FlowId
  | .flowStatus id status _ => if status.isTerminal then some id else none
  | _ => none

/-- Set the timers that records ask for, then drop those of flows that are over. -/
def observe (timers : Timers) (records : List Record) : Timers :=
  let set := (records.filterMap alarm?).foldl (fun timers (id, due) => timers.schedule id due) timers
  (records.filterMap ended?).foldl cancel set

/-- A publisher that lets timers follow the records it passes on. -/
def publisher {π : Type} (inner : Publisher π) : Publisher (Timers × π) where
  publish records := fun (timers, state) =>
    let (result, state) := inner.publish records state
    (result, timers.observe records, state)

/-- The stored flows that wait for a point in time. -/
def waiting (store : Store) : List (FlowId × Timestamp) :=
  store.entries.filterMap fun (id, cp) => cp.waitingFor.alarm?.map fun due => (id, due)

/-- Set the timers of all stored flows that wait for a point in time. -/
def recover (timers : Timers) (store : Store) : Timers :=
  (waiting store).foldl (fun timers (id, due) => timers.schedule id due) timers

end Timers

end DurableFlow
