import DurableFlow.FlowId
import DurableFlow.SortedMap

/-! # One job at a time per flow

Every flow with work has a lane, whose jobs run one after another in the order in which they were
accepted. A lane asks for a permit before each job and gives it back after the job. Permits are
handed out in the order in which they are asked for. The pool shrinks by asking for permits that
are then withdrawn, and waits for them like a lane.

Every operation here is one atomic step, so the operations on different lanes may come in any
order. `Scheduler.Run` has the order in which a single worker takes them.
-/

namespace DurableFlow

inductive SchedulerError where
  | shuttingDown
  | cancelled
  deriving DecidableEq, Repr

def SchedulerError.message : SchedulerError → String
  | .shuttingDown => "scheduler is shutting down"
  | .cancelled => "task was cancelled before it completed"

/-- Where a lane is in its work. -/
inductive Phase (J : Type) where
  | idle
  /-- Found no job; about to look once more and to leave if there still is none. -/
  | closing
  | wanting (job : J)
  | waiting (job : J)
  | running (job : J)
  /-- Its job crashed. The next job of the flow opens a new lane. -/
  | dead
  deriving DecidableEq, Repr

namespace Phase

variable {J : Type}

/-- The job that a lane has taken from its queue. -/
def job? : Phase J → Option J
  | .wanting job => some job
  | .waiting job => some job
  | .running job => some job
  | _ => none

def isRunning : Phase J → Bool
  | .running _ => true
  | _ => false

/-- Whether a lane is gone for good. -/
def isDead : Phase J → Bool
  | .dead => true
  | _ => false

end Phase

structure Lane (J : Type) where
  phase : Phase J
  /-- Accepted jobs that were not taken yet, the oldest first. -/
  queue : List J
  deriving DecidableEq, Repr

/-- What asks for permits. -/
inductive Claimant where
  /-- The lane of a flow, for one permit. -/
  | lane (id : FlowId)
  /-- A shrinking pool, for permits to be withdrawn. -/
  | withdrawal
  deriving DecidableEq, Repr

def Claimant.isWithdrawal : Claimant → Bool
  | .lane _ => false
  | .withdrawal => true

/-- A claim to permits that is not satisfied yet. -/
structure Claim where
  claimant : Claimant
  /-- The number of permits it still lacks. -/
  missing : Nat
  deriving DecidableEq, Repr

/-- Work for a worker. -/
inductive Turn where
  | lane (id : FlowId)
  /-- A number of permits is to be asked for and withdrawn. -/
  | withdraw (permits : Nat)
  deriving DecidableEq, Repr

def Turn.isWithdrawal : Turn → Bool
  | .lane _ => false
  | .withdraw _ => true

/-- Lanes that share a pool of permits. -/
structure Scheduler (J : Type) where
  poolSize : Nat
  /-- Permits that nobody has. -/
  free : Nat
  /-- Unsatisfied claims in the order in which they were made. -/
  claims : List Claim
  lanes : SortedMap FlowId (Lane J)
  /-- What can go on, in the order in which it became able to. -/
  ready : List Turn
  accepting : Bool

namespace Scheduler

variable {J : Type}

def new (poolSize : Nat) : Scheduler J where
  poolSize := max poolSize 1
  free := max poolSize 1
  claims := []
  lanes := {}
  ready := []
  accepting := true

def phase? (s : Scheduler J) (id : FlowId) : Option (Phase J) :=
  (s.lanes.get? id).map fun lane => lane.phase

def putLane (s : Scheduler J) (id : FlowId) (lane : Lane J) : Scheduler J :=
  { s with lanes := s.lanes.insert id lane }

def submit (s : Scheduler J) (id : FlowId) (job : J) : Except SchedulerError (Scheduler J) :=
  let fresh := { s.putLane id ⟨.idle, [job]⟩ with ready := s.ready ++ [.lane id] }
  if !s.accepting then .error .shuttingDown
  else match s.lanes.get? id with
    | none => .ok fresh
    | some lane =>
      if lane.phase.isDead then .ok fresh
      else .ok (s.putLane id { lane with queue := lane.queue ++ [job] })

/-- Let a lane look for a job. One that has looked twice in vain is removed. -/
def fetch (s : Scheduler J) (id : FlowId) : Scheduler J :=
  match s.lanes.get? id with
  | some ⟨.idle, job :: queue⟩ => s.putLane id ⟨.wanting job, queue⟩
  | some ⟨.idle, []⟩ => s.putLane id ⟨.closing, []⟩
  | some ⟨.closing, job :: queue⟩ => s.putLane id ⟨.wanting job, queue⟩
  | some ⟨.closing, []⟩ => { s with lanes := s.lanes.erase id }
  | _ => s

/-- Claim permits. What is free counts towards the claim even if it is not enough. -/
def claim (s : Scheduler J) (claimant : Claimant) (permits : Nat) : Scheduler J :=
  { s with free := 0, claims := s.claims ++ [⟨claimant, permits - s.free⟩] }

/-- Let a lane ask for a permit. -/
def acquire (s : Scheduler J) (id : FlowId) : Scheduler J :=
  match s.lanes.get? id with
  | some ⟨.wanting job, queue⟩ =>
    if 1 ≤ s.free then { s.putLane id ⟨.running job, queue⟩ with free := s.free - 1 }
    else (s.putLane id ⟨.waiting job, queue⟩).claim (.lane id) 1
  | _ => s

/-- Take free permits out of the pool, or claim them. -/
def withdraw (s : Scheduler J) (permits : Nat) : Scheduler J :=
  if permits ≤ s.free then { s with free := s.free - permits }
  else s.claim .withdrawal permits

/-- Let a lane go on that was waiting for a permit. -/
def unblock (s : Scheduler J) : Claimant → Scheduler J
  | .withdrawal => s
  | .lane id =>
    match s.lanes.get? id with
    | some ⟨.waiting job, queue⟩ =>
      { s.putLane id ⟨.running job, queue⟩ with ready := s.ready ++ [.lane id] }
    | _ => s

/-- Hand out permits to the claims in their order: the permits that remain, the claimants that are
satisfied, and the claims that are not. -/
def serve (permits : Nat) : List Claim → Nat × List Claimant × List Claim
  | [] => (permits, [], [])
  | claim :: rest =>
    if claim.missing ≤ permits then
      let (left, served, unserved) := serve (permits - claim.missing) rest
      (left, claim.claimant :: served, unserved)
    else (0, [], { claim with missing := claim.missing - permits } :: rest)

def grant (s : Scheduler J) (permits : Nat) : Scheduler J :=
  let (left, served, claims) := serve permits s.claims
  served.foldl unblock { s with free := s.free + left, claims }

/-- Let a lane give its permit back because its job is done. -/
def finish (s : Scheduler J) (id : FlowId) : Scheduler J :=
  match s.lanes.get? id with
  | some ⟨.running _, queue⟩ => (s.putLane id ⟨.idle, queue⟩).grant 1
  | _ => s

/-- Let a lane keep its permit while its job cannot go on. -/
def block (s : Scheduler J) (id : FlowId) (job : J) : Scheduler J :=
  match s.lanes.get? id with
  | some ⟨.running _, queue⟩ => s.putLane id ⟨.running job, queue⟩
  | _ => s

/-- Let a lane give its permit back because its job has crashed. Its other jobs are lost. -/
def crash (s : Scheduler J) (id : FlowId) : Scheduler J :=
  match s.lanes.get? id with
  | some ⟨.running _, _⟩ => (s.putLane id ⟨.dead, []⟩).grant 1
  | _ => s

/-- Let a lane go on whose job could not. -/
def wake (s : Scheduler J) (id : FlowId) : Scheduler J :=
  match s.lanes.get? id with
  | some ⟨.running _, _⟩ =>
    if .lane id ∈ s.ready then s else { s with ready := s.ready ++ [.lane id] }
  | _ => s

/-- The largest number of permits that is withdrawn at once. -/
def maxWithdrawal : Nat := Nat.pow 2 32 - 1

/-- Change the size of the pool. New permits are there at once, while permits that are to go are
withdrawn as they become free. -/
def resize (s : Scheduler J) (size : Nat) : Scheduler J :=
  let size := max size 1
  if size = s.poolSize then s
  else if s.poolSize < size then { s.grant (size - s.poolSize) with poolSize := size }
  else
    { s with
      poolSize := size
      ready := s.ready ++ [.withdraw (min (s.poolSize - size) maxWithdrawal)] }

def shutdown (s : Scheduler J) : Scheduler J := { s with accepting := false }

/-- Whether everything that was accepted before a shutdown is done. -/
def isDrained (s : Scheduler J) : Bool :=
  !s.accepting && s.lanes.entries.all fun (_, lane) => lane.phase.isDead

/-- Accept no more jobs and drop all lanes with what is left of their jobs. -/
def halt (s : Scheduler J) : Scheduler J :=
  let held := s.lanes.entries.countP fun (_, lane) => lane.phase.isRunning
  { s with
    accepting := false
    lanes := {}
    claims := s.claims.filter (·.claimant.isWithdrawal)
    ready := s.ready.filter Turn.isWithdrawal }.grant held

/-- The jobs that were accepted and are neither done nor lost. -/
def jobs (s : Scheduler J) : List J :=
  s.lanes.entries.flatMap fun (_, lane) => lane.phase.job?.toList ++ lane.queue

end Scheduler

end DurableFlow
