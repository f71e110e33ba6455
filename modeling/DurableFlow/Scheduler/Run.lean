import DurableFlow.Scheduler

/-! # A single worker

A worker lets whatever is ready go on, one after another, in the order in which it became ready. A
lane goes on until it waits for a permit, its job cannot go on, its job crashes, it has no more
jobs, or it has taken so many permits in one turn that it rests. When nothing else is ready, which
is the end of a round, the lanes that rest go on, the last one first. Jobs see and change a world of
type `ω`.
-/

namespace DurableFlow

/-- How far a job has come. -/
inductive Progress (J : Type) where
  | done
  /-- It cannot go on before something else happens; what is left of it. -/
  | blocked (rest : J)
  | crashed
  deriving DecidableEq, Repr

namespace Scheduler

variable {J ω : Type}

/-- The number of permits a lane takes in one turn before it rests. -/
def turnLimit : Nat := 128

/-- Let a lane go on as far as it can, in at most `fuel` steps and with at most `left` permits. The
result says whether it rests. -/
def runLane (poll : J → ω → Progress J × ω) (id : FlowId) :
    Nat → Nat → Scheduler J → ω → Bool × Scheduler J × ω
  | 0, _, s, world => (false, s, world)
  | fuel + 1, left, s, world =>
    match s.phase? id with
    | some .idle => runLane poll id fuel left (s.fetch id) world
    | some .closing => runLane poll id fuel left (s.fetch id) world
    | some (.wanting _) =>
      match left with
      | 0 => (true, s, world)
      | left + 1 => runLane poll id fuel left (s.acquire id) world
    | some (.running job) =>
      match poll job world with
      | (.done, world) => runLane poll id fuel left (s.finish id) world
      | (.blocked rest, world) => (false, s.block id rest, world)
      | (.crashed, world) => (false, s.crash id, world)
    | _ => (false, s, world)

/-- The number of steps a lane can take without new jobs: three for every job, two to leave. -/
def laneSteps (s : Scheduler J) (id : FlowId) : Nat :=
  match s.lanes.get? id with
  | some lane => 3 * (lane.queue.length + 1) + 2
  | none => 0

/-- The number of permits a lane can take in a turn that begins now. One that it already has
counts. -/
def turnPermits (s : Scheduler J) (id : FlowId) : Nat :=
  match s.phase? id with
  | some (.running _) => turnLimit - 1
  | _ => turnLimit

/-- Let something that is ready go on. The result says whether it rests. -/
def runTurn (poll : J → ω → Progress J × ω) (s : Scheduler J) (world : ω) :
    Turn → Bool × Scheduler J × ω
  | .lane id => runLane poll id (s.laneSteps id) (s.turnPermits id) s world
  | .withdraw permits => (false, s.withdraw permits, world)

/-- Let everything that is or becomes ready go on, for at most `fuel` turns. What rests is ready
after that. -/
def runTurns (poll : J → ω → Progress J × ω) :
    Nat → List Turn → Scheduler J → ω → Scheduler J × ω
  | 0, resting, s, world => ({ s with ready := s.ready ++ resting }, world)
  | fuel + 1, resting, s, world =>
    match s.ready with
    | [] => ({ s with ready := resting }, world)
    | turn :: ready =>
      let (rests, s, world) := runTurn poll { s with ready } world turn
      runTurns poll fuel (if rests then turn :: resting else resting) s world

/-- The number of turns in a round: one for everything that is ready now, and one for every claim to
a permit, present or future. -/
def turns (s : Scheduler J) : Nat := s.ready.length + s.claims.length + s.jobs.length

/-- Let everything go on until nothing can that does not rest. -/
def runRound (poll : J → ω → Progress J × ω) (s : Scheduler J) (world : ω) : Scheduler J × ω :=
  runTurns poll s.turns [] s world

/-- Let everything go on for at most `fuel` rounds. -/
def runRounds (poll : J → ω → Progress J × ω) : Nat → Scheduler J → ω → Scheduler J × ω
  | 0, s, world => (s, world)
  | fuel + 1, s, world =>
    let (s, world) := s.runRound poll world
    if s.ready.isEmpty then (s, world) else runRounds poll fuel s world

/-- Let everything go on until nothing can. Before each round but the first, jobs have been done. -/
def settle (poll : J → ω → Progress J × ω) (s : Scheduler J) (world : ω) : Scheduler J × ω :=
  runRounds poll (s.jobs.length + 1) s world

end Scheduler

end DurableFlow
