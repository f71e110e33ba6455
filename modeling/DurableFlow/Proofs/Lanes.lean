import DurableFlow.Proofs.Maps
import DurableFlow.Scheduler

/-! # Lanes

Calls, lanes and jobs take turns in any order. `Permits` says how they share the pool, and `Effect` what a
move does then. Whatever it does, every lane takes at most one step, `LaneStep`.
-/

namespace DurableFlow.Scheduler

variable {J : Type} {s : Scheduler J}

/-- Something that happens to a scheduler. -/
inductive Move (J : Type) where
  | submit (id : FlowId) (job : J)
  /-- A lane looks for a job, or asks for a permit. -/
  | advance (id : FlowId)
  /-- The running job of a flow ends. -/
  | finish (id : FlowId)
  | shutdown

/-- Let a lane take its next step. -/
def advance (s : Scheduler J) (id : FlowId) : Scheduler J :=
  match s.phase? id with
  | some (.wanting _) => s.acquire id
  | _ => s.fetch id

def move (s : Scheduler J) : Move J → Scheduler J
  | .submit id job =>
    match s.submit id job with
    | .ok s => s
    | .error _ => s
  | .advance id => s.advance id
  | .finish id => s.finish id
  | .shutdown => s.shutdown

/-- The jobs of a flow that a move adds to the accepted ones. -/
def accepted (s : Scheduler J) (id : FlowId) : Move J → List J
  | .submit other job =>
    match s.submit other job with
    | .ok _ => if other = id then [job] else []
    | .error _ => []
  | _ => []

/-- The job of a lane that runs. -/
def running? : Option (Lane J) → Option J
  | some ⟨.running job, _⟩ => some job
  | _ => none

/-- The jobs of a lane that have not been started, the oldest first. -/
def unstarted : Option (Lane J) → List J
  | some ⟨.wanting job, queue⟩ => job :: queue
  | some ⟨.waiting job, queue⟩ => job :: queue
  | some ⟨_, queue⟩ => queue
  | none => []

def isWaiting : Option (Lane J) → Bool
  | some ⟨.waiting _, _⟩ => true
  | _ => false

def isDead : Option (Lane J) → Bool
  | some ⟨.dead, _⟩ => true
  | _ => false

/-- What can happen to the lane of a flow in a move, with the jobs that are accepted. -/
inductive LaneStep : Option (Lane J) → List J → Option (Lane J) → Prop where
  | stays (lane : Option (Lane J)) : LaneStep lane [] lane
  | opens (job : J) : LaneStep none [job] (some ⟨.idle, [job]⟩)
  | accepts (phase : Phase J) (queue : List J) (job : J) :
      LaneStep (some ⟨phase, queue⟩) [job] (some ⟨phase, queue ++ [job]⟩)
  | looks : LaneStep (some ⟨.idle, []⟩) [] (some ⟨.closing, []⟩)
  /-- A lane is removed when it has looked a second time and there is no job. -/
  | leaves : LaneStep (some ⟨.closing, []⟩) [] none
  | takes {phase : Phase J} (looking : phase = .idle ∨ phase = .closing) (job : J) (queue : List J) :
      LaneStep (some ⟨phase, job :: queue⟩) [] (some ⟨.wanting job, queue⟩)
  | waits (job : J) (queue : List J) :
      LaneStep (some ⟨.wanting job, queue⟩) [] (some ⟨.waiting job, queue⟩)
  | starts {phase : Phase J} {job : J} (asking : phase = .wanting job ∨ phase = .waiting job)
      (queue : List J) : LaneStep (some ⟨phase, queue⟩) [] (some ⟨.running job, queue⟩)
  | ends (job : J) (queue : List J) :
      LaneStep (some ⟨.running job, queue⟩) [] (some ⟨.idle, queue⟩)

namespace LaneStep

variable {before after : Option (Lane J)} {jobs : List J}

/-- The jobs that end in a step of a lane. -/
def ended (before after : Option (Lane J)) : List J :=
  if (running? after).isNone then (running? before).toList else []

/-- The jobs that start in a step of a lane. -/
def started (before after : Option (Lane J)) : List J :=
  if (running? before).isNone then (running? after).toList else []

theorem unstarted_eq (step : LaneStep before jobs after) :
    unstarted before ++ jobs = started before after ++ unstarted after := by
  cases step with
  | stays => cases running? before <;> simp [started]
  | opens | looks | leaves => rfl
  | waits | ends => simp [started, unstarted, running?]
  | accepts phase queue job => cases phase <;> rfl
  | takes looking => rcases looking with rfl | rfl <;> simp [started, unstarted, running?]
  | starts asking => rcases asking with rfl | rfl <;> simp [started, unstarted, running?]

theorem running_eq (step : LaneStep before jobs after) :
    (running? before).toList ++ started before after =
      ended before after ++ (running? after).toList := by
  cases step with
  | stays => cases h : running? before <;> simp [started, ended, h]
  | opens | looks | leaves | waits | ends => rfl
  | accepts phase queue job => cases phase <;> rfl
  | takes looking => rcases looking with rfl | rfl <;> rfl
  | starts asking => rcases asking with rfl | rfl <;> rfl

theorem of_wanting {job : J} {queue : List J} (step : LaneStep (some ⟨.wanting job, queue⟩) jobs after) :
    (∃ queue, after = some ⟨.wanting job, queue⟩) ∨ isWaiting after ∨ (running? after).isSome := by
  cases step with
  | stays | accepts => exact .inl ⟨_, rfl⟩
  | waits => exact .inr (.inl rfl)
  | starts => exact .inr (.inr rfl)
  | takes looking => simp at looking

theorem of_looking {phase : Phase J} {job : J} {queue : List J} (looking : phase = .idle ∨ phase = .closing)
    (step : LaneStep (some ⟨phase, job :: queue⟩) jobs after) :
    (∃ queue, after = some ⟨phase, job :: queue⟩) ∨ ∃ queue, after = some ⟨.wanting job, queue⟩ := by
  cases step with
  | stays | accepts => exact .inl ⟨_, rfl⟩
  | takes => exact .inr ⟨_, rfl⟩
  | waits | ends => simp at looking
  | starts asking => rcases asking with rfl | rfl <;> simp at looking

end LaneStep

/-- The number of permits that running jobs have. -/
def slots (lanes : SortedMap FlowId (Lane J)) : Nat :=
  lanes.entries.countP fun (_, lane) => lane.phase.isRunning

/-- The number of permits that a lane has. -/
def held (lane : Option (Lane J)) : Nat := if (running? lane).isSome then 1 else 0

/-- The flows whose lanes have claims to permits, in the order of the claims. -/
def claimants (s : Scheduler J) : List FlowId :=
  s.claims.filterMap fun claim =>
    match claim.claimant with
    | .lane id => some id
    | .withdrawal => none

/-- How permits are shared when no pool shrinks and no job has crashed. -/
structure Permits (s : Scheduler J) : Prop where
  total : s.free + slots s.lanes = s.poolSize
  claims : s.claims = s.claimants.map fun id => ⟨.lane id, 1⟩
  nodup : s.claimants.Nodup
  waiting : ∀ id, id ∈ s.claimants ↔ isWaiting (s.lanes.get? id)
  scarce : s.claimants ≠ [] → s.free = 0
  alive : ∀ id, isDead (s.lanes.get? id) = false

theorem get?_putLane (s : Scheduler J) (id other : FlowId) (lane : Lane J) :
    (s.putLane id lane).lanes.get? other = if other = id then some lane else s.lanes.get? other := by
  by_cases here : other = id
  · rw [here, if_pos rfl]
    exact SortedMap.get?_insert_self _ _ _
  · rw [if_neg here]
    exact SortedMap.get?_insert_of_ne _ _ here

/-- What a move does. -/
inductive Effect (s : Scheduler J) : Move J → Scheduler J → Prop where
  | refused (closed : s.accepting = false) (id : FlowId) (job : J) : Effect s (.submit id job) s
  | opened (accepting : s.accepting = true) {id : FlowId} (missing : s.lanes.get? id = none) (job : J)
      (ready : List Turn) : Effect s (.submit id job) { s.putLane id ⟨.idle, [job]⟩ with ready }
  | queued (accepting : s.accepting = true) {id : FlowId} {phase : Phase J} {queue : List J}
      (found : s.lanes.get? id = some ⟨phase, queue⟩) (job : J) :
      Effect s (.submit id job) (s.putLane id ⟨phase, queue ++ [job]⟩)
  | rested {id : FlowId} (busy : s.lanes.get? id = none ∨ isWaiting (s.lanes.get? id) ∨
      (running? (s.lanes.get? id)).isSome) : Effect s (.advance id) s
  | looked {id : FlowId} (found : s.lanes.get? id = some ⟨.idle, []⟩) :
      Effect s (.advance id) (s.putLane id ⟨.closing, []⟩)
  | left {id : FlowId} (found : s.lanes.get? id = some ⟨.closing, []⟩) :
      Effect s (.advance id) { s with lanes := s.lanes.erase id }
  | took {id : FlowId} {phase : Phase J} {job : J} {queue : List J}
      (found : s.lanes.get? id = some ⟨phase, job :: queue⟩)
      (looking : phase = .idle ∨ phase = .closing) :
      Effect s (.advance id) (s.putLane id ⟨.wanting job, queue⟩)
  | started {id : FlowId} {job : J} {queue : List J}
      (found : s.lanes.get? id = some ⟨.wanting job, queue⟩) (free : 1 ≤ s.free) :
      Effect s (.advance id) { s.putLane id ⟨.running job, queue⟩ with free := s.free - 1 }
  | claimed {id : FlowId} {job : J} {queue : List J}
      (found : s.lanes.get? id = some ⟨.wanting job, queue⟩) (free : s.free = 0) :
      Effect s (.advance id)
        { s.putLane id ⟨.waiting job, queue⟩ with claims := s.claims ++ [⟨.lane id, 1⟩] }
  | missed {id : FlowId} (idle : running? (s.lanes.get? id) = none) : Effect s (.finish id) s
  | ended {id : FlowId} {job : J} {queue : List J}
      (found : s.lanes.get? id = some ⟨.running job, queue⟩) (unclaimed : s.claims = []) :
      Effect s (.finish id) { s.putLane id ⟨.idle, queue⟩ with free := s.free + 1 }
  /-- The permit of a job that has ended goes to the lane that has waited longest. -/
  | passed {id : FlowId} {job : J} {queue : List J}
      (found : s.lanes.get? id = some ⟨.running job, queue⟩) {next : FlowId} {others : List FlowId}
      (order : s.claimants = next :: others) {nextJob : J} {nextQueue : List J}
      (waiting : s.lanes.get? next = some ⟨.waiting nextJob, nextQueue⟩) (ready : List Turn) :
      Effect s (.finish id) { (s.putLane id ⟨.idle, queue⟩).putLane next ⟨.running nextJob, nextQueue⟩
        with claims := others.map fun id => ⟨.lane id, 1⟩, ready }
  | closed : Effect s .shutdown { s with accepting := false }

namespace Effect

variable {move : Move J} {after : Scheduler J}

theorem poolSize (effect : Effect s move after) : after.poolSize = s.poolSize := by
  cases effect <;> rfl

theorem closed_of_closed (effect : Effect s move after) (closed : s.accepting = false) :
    after.accepting = false := by
  cases effect <;> first | assumption | rfl

end Effect

theorem serve_zero (ids : List FlowId) :
    serve 0 (ids.map fun id => ⟨.lane id, 1⟩) = (0, [], ids.map fun id => ⟨.lane id, 1⟩) := by
  cases ids <;> rfl

theorem phase?_eq (s : Scheduler J) (id : FlowId) : s.phase? id = (s.lanes.get? id).map (·.phase) := rfl

theorem effect_submit (permits : s.Permits) (id : FlowId) (job : J) :
    Effect s (.submit id job) (s.move (.submit id job)) := by
  cases accepting : s.accepting with
  | false =>
      have refused : s.submit id job = .error .shuttingDown := by simp [submit, accepting]
      simp only [move, refused]
      exact .refused accepting id job
  | true =>
      cases found : s.lanes.get? id with
      | none =>
          have opened : s.submit id job =
              .ok { s.putLane id ⟨.idle, [job]⟩ with ready := s.ready ++ [.lane id] } := by
            simp [submit, accepting, found]
          simp only [move, opened]
          exact .opened accepting found job _
      | some lane =>
          have alive : lane.phase.isDead = false := by
            have alive := permits.alive id
            rw [found] at alive
            rcases lane with ⟨phase, queue⟩
            cases phase <;> first | rfl | cases alive
          have queued : s.submit id job = .ok (s.putLane id { lane with queue := lane.queue ++ [job] }) := by
            simp [submit, accepting, found, alive]
          simp only [move, queued]
          exact .queued accepting found job

theorem effect_advance (permits : s.Permits) (id : FlowId) :
    Effect s (.advance id) (s.move (.advance id)) := by
  simp only [move, advance, phase?_eq]
  cases found : s.lanes.get? id with
  | none =>
      simp only [Option.map_none, fetch, found]
      exact .rested (.inl found)
  | some lane =>
      rcases lane with ⟨phase, queue⟩
      cases phase with
      | idle =>
          cases queue with
          | nil => simpa only [Option.map_some, fetch, found] using Effect.looked found
          | cons job queue => simpa only [Option.map_some, fetch, found] using Effect.took found (.inl rfl)
      | closing =>
          cases queue with
          | nil => simpa only [Option.map_some, fetch, found] using Effect.left found
          | cons job queue => simpa only [Option.map_some, fetch, found] using Effect.took found (.inr rfl)
      | wanting job =>
          simp only [Option.map_some, acquire, found]
          split
          next free => exact .started found free
          next free =>
            have none : s.free = 0 := by omega
            have claimed : (s.putLane id ⟨.waiting job, queue⟩).claim (.lane id) 1 =
                { s.putLane id ⟨.waiting job, queue⟩ with claims := s.claims ++ [⟨.lane id, 1⟩] } := by
              simp [claim, putLane, none]
            rw [claimed]
            exact .claimed found none
      | waiting job =>
          simp only [Option.map_some, fetch, found]
          exact .rested (.inr (.inl (by rw [found]; rfl)))
      | running job =>
          simp only [Option.map_some, fetch, found]
          exact .rested (.inr (.inr (by rw [found]; rfl)))
      | dead =>
          have alive := permits.alive id
          rw [found] at alive
          cases alive

theorem effect_finish (permits : s.Permits) (id : FlowId) :
    Effect s (.finish id) (s.move (.finish id)) := by
  simp only [move, finish]
  split
  next job queue found =>
    have claims := permits.claims
    cases order : s.claimants with
    | nil =>
        rw [order, List.map_nil] at claims
        have ended : (s.putLane id ⟨.idle, queue⟩).grant 1 =
            { s.putLane id ⟨.idle, queue⟩ with free := s.free + 1 } := by
          simp [grant, putLane, claims, serve]
        rw [ended]
        exact .ended found claims
    | cons next others =>
        rw [order, List.map_cons] at claims
        have waits : isWaiting (s.lanes.get? next) := (permits.waiting next).mp (by simp [order])
        obtain ⟨nextJob, nextQueue, waiting⟩ : ∃ job queue, s.lanes.get? next = some ⟨.waiting job, queue⟩ := by
          unfold isWaiting at waits
          split at waits
          next job queue found => exact ⟨job, queue, found⟩
          next => cases waits
        have apart : next ≠ id := by
          rintro rfl
          rw [found] at waiting
          cases waiting
        have still : (s.putLane id ⟨.idle, queue⟩).lanes.get? next = some ⟨.waiting nextJob, nextQueue⟩ := by
          rw [get?_putLane, if_neg apart, waiting]
        have passed : (s.putLane id ⟨.idle, queue⟩).grant 1 =
            { (s.putLane id ⟨.idle, queue⟩).putLane next ⟨.running nextJob, nextQueue⟩ with
              claims := others.map fun id => ⟨.lane id, 1⟩, ready := s.ready ++ [.lane next] } := by
          have served : serve 1 s.claims = (0, [.lane next], others.map fun id => ⟨.lane id, 1⟩) := by
            simp [claims, serve, serve_zero]
          simp only [putLane] at still
          simp [grant, putLane, served, unblock, still]
        rw [passed]
        exact .passed found order waiting _
  next idle =>
    refine .missed ?_
    unfold running?
    split
    next job queue found => exact absurd found (idle job queue)
    next => rfl

theorem effect_move (permits : s.Permits) : (move : Move J) → Effect s move (s.move move)
  | .submit id job => effect_submit permits id job
  | .advance id => effect_advance permits id
  | .finish id => effect_finish permits id
  | .shutdown => .closed

theorem accepted_submit (s : Scheduler J) (id other : FlowId) (job : J) :
    s.accepted id (.submit other job) = if s.accepting ∧ other = id then [job] else [] := by
  cases accepting : s.accepting with
  | false => simp [accepted, submit, accepting]
  | true =>
      simp only [accepted, submit, accepting]
      cases s.lanes.get? other with
      | none => simp
      | some lane => by_cases dead : lane.phase.isDead <;> simp [dead]

theorem LaneStep.putLane {jobs : List J} {other : FlowId} {lane : Lane J}
    (step : LaneStep (s.lanes.get? other) jobs (some lane)) (id : FlowId) :
    LaneStep (s.lanes.get? id) (if other = id then jobs else [])
      ((s.putLane other lane).lanes.get? id) := by
  rw [get?_putLane]
  by_cases here : id = other
  · subst here
    simpa using step
  · rw [if_neg here, if_neg fun same => here same.symm]
    exact .stays _

/-- A move takes at most one step on every lane. -/
theorem Effect.laneStep {move : Move J} {after : Scheduler J} (effect : Effect s move after)
    (id : FlowId) : LaneStep (s.lanes.get? id) (s.accepted id move) (after.lanes.get? id) := by
  have quiet {other : FlowId} {lane : Lane J}
      (step : LaneStep (s.lanes.get? other) [] (some lane)) :
      LaneStep (s.lanes.get? id) [] ((s.putLane other lane).lanes.get? id) := by
    simpa using step.putLane id
  cases effect with
  | refused closed other job =>
      rw [accepted_submit, closed]
      exact .stays _
  | @opened accepting other missing job ready =>
      rw [accepted_submit, accepting]
      simpa using LaneStep.putLane (missing ▸ .opens job) id
  | @queued accepting other phase queue found job =>
      rw [accepted_submit, accepting]
      simpa using LaneStep.putLane (found ▸ .accepts phase queue job) id
  | rested | missed | closed => exact .stays _
  | looked found => exact quiet (found ▸ .looks)
  | @left other found =>
      have erased : (s.lanes.erase other).get? id = if id = other then none else s.lanes.get? id := by
        rw [SortedMap.get?_erase]
        simp only [Std.LawfulEqCmp.compare_eq_iff_eq]
      rw [erased]
      split
      next here =>
        rw [here, found]
        exact .leaves
      next => exact .stays _
  | took found looking => exact quiet (found ▸ .takes looking _ _)
  | started found free => exact quiet (found ▸ .starts (.inl rfl) _)
  | claimed found free => exact quiet (found ▸ .waits _ _)
  | ended found unclaimed => exact quiet (found ▸ .ends _ _)
  | @passed other job queue found next others order nextJob nextQueue waiting ready =>
      have apart : next ≠ other := by
        rintro rfl
        rw [found] at waiting
        cases waiting
      change LaneStep _ _ (((s.putLane other ⟨.idle, queue⟩).putLane next
        ⟨.running nextJob, nextQueue⟩).lanes.get? id)
      rw [get?_putLane]
      split
      next here =>
        rw [here, waiting]
        exact .starts (.inr rfl) _
      next => exact quiet (found ▸ .ends _ _)

end DurableFlow.Scheduler
