import DurableFlow.Commit
import DurableFlow.Proofs.Fibers
import DurableFlow.Proofs.Handlers

/-! # How a flow runs for one event

A run enters flow logic once, and again in place for as long as what the flow waits for is there
already. Each entry is a `Stint`. `Course` is what can happen between the decision of an event and
the checkpoint that is to be written, on a host that keeps no fibers; `ofEvent_commit` reads it off
the computation. Apart from acquiring the context and waking the fiber, a run is `Worldly`: it
depends on nothing of its host but the world.
-/

namespace DurableFlow

open Stateful

variable {σ : Type}

theorem FiberCache.take_of_none {cache : FiberCache σ} {now version : Nat} {id : FlowId}
    {exec : ExecutionContext σ} (absent : cache.entries.get? id = none) :
    cache.take now id version exec = (none, cache) := by
  rw [take, absent]

namespace Hosted

variable {α β : Type}

section Equations

theorem run_acquire (owner : Identity) (host : Host σ) :
    (acquire owner).run.run host =
      ((host.environments.acquire owner).1.mapError fun error => .error (.environment error),
        { host with environments := (host.environments.acquire owner).2 }) := by
  simp only [acquire, run_bind, run_get]
  rcases host.environments.acquire owner with ⟨_ | _, _⟩ <;> rfl

/-- The fiber that a continuation describes, if there is one. -/
def revive (exec : ExecutionContext σ) (cp : Checkpoint) : Hosted σ (Fiber σ) :=
  match cp.continuation with
  | some continuation => ofFiber (Fiber.restore exec cp.flowId continuation)
  | none => fail (.fiber (.missingContinuation cp.flowId))

theorem run_awaken (exec : ExecutionContext σ) (cp : Checkpoint) (instant : Nat) (host : Host σ) :
    (awaken exec cp instant).run.run host =
      match host.cache.take instant cp.flowId cp.version exec with
      | (some fiber, cache) => (.ok fiber, { host with cache })
      | (none, cache) => (revive exec cp).run.run { host with cache } := by
  simp only [awaken, run_bind, run_get]
  rcases host.cache.take instant cp.flowId cp.version exec with ⟨kept, cache⟩
  cases kept <;> simp only [revive] <;> cases cp.continuation <;> rfl

theorem acquire_ok {owner : Identity} {before after : Host σ} {exec : ExecutionContext σ}
    (h : (acquire owner).run.run before = (.ok exec, after)) : ∃ environments,
      before.environments.acquire owner = (.ok exec, environments) ∧
        after = { before with environments } := by
  rw [run_acquire] at h
  obtain ⟨given, rfl⟩ := Prod.mk.inj h
  exact ⟨_, Prod.ext (mapError_eq_ok.1 given) rfl, rfl⟩

theorem ofFiber_ok {result : Except FiberError α} {a : α} {before after : Host σ} :
    (ofFiber result).run.run before = (.ok a, after) ↔ result = .ok a ∧ after = before := by
  rw [ofFiber, run_result_ok, mapError_eq_ok]

theorem ofOutcome_ok {result : Except OutcomeError α} {a : α} {before after : Host σ} :
    (ofOutcome result).run.run before = (.ok a, after) ↔ result = .ok a ∧ after = before := by
  rw [ofOutcome, run_result_ok, mapError_eq_ok]

theorem run_enter (attempt : Attempt) (run : σ → FiberRun σ) (host : Host σ) :
    (enter attempt run).run.run host =
      (((run host.world).result.map fun outcome =>
          ⟨(run host.world).fiber, outcome, (run host.world).context.effects, attempt⟩).mapError
            fun error => .error (.fiber error),
        { host with world := (run host.world).world }) := by
  simp only [enter, run_bind, run_get, run_set, ofFiber, run_result]
  cases (run host.world).result <;> rfl

theorem enter_ok {attempt : Attempt} {run : σ → FiberRun σ} {entry : Entry σ}
    {before after : Host σ} (h : (enter attempt run).run.run before = (.ok entry, after)) :
    (run before.world).result = .ok entry.outcome ∧ entry.fiber = (run before.world).fiber ∧
      entry.effects = (run before.world).context.effects ∧ entry.attempt = attempt := by
  rw [run_enter] at h
  cases left : (run before.world).result with
  | error error =>
      rw [left] at h
      cases h
  | ok outcome =>
      rw [left] at h
      cases h
      exact ⟨rfl, rfl, rfl, rfl⟩

end Equations

/-- A computation that depends on nothing of its host but the world and changes nothing else. -/
def Worldly (c : Hosted σ α) : Prop :=
  ∀ (host : Host σ) environments cache, c.run.run { host with environments, cache } =
    ((c.run.run host).1, { (c.run.run host).2 with environments, cache })

namespace Worldly

theorem of_result (result : Except Stop α) : Worldly (σ := σ) (ExceptT.mk (pure result)) :=
  fun _ _ _ => rfl

theorem bind {c : Hosted σ α} {f : α → Hosted σ β} (first : Worldly c)
    (rest : ∀ a, Worldly (f a)) : Worldly (c >>= f) := by
  intro host environments cache
  rw [run_bind, run_bind, first host environments cache]
  rcases c.run.run host with ⟨_ | a, after⟩
  · rfl
  · exact rest a after environments cache

theorem environments_eq {c : Hosted σ α} (worldly : Worldly c) (host : Host σ) :
    (c.run.run host).2.environments = host.environments := by
  have same := worldly host host.environments host.cache
  exact congrArg (fun run => run.2.environments) same

theorem cache_eq {c : Hosted σ α} (worldly : Worldly c) (host : Host σ) :
    (c.run.run host).2.cache = host.cache := by
  have same := worldly host host.environments host.cache
  exact congrArg (fun run => run.2.cache) same

theorem enter (attempt : Attempt) (run : σ → FiberRun σ) : Worldly (Hosted.enter attempt run) :=
  fun host _ _ => by rw [run_enter, run_enter]

theorem revive (exec : ExecutionContext σ) (cp : Checkpoint) : Worldly (Hosted.revive exec cp) := by
  unfold Hosted.revive
  split
  · exact of_result _
  · exact of_result _

theorem conclude (exec : ExecutionContext σ) (settings : Settings) (fuel : Nat) (draft : Draft)
    (entry : Entry σ) : Worldly (Hosted.conclude exec settings fuel draft entry) := by
  induction fuel generalizing draft entry with
  | zero => exact of_result _
  | succ fuel ih =>
      refine bind (of_result _) fun ⟨draft, next⟩ => ?_
      cases next with
      | done => exact of_result _
      | resume value =>
          exact bind (of_result _) fun draft => bind (enter _ _) fun entry => ih draft entry

theorem start (exec : ExecutionContext σ) (settings : Settings) (draft : Draft) (args : Bytes) :
    Worldly (Hosted.start exec settings draft args) := by
  unfold Hosted.start
  simp only
  split
  · exact bind (of_result _) fun _ => of_result _
  · exact bind (of_result _) fun _ => bind (enter _ _) fun _ =>
      bind (conclude _ _ _ _ _) fun _ => of_result _

end Worldly

/-- Mark the flow as running and start it. -/
def begin (exec : ExecutionContext σ) (settings : Settings) (draft : Draft) (args : Bytes) :
    Hosted σ (Draft × Option (Suspended σ)) := do
  let draft ← ofOutcome (draft.setStatus .running)
  start exec settings draft args

/-- Resume a fiber and run it up to its next stop. -/
def proceed (exec : ExecutionContext σ) (settings : Settings) (draft : Draft) (value : Resumed)
    (fiber : Fiber σ) : Hosted σ (Draft × Option (Suspended σ)) := do
  let entry ← enter (.resume value)
    (fiber.resume exec value (Context.ofCheckpoint draft.checkpoint settings.now))
  let (draft, fiber) ← conclude exec settings settings.entryLimit draft entry
  return (draft, suspended? exec fiber)

theorem follow_start (settings : Settings) (draft : Draft) (args : Bytes) :
    follow (σ := σ) settings ⟨draft, .start args⟩ =
      acquire draft.checkpoint.owner >>= fun exec => begin exec settings draft args := by
  simp only [follow, ready, begin, bind_assoc, pure_bind]

theorem follow_resume (settings : Settings) (draft : Draft) (value : Resumed) :
    follow (σ := σ) settings ⟨draft, .resume value⟩ =
      acquire draft.checkpoint.owner >>= fun exec =>
        ofOutcome (draft.setStatus .running) >>= fun draft =>
          awaken exec draft.checkpoint settings.instant >>= proceed exec settings draft value := by
  simp only [follow, ready, resume, bind_assoc, pure_bind]
  rfl

namespace Worldly

theorem begin (exec : ExecutionContext σ) (settings : Settings) (draft : Draft) (args : Bytes) :
    Worldly (Hosted.begin exec settings draft args) :=
  bind (of_result _) fun draft => start exec settings draft args

theorem proceed (exec : ExecutionContext σ) (settings : Settings) (draft : Draft) (value : Resumed)
    (fiber : Fiber σ) : Worldly (Hosted.proceed exec settings draft value fiber) :=
  bind (enter _ _) fun _ => bind (conclude _ _ _ _ _) fun _ => of_result _

end Worldly

end Hosted

/-- The draft of a flow whose logic is being run. -/
def Draft.running (draft : Draft) : Draft :=
  { draft with checkpoint := { draft.checkpoint with status := .running } }

theorem Draft.running_sameFlow (draft : Draft) :
    draft.checkpoint.SameFlow draft.running.checkpoint := ⟨rfl, rfl, rfl, rfl, rfl, rfl⟩

/-- One entry into flow logic, up to its next stop. -/
structure Stint where
  /-- The flow as it waited, before anything was taken off its sessions. -/
  waiting : Checkpoint
  /-- The flow as its logic was entered. -/
  entered : Checkpoint
  attempt : Attempt
  /-- The value that the logic got to see, if it was not started. -/
  heard : Option Resumed
  outcome : FiberOutcome
  effects : Effects

namespace Hosted

/-- A fiber was started, and did what the entry says. -/
def Starts (exec : ExecutionContext σ) (settings : Settings) (draft : Draft) (args : Bytes)
    (fiber : Fiber σ) (entry : Entry σ) : Prop :=
  ∃ world, let left := fiber.start exec args (Context.ofCheckpoint draft.checkpoint settings.now) world
    left.result = .ok entry.outcome ∧ entry.fiber = left.fiber ∧
      entry.effects = left.context.effects ∧ entry.attempt = .start

/-- A fiber was resumed with a value, and did what the entry says. -/
def Resumes (exec : ExecutionContext σ) (settings : Settings) (draft : Draft) (value : Resumed)
    (fiber : Fiber σ) (entry : Entry σ) : Prop :=
  ∃ world, let left := fiber.resume exec value (Context.ofCheckpoint draft.checkpoint settings.now) world
    left.result = .ok entry.outcome ∧ entry.fiber = left.fiber ∧
      entry.effects = left.context.effects ∧ entry.attempt = .resume value

/-- The stint of a flow that was started. -/
def Entry.started (entry : Entry σ) (waiting : Checkpoint) (draft : Draft) : Stint :=
  ⟨waiting, draft.checkpoint, .start, none, entry.outcome, entry.effects⟩

/-- The stint of a flow that was resumed. -/
def Entry.resumed (entry : Entry σ) (waiting : Checkpoint) (draft : Draft) (value : Resumed)
    (fiber : Fiber σ) : Stint :=
  ⟨waiting, draft.checkpoint, .resume value, fiber.heeded value, entry.outcome, entry.effects⟩

/-- What follows an entry: its outcome is written into the draft, and as long as the wait that has
begun is over already, the fiber is resumed in place. -/
inductive Concludes (exec : ExecutionContext σ) (settings : Settings) :
    Draft → Entry σ → List Stint → Draft → Fiber σ → Prop where
  | done {draft after : Draft} {entry : Entry σ}
      (applied : draft.applyOutcome entry.outcome entry.effects entry.attempt settings.config
        settings.now = .ok (after, .done)) :
      Concludes exec settings draft entry [] after entry.fiber
  | again {draft parked taken after : Draft} {entry next : Entry σ} {value : Resumed}
      {request : Request} {continuation : Bytes} {stints : List Stint} {fiber : Fiber σ}
      (outcome : entry.outcome = .suspended request continuation)
      (parks : draft.Parks request continuation parked)
      (answered : parked.answerWait = (taken, .resume value))
      (resumes : Resumes exec settings taken.running value entry.fiber next)
      (rest : Concludes exec settings taken.running next stints after fiber) :
      Concludes exec settings draft entry
        (next.resumed parked.checkpoint taken.running value entry.fiber :: stints) after fiber

/-- What follows the decision of an event on a host that keeps no fibers. The first stint begins
at the checkpoint `waiting`. -/
inductive Course (offers : Identity → ExecutionContext σ → Prop) (settings : Settings)
    (waiting : Checkpoint) :
    Prepared → List Stint → Draft → Option (Suspended σ) → Prop where
  | skipped {draft : Draft} : Course offers settings waiting ⟨draft, .skip⟩ [] draft none
  | unregistered {draft after : Draft} {exec : ExecutionContext σ} {args : Bytes} {name : String}
      (offered : offers draft.checkpoint.owner exec)
      (unknown : Fiber.forFlow exec draft.checkpoint.flowId draft.checkpoint.flowName =
        .error (.unknownFlow name))
      (applied : draft.running.Applied .start (.failed (.unknownFlow name)) (after, .done)) :
      Course offers settings waiting ⟨draft, .start args⟩ [] after none
  | started {draft after : Draft} {exec : ExecutionContext σ} {args : Bytes}
      {fiber left : Fiber σ} {entry : Entry σ} {stints : List Stint}
      (offered : offers draft.checkpoint.owner exec)
      (created : Fiber.forFlow exec draft.checkpoint.flowId draft.checkpoint.flowName = .ok fiber)
      (starts : Starts exec settings draft.running args fiber entry)
      (rest : Concludes exec settings draft.running entry stints after left) :
      Course offers settings waiting ⟨draft, .start args⟩
        (entry.started waiting draft.running :: stints) after (suspended? exec left)
  | resumed {draft after : Draft} {exec : ExecutionContext σ} {value : Resumed}
      {continuation : Bytes} {fiber left : Fiber σ} {entry : Entry σ} {stints : List Stint}
      (offered : offers draft.checkpoint.owner exec)
      (suspended : draft.checkpoint.continuation = some continuation)
      (restored : Fiber.restore exec draft.checkpoint.flowId continuation = .ok fiber)
      (resumes : Resumes exec settings draft.running value fiber entry)
      (rest : Concludes exec settings draft.running entry stints after left) :
      Course offers settings waiting ⟨draft, .resume value⟩
        (entry.resumed waiting draft.running value fiber :: stints) after (suspended? exec left)

theorem Concludes.sameFlow {exec : ExecutionContext σ} {settings : Settings} {draft after : Draft}
    {entry : Entry σ} {stints : List Stint} {fiber : Fiber σ}
    (concludes : Concludes exec settings draft entry stints after fiber) :
    draft.checkpoint.SameFlow after.checkpoint := by
  induction concludes with
  | done applied => exact (Draft.applyOutcome_ok applied).sameFlow
  | again outcome parks answered resumes rest ih =>
      obtain ⟨sessions, _, rfl⟩ := Draft.answered_of_answerWait answered
      refine .trans ?_ ih
      rw [Draft.running, parks.rest]
      exact ⟨rfl, rfl, rfl, rfl, rfl, rfl⟩

theorem Course.sameFlow {offers : Identity → ExecutionContext σ → Prop} {settings : Settings}
    {waiting : Checkpoint} {prepared : Prepared} {stints : List Stint} {after : Draft}
    {suspended : Option (Suspended σ)}
    (course : Course offers settings waiting prepared stints after suspended) :
    prepared.draft.checkpoint.SameFlow after.checkpoint := by
  cases course with
  | skipped => exact .refl _
  | unregistered offered unknown applied => exact (Draft.running_sameFlow _).trans applied.sameFlow
  | started offered created starts rest => exact (Draft.running_sameFlow _).trans rest.sameFlow
  | resumed offered known restored resumes rest =>
      exact (Draft.running_sameFlow _).trans rest.sameFlow

theorem Starts.left {exec : ExecutionContext σ} {settings : Settings} {draft : Draft} {args : Bytes}
    {fiber : Fiber σ} {entry : Entry σ} (starts : Starts exec settings draft args fiber entry) :
    fiber.Left exec entry.outcome entry.fiber := by
  obtain ⟨world, result, same, _⟩ := starts
  rw [same]
  exact Fiber.start_left result

theorem Resumes.left {exec : ExecutionContext σ} {settings : Settings} {draft : Draft}
    {value : Resumed} {fiber : Fiber σ} {entry : Entry σ}
    (resumes : Resumes exec settings draft value fiber entry) :
    fiber.Left exec entry.outcome entry.fiber := by
  obtain ⟨world, result, same, _⟩ := resumes
  rw [same]
  exact Fiber.resume_left result

/-- A fiber that is restored from what a checkpoint says. -/
def Restores (exec : ExecutionContext σ) (cp : Checkpoint) (fiber : Fiber σ) : Prop :=
  ∃ continuation, cp.continuation = some continuation ∧
    Fiber.restore exec cp.flowId continuation = .ok fiber

end Hosted

theorem Fiber.Left.restores {exec : ExecutionContext σ} (faithful : exec.serializer.Faithful)
    {source fiber : Fiber σ} {draft parked : Draft} {request : Request} {continuation : Bytes}
    (left : source.Left exec (.suspended request continuation) fiber)
    (registered : source.Registered exec) (flowId : source.flowId = draft.checkpoint.flowId)
    (parks : draft.Parks request continuation parked) :
    fiber.Registered exec ∧ fiber.flowId = parked.checkpoint.flowId ∧
      Hosted.Restores exec parked.checkpoint fiber := by
  obtain ⟨flow, name, logic, _⟩ := left.keeps
  have flowId : fiber.flowId = parked.checkpoint.flowId := by rw [flow, flowId, parks.rest]
  refine ⟨?_, flowId, continuation, ?_, ?_⟩
  · rw [Registered, name, logic]
    exact registered
  · rw [parks.rest]
  · rw [← flowId]
    exact left.restorable faithful registered

namespace Hosted

theorem Concludes.restores {exec : ExecutionContext σ} {settings : Settings} {draft after : Draft}
    {entry : Entry σ} {stints : List Stint} {source fiber : Fiber σ}
    (faithful : exec.serializer.Faithful)
    (concludes : Concludes exec settings draft entry stints after fiber)
    (left : source.Left exec entry.outcome entry.fiber) (registered : source.Registered exec)
    (same : source.flowId = draft.checkpoint.flowId) (suspended : fiber.state = .suspended) :
    Restores exec after.checkpoint fiber := by
  induction concludes generalizing source with
  | @done draft after entry applied =>
      have applied := Draft.applyOutcome_ok applied
      generalize outcome : entry.outcome = o at applied left
      generalize result : (after, Next.done) = r at applied
      cases applied with
      | suspended parks =>
          cases Draft.eq_of_answerWait_done result.symm
          obtain ⟨_, _, restores⟩ := left.restores faithful registered same parks
          exact restores
      | completed | retried | failed =>
          obtain ⟨_, _, impossible⟩ := left.state_iff.1 suspended
          cases impossible
  | again outcome parks answered resumes rest ih =>
      rw [outcome] at left
      obtain ⟨known, flowId, _⟩ := left.restores faithful registered same parks
      obtain ⟨sessions, _, rfl⟩ := Draft.answered_of_answerWait answered
      exact ih resumes.left known flowId suspended

theorem suspended?_some {exec : ExecutionContext σ} {left : Fiber σ} {suspended : Suspended σ}
    (h : suspended? exec left = some suspended) :
    left.state = .suspended ∧ suspended = ⟨left, exec⟩ := by
  unfold suspended? at h
  split at h
  next parked => exact ⟨parked, (Option.some.inj h).symm⟩
  · cases h

/-- A fiber that is left suspended is the one that its checkpoint restores. -/
theorem Course.restores {offers : Identity → ExecutionContext σ → Prop} {settings : Settings}
    {waiting : Checkpoint} {prepared : Prepared} {stints : List Stint} {after : Draft}
    {suspended : Suspended σ}
    (faithful : ∀ owner exec, offers owner exec → exec.serializer.Faithful)
    (course : Course offers settings waiting prepared stints after (some suspended)) :
    (∃ owner, offers owner suspended.exec) ∧ suspended.fiber.state = .suspended ∧
      Restores suspended.exec after.checkpoint suspended.fiber := by
  generalize result : some suspended = r at course
  cases course with
  | skipped | unregistered => cases result
  | started offered created starts rest =>
      obtain ⟨parked, rfl⟩ := suspended?_some result.symm
      obtain ⟨registered, flowId, _, _⟩ := Fiber.registered_of_forFlow created
      exact ⟨⟨_, offered⟩, parked,
        rest.restores (faithful _ _ offered) starts.left registered flowId parked⟩
  | resumed offered known restored resumes rest =>
      obtain ⟨parked, rfl⟩ := suspended?_some result.symm
      obtain ⟨registered, flowId, _⟩ := Fiber.restore_ok restored
      exact ⟨⟨_, offered⟩, parked,
        rest.restores (faithful _ _ offered) resumes.left registered flowId parked⟩

section Inversion

variable {exec : ExecutionContext σ} {settings : Settings} {draft after : Draft}
  {before later : Host σ}

/-- An outcome is written, and is the last one, or the fiber is entered again. -/
theorem conclude_succ {fuel : Nat} {entry : Entry σ} {fiber : Fiber σ}
    (h : (conclude exec settings (fuel + 1) draft entry).run.run before = (.ok (after, fiber), later)) :
    (draft.applyOutcome entry.outcome entry.effects entry.attempt settings.config settings.now =
        .ok (after, .done) ∧ fiber = entry.fiber ∧ later = before) ∨
      ∃ taken value next middle,
        draft.applyOutcome entry.outcome entry.effects entry.attempt settings.config settings.now =
          .ok (taken, .resume value) ∧
        taken.setStatus .running = .ok taken.running ∧
        (enter (.resume value) (entry.fiber.resume exec value
          (Context.ofCheckpoint taken.running.checkpoint settings.now))).run.run before =
          (.ok next, middle) ∧
        (conclude exec settings fuel taken.running next).run.run middle =
          (.ok (after, fiber), later) := by
  rw [conclude, run_bind_ok] at h
  obtain ⟨⟨taken, next⟩, _, first, h⟩ := h
  obtain ⟨applied, rfl⟩ := ofOutcome_ok.1 first
  cases next with
  | done =>
      cases h
      exact .inl ⟨applied, rfl, rfl⟩
  | resume value =>
      rw [run_bind_ok] at h
      obtain ⟨running, _, second, h⟩ := h
      obtain ⟨moved, rfl⟩ := ofOutcome_ok.1 second
      obtain ⟨_, rfl⟩ := Draft.setStatus_ok.1 moved
      rw [run_bind_ok] at h
      obtain ⟨entered, middle, ran, h⟩ := h
      exact .inr ⟨taken, value, entered, middle, applied, moved, ran, h⟩

theorem begin_ok {args : Bytes} {suspended : Option (Suspended σ)}
    (h : (begin exec settings draft args).run.run before = (.ok (after, suspended), later)) :
    draft.setStatus .running = .ok draft.running ∧
      ((∃ name, Fiber.forFlow exec draft.running.checkpoint.flowId draft.running.checkpoint.flowName =
            .error (.unknownFlow name) ∧
          draft.running.applyOutcome (.failed (.unknownFlow name)) .none .start settings.config
            settings.now = .ok (after, .done) ∧ suspended = none) ∨
        ∃ fiber entry middle left,
          Fiber.forFlow exec draft.running.checkpoint.flowId draft.running.checkpoint.flowName =
            .ok fiber ∧
          (enter .start (fiber.start exec args
            (Context.ofCheckpoint draft.running.checkpoint settings.now))).run.run before =
            (.ok entry, middle) ∧
          (conclude exec settings settings.entryLimit draft.running entry).run.run middle =
            (.ok (after, left), later) ∧ suspended = suspended? exec left) := by
  rw [begin, run_bind_ok] at h
  obtain ⟨running, _, first, h⟩ := h
  obtain ⟨moved, rfl⟩ := ofOutcome_ok.1 first
  obtain ⟨_, rfl⟩ := Draft.setStatus_ok.1 moved
  refine ⟨moved, ?_⟩
  unfold start at h
  simp only at h
  split at h
  next name unknown =>
    rw [run_bind_ok] at h
    obtain ⟨⟨failed, next⟩, _, second, h⟩ := h
    obtain ⟨applied, rfl⟩ := ofOutcome_ok.1 second
    cases h
    cases next with
    | done => exact .inl ⟨name, unknown, applied, rfl⟩
    | resume value =>
        -- A failure is never answered.
        obtain ⟨_, _, _, impossible, _⟩ := (Draft.applyOutcome_ok applied).of_resume
        cases impossible
  next =>
    rw [run_bind_ok] at h
    obtain ⟨fiber, _, second, h⟩ := h
    obtain ⟨created, rfl⟩ := ofFiber_ok.1 second
    rw [run_bind_ok] at h
    obtain ⟨entry, middle, ran, h⟩ := h
    rw [run_bind_ok] at h
    obtain ⟨⟨concluded, left⟩, _, concludes, h⟩ := h
    cases h
    exact .inr ⟨fiber, entry, middle, left, created, ran, concludes, rfl⟩

theorem proceed_ok {value : Resumed} {fiber : Fiber σ} {suspended : Option (Suspended σ)}
    (h : (proceed exec settings draft value fiber).run.run before = (.ok (after, suspended), later)) :
    ∃ entry middle left,
      (enter (.resume value) (fiber.resume exec value
        (Context.ofCheckpoint draft.checkpoint settings.now))).run.run before = (.ok entry, middle) ∧
      (conclude exec settings settings.entryLimit draft entry).run.run middle =
        (.ok (after, left), later) ∧ suspended = suspended? exec left := by
  rw [proceed, run_bind_ok] at h
  obtain ⟨entry, middle, ran, h⟩ := h
  rw [run_bind_ok] at h
  obtain ⟨⟨concluded, left⟩, _, concludes, h⟩ := h
  cases h
  exact ⟨entry, middle, left, ran, concludes, rfl⟩

end Inversion

theorem conclude_concludes {exec : ExecutionContext σ} {settings : Settings} {fuel : Nat}
    {draft after : Draft} {entry : Entry σ} {fiber : Fiber σ} {before later : Host σ}
    (h : (conclude exec settings fuel draft entry).run.run before = (.ok (after, fiber), later)) :
    ∃ stints, Concludes exec settings draft entry stints after fiber := by
  induction fuel generalizing draft entry before with
  | zero => cases h
  | succ fuel ih =>
      rcases conclude_succ h with ⟨applied, rfl, _⟩ | ⟨_, value, _, _, applied, _, ran, h⟩
      · exact ⟨[], .done applied⟩
      · obtain ⟨stints, rest⟩ := ih h
        obtain ⟨_, _, _, outcome, parks, answered⟩ := (Draft.applyOutcome_ok applied).of_resume
        exact ⟨_, .again outcome parks answered ⟨_, enter_ok ran⟩ rest⟩

theorem start_course {offers : Identity → ExecutionContext σ → Prop} {exec : ExecutionContext σ}
    {settings : Settings} {waiting : Checkpoint} {draft after : Draft} {args : Bytes}
    {suspended : Option (Suspended σ)} {before later : Host σ}
    (offered : offers draft.checkpoint.owner exec)
    (h : (begin exec settings draft args).run.run before = (.ok (after, suspended), later)) :
    ∃ stints, Course offers settings waiting ⟨draft, .start args⟩ stints after suspended := by
  obtain ⟨_, ⟨name, unknown, applied, rfl⟩ | ⟨_, _, _, _, created, ran, concludes, rfl⟩⟩ := begin_ok h
  · exact ⟨[], .unregistered offered unknown (Draft.applyOutcome_ok applied)⟩
  · obtain ⟨stints, rest⟩ := conclude_concludes concludes
    exact ⟨_, .started offered created ⟨_, enter_ok ran⟩ rest⟩

theorem proceed_course {offers : Identity → ExecutionContext σ → Prop} {exec : ExecutionContext σ}
    {settings : Settings} {waiting : Checkpoint} {draft after : Draft} {value : Resumed}
    {suspended : Option (Suspended σ)} {before later : Host σ}
    (offered : offers draft.checkpoint.owner exec)
    (h : (revive exec draft.checkpoint >>= proceed exec settings draft.running value).run.run before =
      (.ok (after, suspended), later)) :
    ∃ stints, Course offers settings waiting ⟨draft, .resume value⟩ stints after suspended := by
  rw [run_bind_ok] at h
  obtain ⟨fiber, _, revived, h⟩ := h
  unfold revive at revived
  split at revived
  next continuation known =>
    obtain ⟨restored, rfl⟩ := ofFiber_ok.1 revived
    obtain ⟨_, _, _, ran, concludes, rfl⟩ := proceed_ok h
    obtain ⟨stints, rest⟩ := conclude_concludes concludes
    exact ⟨_, .resumed offered known restored ⟨_, enter_ok ran⟩ rest⟩
  next => cases revived

theorem follow_course {offers : Identity → ExecutionContext σ → Prop} {settings : Settings}
    {waiting : Checkpoint} {prepared : Prepared} {after : Draft} {suspended : Option (Suspended σ)}
    {before later : Host σ}
    (offered : ∀ owner exec, before.environments.acquire owner = (.ok exec, later.environments) →
      offers owner exec)
    (bare : before.cache.entries.get? prepared.draft.checkpoint.flowId = none)
    (h : (follow settings prepared).run.run before = (.ok (after, suspended), later)) :
    ∃ stints, Course offers settings waiting prepared stints after suspended := by
  rcases prepared with ⟨draft, args | value | _⟩
  · rw [follow_start, run_bind_ok] at h
    obtain ⟨exec, _, acquired, h⟩ := h
    rw [run_acquire] at acquired
    obtain ⟨known, rfl⟩ := Prod.mk.inj acquired
    have unchanged := (Worldly.begin exec settings draft args).environments_eq
      { before with environments := (before.environments.acquire draft.checkpoint.owner).2 }
    rw [h] at unchanged
    exact start_course (offered _ _ (Prod.ext (mapError_eq_ok.1 known) unchanged.symm)) h
  · rw [follow_resume, run_bind_ok] at h
    obtain ⟨exec, host, acquired, h⟩ := h
    rw [run_acquire] at acquired
    obtain ⟨known, rfl⟩ := Prod.mk.inj acquired
    rw [run_bind_ok] at h
    obtain ⟨running, _, first, h⟩ := h
    obtain ⟨moved, rfl⟩ := ofOutcome_ok.1 first
    obtain ⟨_, rfl⟩ := Draft.setStatus_ok.1 moved
    rw [run_bind, run_awaken, FiberCache.take_of_none bare, ← run_bind] at h
    have unchanged := ((Worldly.revive exec draft.running.checkpoint).bind
      (Worldly.proceed exec settings draft.running value)).environments_eq
      { before with environments := (before.environments.acquire draft.checkpoint.owner).2 }
    rw [Draft.running, h] at unchanged
    exact proceed_course (offered _ _ (Prod.ext (mapError_eq_ok.1 known) unchanged.symm)) h
  · cases h
    exact ⟨[], .skipped⟩

end Hosted

/-- All that can lead from an event and the stored checkpoint of its flow to a commit, on a host
that keeps no fibers. -/
structure Plan.Yields {σ : Type} (offers : Identity → ExecutionContext σ → Prop)
    (settings : Settings) (event : Event) (loaded : Option Checkpoint) (stints : List Stint)
    (commit : Commit σ) : Prop where
  live : ∀ cp, loaded = some cp → cp.isTerminal = false
  course : ∃ prepared draft,
    Handler.Prepares event.flowId settings.config settings.now event.payload loaded prepared ∧
      Hosted.Course offers settings (Handler.waiting event.payload loaded prepared) prepared stints
        draft commit.suspended ∧
      commit.checkpoint = { draft.checkpoint with updatedAt := settings.now } ∧
      commit.records = draft.records ∧ commit.ran = prepared.decision.runs
  expected : commit.expected = (loaded.map (·.version)).getD 0

theorem Plan.Yields.flowId_eq {σ : Type} {offers : Identity → ExecutionContext σ → Prop}
    {settings : Settings} {event : Event} {loaded : Option Checkpoint} {stints : List Stint}
    {commit : Commit σ} (yields : Yields offers settings event loaded stints commit)
    (isOf : Checkpoint.IsOf loaded event.flowId) : commit.checkpoint.flowId = event.flowId := by
  obtain ⟨prepared, draft, prepares, course, checkpoint, _, _⟩ := yields.course
  rw [checkpoint]
  exact course.sameFlow.flowId.trans (prepares.flowId_eq isOf)

theorem Plan.ofEvent_commit {σ : Type} {offers : Identity → ExecutionContext σ → Prop}
    {settings : Settings} {event : Event} {loaded : Option Checkpoint} {commit : Commit σ}
    {before later : Host σ}
    (offered : ∀ owner exec, before.environments.acquire owner = (.ok exec, later.environments) →
      offers owner exec)
    (bare : before.cache.entries.get? event.flowId = none)
    (isOf : Checkpoint.IsOf loaded event.flowId)
    (h : (ofEvent settings event loaded).run.run before = (.ok (.commit commit), later)) :
    ∃ stints, Yields offers settings event loaded stints commit := by
  unfold ofEvent at h
  split at h
  · cases h
  next live =>
    have live : ∀ cp, loaded = some cp → cp.isTerminal = false := by
      rintro cp rfl
      simpa using live
    split at h
    · cases h
    · cases h
    next prepared prepares =>
      have prepares := Handler.prepare_prepares prepares
      rw [ofPrepared, run_bind_ok] at h
      obtain ⟨⟨draft, suspended⟩, _, followed, h⟩ := h
      cases h
      obtain ⟨stints, course⟩ :=
        Hosted.follow_course offered (by rw [prepares.flowId_eq isOf]; exact bare) followed
      exact ⟨stints, live, ⟨prepared, draft, prepares, course, rfl, rfl, rfl⟩, rfl⟩

end DurableFlow
