import DurableFlow.Proofs.Lawful
import DurableFlow.Proofs.Resolution
import DurableFlow.Proofs.Turns

/-! # The calls of flow logic

A flow is watched by having it write down every call that is made of its logic: `Flow.watched`. Each
call is given what the checkpoint of its flow holds at that time, `Draft.Makes`, and what it comes to
decides whether there is another one, `Draft.Turns`. On a host of watched flows that keeps no fibers,
`Plan.ofEvent_hears` says what the calls are that an event makes, whether or not it gets as far as a
commit.
-/

namespace DurableFlow

open Stateful Hosted

variable {σ α : Type}

/-- What flow logic is entered with. -/
inductive Call.Input where
  | start (args : Bytes)
  | resume (state : Bytes) (value : Resumed)
  deriving DecidableEq

/-- A call of flow logic: what it was given, and how it ended. -/
structure Call where
  input : Call.Input
  context : Context
  result : Except Halt RawStep

theorem Logic.run_context (ctx : Context) (world : σ) :
    (Logic.context : Logic σ Context).run.run (ctx, world) = (.ok ctx, ctx, world) := rfl

theorem Logic.run_ofFlow (result : Except FlowError α) (ctx : Context) (world : σ) :
    (Logic.ofFlow result : Logic σ α).run.run (ctx, world) = (result.mapError .error, ctx, world) := rfl

/-- Logic that writes down that it was called. -/
def Logic.watched (input : Call.Input) (logic : Logic σ RawStep) : Logic (σ × List Call) RawStep :=
  ExceptT.mk fun (ctx, world, calls) =>
    let (result, after, world) := logic.run.run (ctx, world)
    (result, after, world, calls ++ [⟨input, ctx, result⟩])

theorem Logic.run_watched (input : Call.Input) (logic : Logic σ RawStep) (ctx : Context) (world : σ)
    (calls : List Call) :
    (logic.watched input).run.run (ctx, world, calls) =
      let left := logic.run.run (ctx, world)
      (left.1, left.2.1, left.2.2, calls ++ [⟨input, ctx, left.1⟩]) := rfl

namespace Flow

/-- The logic that a flow enters with an input, unless the state cannot be decoded. -/
def logic? (flow : Flow σ) : Call.Input → Except String (Logic σ RawStep)
  | .start args => .ok (flow.start args)
  | .resume state value => (flow.resume state).map (· value)

/-- A flow that writes down the calls of its logic. -/
def watched (flow : Flow σ) : Flow (σ × List Call) where
  start args := (flow.start args).watched (.start args)
  resume state := (flow.resume state).map fun logic value => (logic value).watched (.resume state value)

end Flow

def Code.watched (code : Code σ) : Code (σ × List Call) :=
  ⟨code.registry.mapValues fun _ flow => flow.watched, code.serializer⟩

def ExecutionContext.watched (exec : ExecutionContext σ) : ExecutionContext (σ × List Call) :=
  ⟨exec.serial, exec.owner, exec.code.watched.registry, exec.serializer⟩

def Recipe.watched (recipe : Recipe σ) : Recipe (σ × List Call) :=
  fun number owner => (recipe number owner).map ExecutionContext.watched

/-- The watched code of an identity. -/
def Code.Watched (may : Identity → Code σ → Prop) (owner : Identity) (known : Code (σ × List Call)) :
    Prop :=
  ∃ code, may owner code ∧ known = code.watched

/-- What the logic of a flow is to be entered with: its arguments, or the state of its continuation
and a value. -/
inductive Checkpoint.EntersWith (serializer : FiberSerializer) (cp : Checkpoint) :
    Attempt → Call.Input → Prop where
  | start (unsuspended : cp.continuation = none) :
      EntersWith serializer cp .start (.start (cp.startArgs.getD []))
  | resume {continuation : Bytes} {image : FiberImage} {value : Resumed}
      (held : cp.continuation = some continuation)
      (read : serializer.deserialize continuation = .ok image) :
      EntersWith serializer cp (.resume value) (.resume image.state value)

/-- The input is settled by the arguments and the continuation of a flow. -/
theorem Checkpoint.EntersWith.unique {serializer : FiberSerializer} {cp other : Checkpoint}
    {attempt : Attempt} {input again : Call.Input} (first : cp.EntersWith serializer attempt input)
    (second : other.EntersWith serializer attempt again)
    (continuation : other.continuation = cp.continuation)
    (startArgs : other.startArgs = cp.startArgs) : again = input := by
  cases first with
  | start unsuspended =>
      cases second with
      | start => rw [startArgs]
  | resume held read =>
      cases second with
      | resume held' read' =>
          rw [continuation, held] at held'
          cases held'
          rw [read] at read'
          cases read'
          rfl

namespace Call

/-- A call of the logic of a flow, and what the logic did to the sessions. -/
def Of (call : Call) (flow : Flow σ) (effects : Effects) : Prop :=
  ∃ logic world after left, flow.logic? call.input = .ok logic ∧
    logic.run.run (call.context, world) = (call.result, after, left) ∧ effects = after.effects

/-- What comes of the end of a call for the flow of a checkpoint. -/
inductive Yields (serializer : FiberSerializer) (cp : Checkpoint) :
    Except Halt RawStep → FiberOutcome → Prop where
  | failed {halt : Halt} : Yields serializer cp (.error halt) (.failed halt.flowError)
  | completed {output : Bytes} : Yields serializer cp (.ok (.finish output)) (.completed output)
  | suspended {state continuation : Bytes} {request : Request}
      (written : serializer.serialize ⟨cp.flowId, cp.flowName, request.expects, state⟩ =
        .ok continuation) :
      Yields serializer cp (.ok (.suspend state request)) (.suspended request continuation)

theorem Yields.reads {serializer : FiberSerializer} (faithful : serializer.Faithful) {cp : Checkpoint}
    {result : Except Halt RawStep} {request : Request} {continuation : Bytes}
    (yields : Yields serializer cp result (.suspended request continuation)) :
    cp.Reads serializer continuation request.expects := by
  cases yields with
  | suspended written => exact ⟨_, faithful _ _ written, rfl, rfl, rfl⟩

end Call

namespace Draft

/-- The call that is made of the logic of a flow when it is entered. -/
structure Makes (code : Code σ) (now : Timestamp) (draft : Draft) (attempt : Attempt) (call : Call)
    (effects : Effects) : Prop where
  entered : draft.checkpoint.Entered code.serializer attempt
  input : draft.checkpoint.EntersWith code.serializer attempt call.input
  context : call.context = Context.ofCheckpoint draft.checkpoint now
  logic : ∃ flow, code.registry.get? draft.checkpoint.flowName = some flow ∧ call.Of flow effects

/-- The calls of a turn of flow logic, and the draft it leaves unless it stops early. -/
inductive Turns (code : Code σ) (settings : Settings) :
    Attempt → Draft → List Call → Option Draft → Prop where
  | unentered {attempt : Attempt} {draft : Draft} : Turns code settings attempt draft [] none
  | stopped {attempt : Attempt} {draft : Draft} {call : Call} {effects : Effects}
      (makes : draft.Makes code settings.now attempt call effects) :
      Turns code settings attempt draft [call] none
  | done {attempt : Attempt} {draft after : Draft} {call : Call} {effects : Effects}
      {outcome : FiberOutcome} (makes : draft.Makes code settings.now attempt call effects)
      (yields : Call.Yields code.serializer draft.checkpoint call.result outcome)
      (applied : draft.applyOutcome outcome effects attempt settings.config settings.now =
        .ok (after, .done)) :
      Turns code settings attempt draft [call] (some after)
  | again {attempt : Attempt} {draft taken : Draft} {call : Call} {effects : Effects}
      {outcome : FiberOutcome} {value : Resumed} {calls : List Call} {left : Option Draft}
      (makes : draft.Makes code settings.now attempt call effects)
      (yields : Call.Yields code.serializer draft.checkpoint call.result outcome)
      (applied : draft.applyOutcome outcome effects attempt settings.config settings.now =
        .ok (taken, .resume value))
      (rest : Turns code settings (.resume value) taken.running calls left) :
      Turns code settings attempt draft (call :: calls) left

theorem Turns.head {code : Code σ} {settings : Settings} {attempt : Attempt} {draft : Draft}
    {call : Call} {calls : List Call} {left : Option Draft}
    (turns : draft.Turns code settings attempt (call :: calls) left) :
    ∃ effects, draft.Makes code settings.now attempt call effects := by
  cases turns with
  | stopped makes | done makes | again makes => exact ⟨_, makes⟩

theorem Turns.lawful {code : Code σ} (faithful : code.serializer.Faithful) {settings : Settings}
    {attempt : Attempt} {draft after : Draft} {calls : List Call}
    (turns : draft.Turns code settings attempt calls (some after)) :
    after.checkpoint.Lawful code.serializer := by
  generalize same : some after = left at turns
  induction turns with
  | unentered | stopped => cases same
  | done makes yields applied =>
      cases same
      refine applied_lawful makes.entered (fun request continuation outcome => ?_)
        (applyOutcome_ok applied)
      subst outcome
      exact yields.reads faithful
  | again makes yields applied rest ih => exact ih same

theorem Turns.sameFlow {code : Code σ} {settings : Settings} {attempt : Attempt} {draft after : Draft}
    {calls : List Call} (turns : draft.Turns code settings attempt calls (some after)) :
    draft.checkpoint.SameFlow after.checkpoint := by
  generalize same : some after = left at turns
  induction turns with
  | unentered | stopped => cases same
  | done makes yields applied =>
      cases same
      exact (applyOutcome_ok applied).sameFlow
  | again makes yields applied rest ih =>
      exact (applyOutcome_ok applied).sameFlow.trans ((running_sameFlow _).trans (ih same))

end Draft

/-- The calls that a decision makes, and the draft it leaves unless it stops early. -/
inductive Prepared.Turns (may : Identity → Code σ → Prop) (settings : Settings) (prepared : Prepared) :
    List Call → Option Draft → Prop where
  | skipped (skips : prepared.decision = .skip) : Turns may settings prepared [] (some prepared.draft)
  | stopped (runs : prepared.decision.runs) : Turns may settings prepared [] none
  | unregistered {args : Bytes} {name : String} {after : Draft} {code : Code σ}
      (starts : prepared.decision = .start args) (known : may prepared.draft.checkpoint.owner code)
      (unknown : code.registry.get? prepared.draft.checkpoint.flowName = none)
      (applied : prepared.draft.running.applyOutcome (.failed (.unknownFlow name)) .none .start
        settings.config settings.now = .ok (after, .done)) :
      Turns may settings prepared [] (some after)
  | ran {attempt : Attempt} {code : Code σ} {calls : List Call} {left : Option Draft}
      (enters : prepared.decision.attempt? = some attempt)
      (known : may prepared.draft.checkpoint.owner code)
      (turns : prepared.draft.running.Turns code settings attempt calls left) :
      Turns may settings prepared calls left

namespace Fiber

variable {exec : ExecutionContext (σ × List Call)} {code : Code σ}

theorem get?_watched (same : exec.code = code.watched) (name : String) :
    exec.registry.get? name = (code.registry.get? name).map Flow.watched := by
  have registry : exec.registry = code.watched.registry := congrArg Code.registry same
  rw [registry]
  exact SortedMap.get?_mapValues ..

theorem settle_yields {fiber : Fiber (σ × List Call)} {cp : Checkpoint} (driven : DrivenBy cp fiber)
    {result : Except Halt RawStep} {outcome : FiberOutcome}
    (h : (fiber.settle exec result).1 = .ok outcome) :
    Call.Yields exec.serializer cp result outcome := by
  rcases result with halt | ⟨state, request⟩ | output
  · cases h
    exact .failed
  · simp only [settle] at h
    split at h
    · cases h
    next written =>
      cases h
      rw [driven.flowId, driven.flowName] at written
      exact .suspended written
  · cases h
    exact .completed

/-- What a run of a watched fiber writes down: the call that is made for a draft, if the logic can be
entered at all. -/
def Watches (code : Code σ) (now : Timestamp) (draft : Draft) (attempt : Attempt) (calls : List Call)
    (run : FiberRun (σ × List Call)) : Prop :=
  (run.world.2 = calls ∧ ∃ error, run.result = .error error) ∨
    ∃ call, run.world.2 = calls ++ [call] ∧ draft.Makes code now attempt call run.context.effects ∧
      ∀ outcome, run.result = .ok outcome →
        Call.Yields code.serializer draft.checkpoint call.result outcome

variable {now : Timestamp} {draft : Draft} {fiber : Fiber (σ × List Call)}

theorem enter_watches (same : exec.code = code.watched) (driven : DrivenBy draft.checkpoint fiber)
    {attempt : Attempt} (entered : draft.checkpoint.Entered code.serializer attempt)
    {input : Call.Input} (enters : draft.checkpoint.EntersWith code.serializer attempt input)
    {flow : Flow σ} (known : code.registry.get? draft.checkpoint.flowName = some flow)
    {logic : Logic σ RawStep} (found : flow.logic? input = .ok logic) (world : σ) (calls : List Call) :
    Watches code now draft attempt calls (enter exec fiber (logic.watched input)
      (Context.ofCheckpoint draft.checkpoint now) (world, calls)) := by
  rcases ran : logic.run.run (Context.ofCheckpoint draft.checkpoint now, world)
    with ⟨result, after, left⟩
  have serializer : exec.serializer = code.serializer := congrArg Code.serializer same
  have writes := logic.run_watched input (Context.ofCheckpoint draft.checkpoint now) world calls
  rw [ran] at writes
  refine .inr ⟨⟨input, Context.ofCheckpoint draft.checkpoint now, result⟩, ?_, ⟨entered, enters, rfl,
    flow, known, logic, world, after, left, found, ran, ?_⟩, fun outcome ended => ?_⟩
  · rw [enter, writes]
  · rw [enter, writes]
  · rw [enter, writes] at ended
    rw [← serializer]
    exact settle_yields driven ended

theorem watched_of_registered (same : exec.code = code.watched) (registered : fiber.Registered exec) :
    ∃ flow, code.registry.get? fiber.flowName = some flow ∧ fiber.logic = flow.watched := by
  rw [Registered, get?_watched same, Option.map_eq_some_iff] at registered
  obtain ⟨flow, known, watched⟩ := registered
  exact ⟨flow, known, watched.symm⟩

theorem start_watches (same : exec.code = code.watched)
    (entered : draft.checkpoint.Entered code.serializer .start)
    (created : forFlow exec draft.checkpoint.flowId draft.checkpoint.flowName = .ok fiber)
    (world : σ) (calls : List Call) :
    Watches code now draft .start calls (fiber.start exec (draft.checkpoint.startArgs.getD [])
      (Context.ofCheckpoint draft.checkpoint now) (world, calls)) := by
  obtain ⟨registered, flowId, flowName, _⟩ := registered_of_forFlow created
  obtain ⟨flow, known, watched⟩ := watched_of_registered same registered
  rw [flowName] at known
  unfold start
  split
  · exact .inl ⟨rfl, _, rfl⟩
  · rw [watched]
    refine enter_watches same ?_ entered (.start (entered.started rfl)) known rfl world calls
    exact ⟨flowId, flowName⟩

theorem resume_watches (same : exec.code = code.watched) {value : Resumed}
    (entered : draft.checkpoint.Entered code.serializer (.resume value))
    (restores : Restores exec draft.checkpoint fiber) (world : σ) (calls : List Call) :
    Watches code now draft (.resume value) calls (fiber.resume exec value
      (Context.ofCheckpoint draft.checkpoint now) (world, calls)) := by
  obtain ⟨continuation, held, restored⟩ := restores
  obtain ⟨registered, flowId, state, image, read, _, flowName, parked⟩ := restore_ok restored
  obtain ⟨flow, known, watched⟩ := watched_of_registered same registered
  rw [show exec.serializer = code.serializer from congrArg Code.serializer same] at read
  obtain ⟨held', holds, image', read', _, flowName', kind⟩ := entered.resumed value rfl
  rw [held] at holds
  cases holds
  rw [read] at read'
  cases read'
  rw [← flowName, flowName'] at known
  have resumes : fiber.logic.resume image.state = (flow.resume image.state).map fun logic value =>
      (logic value).watched (.resume image.state value) := by
    rw [watched]
    rfl
  unfold resume
  simp only [state, ne_eq, not_true_eq_false, if_false, parked, kind, resumes]
  cases found : flow.resume image.state with
  | error reason => exact .inl ⟨rfl, _, rfl⟩
  | ok logic =>
      have enters : draft.checkpoint.EntersWith code.serializer (.resume value)
          (.resume image.state value) := .resume held read
      have enterable : flow.logic? (.resume image.state value) = .ok (logic value) := by
        rw [Flow.logic?, found]
        rfl
      refine enter_watches same ?_ entered enters known enterable world calls
      exact ⟨flowId, flowName.symm.trans flowName'⟩

end Fiber

namespace Hosted

variable {exec : ExecutionContext (σ × List Call)} {code : Code σ} {settings : Settings}

/-- A computation on a host of watched flows that makes calls and leaves a draft unless it stops. -/
def Leads (c : Hosted (σ × List Call) (Draft × α)) (host : Host (σ × List Call))
    (P : List Call → Option Draft → Prop) : Prop :=
  ∃ calls, (c.run.run host).2.world.2 = host.world.2 ++ calls ∧
    P calls ((c.run.run host).1.toOption.map Prod.fst)

theorem Leads.imp {c : Hosted (σ × List Call) (Draft × α)} {host : Host (σ × List Call)}
    {P Q : List Call → Option Draft → Prop} (leads : Leads c host P)
    (weaker : ∀ calls left, P calls left → Q calls left) : Leads c host Q := by
  obtain ⟨calls, grew, holds⟩ := leads
  exact ⟨calls, grew, weaker _ _ holds⟩

/-- A computation that leaves the world alone and then makes calls, unless it stops before. -/
theorem Leads.after {β : Type} {c : Hosted (σ × List Call) β} {f : β → Hosted (σ × List Call) (Draft × α)}
    {host : Host (σ × List Call)} {P : List Call → Option Draft → Prop}
    (quiet : (c.run.run host).2.world = host.world) (stops : P [] none)
    (leads : ∀ b after, c.run.run host = (.ok b, after) → Leads (f b) after P) :
    Leads (c >>= f) host P := by
  unfold Leads
  rw [run_bind]
  rcases ran : c.run.run host with ⟨stop | b, after⟩
  · rw [ran] at quiet
    exact ⟨[], by rw [show after.world = host.world from quiet, List.append_nil], stops⟩
  · rw [ran] at quiet
    obtain ⟨calls, grew, holds⟩ := leads b after ran
    exact ⟨calls, by rw [grew, show after.world = host.world from quiet], holds⟩

theorem Leads.andThen {β : Type} {c : Hosted (σ × List Call) (Draft × α)}
    {host : Host (σ × List Call)} {P : List Call → Option Draft → Prop} (leads : Leads c host P)
    (f : α → β) : Leads (c >>= fun left => pure (left.1, f left.2)) host P := by
  unfold Leads at leads ⊢
  rw [run_bind]
  rcases ran : c.run.run host with ⟨_ | left, after⟩
  all_goals
    rw [ran] at leads
    exact leads

theorem enter_leads {draft : Draft} {attempt : Attempt}
    {run : σ × List Call → FiberRun (σ × List Call)}
    {f : Entry (σ × List Call) → Hosted (σ × List Call) (Draft × α)}
    (watches : ∀ world calls, Fiber.Watches code settings.now draft attempt calls (run (world, calls)))
    (rest : ∀ call entry host, entry.attempt = attempt →
      draft.Makes code settings.now attempt call entry.effects →
      Call.Yields code.serializer draft.checkpoint call.result entry.outcome →
      (∃ world, (run world).result = .ok entry.outcome ∧ entry.fiber = (run world).fiber) →
        Leads (f entry) host fun calls left => draft.Turns code settings attempt (call :: calls) left)
    {host : Host (σ × List Call)} :
    Leads (enter attempt run >>= f) host (draft.Turns code settings attempt) := by
  unfold Leads
  rw [run_bind, run_enter]
  rcases watches host.world.1 host.world.2 with ⟨quiet, error, failed⟩ | ⟨call, wrote, makes, yields⟩
  · rw [failed]
    exact ⟨[], quiet.trans (List.append_nil _).symm, .unentered⟩
  cases ended : (run host.world).result with
  | error error => exact ⟨[call], wrote, .stopped makes⟩
  | ok outcome =>
      obtain ⟨calls, grew, turns⟩ := rest call
        ⟨(run host.world).fiber, outcome, (run host.world).context.effects, attempt⟩
        { host with world := (run host.world).world } rfl makes (yields outcome ended)
        ⟨host.world, ended, rfl⟩
      refine ⟨call :: calls, grew.trans ?_, turns⟩
      rw [wrote, List.append_assoc]
      rfl

theorem conclude_leads (same : exec.code = code.watched) (faithful : code.serializer.Faithful)
    {fuel : Nat} {draft : Draft} {call : Call} {entry : Entry (σ × List Call)}
    {source : Fiber (σ × List Call)}
    (makes : draft.Makes code settings.now entry.attempt call entry.effects)
    (yields : Call.Yields code.serializer draft.checkpoint call.result entry.outcome)
    (left : source.Left exec entry.outcome entry.fiber) (registered : source.Registered exec)
    (flowId : source.flowId = draft.checkpoint.flowId) (host : Host (σ × List Call)) :
    Leads (conclude exec settings fuel draft entry) host fun calls left =>
      draft.Turns code settings entry.attempt (call :: calls) left := by
  have faithful' : exec.serializer.Faithful := by
    rw [show exec.serializer = code.serializer from congrArg Code.serializer same]
    exact faithful
  induction fuel generalizing draft call entry source host with
  | zero => exact ⟨[], (List.append_nil _).symm, .stopped makes⟩
  | succ fuel ih =>
      refine .after rfl (.stopped makes) fun ⟨taken, next⟩ after ran => ?_
      obtain ⟨applied, rfl⟩ := ofOutcome_ok.1 ran
      cases next with
      | done => exact ⟨[], (List.append_nil _).symm, .done makes yields applied⟩
      | resume value =>
          refine .after rfl (.stopped makes) fun running after ran => ?_
          obtain ⟨moved, rfl⟩ := ofOutcome_ok.1 ran
          obtain ⟨_, rfl⟩ := Draft.setStatus_ok.1 moved
          obtain ⟨request, continuation, parked, suspends, parks, answered⟩ :=
            (Draft.applyOutcome_ok applied).of_resume
          rw [suspends] at yields left
          -- The fiber that is entered again is the one that the checkpoint describes by now.
          have entered : taken.running.checkpoint.Entered code.serializer (.resume value) :=
            entered_of_answered makes.entered parks (yields.reads faithful) answered
          obtain ⟨known, same', restores⟩ := left.restores faithful' registered flowId parks
          have flowId : entry.fiber.flowId = taken.running.checkpoint.flowId := by
            obtain ⟨sessions, _, rfl⟩ := Draft.answered_of_answerWait answered
            exact same'
          have restores : Restores exec taken.running.checkpoint entry.fiber := by
            obtain ⟨sessions, _, rfl⟩ := Draft.answered_of_answerWait answered
            exact restores.of_same rfl rfl
          rw [← suspends] at yields
          refine (enter_leads (Fiber.resume_watches same entered restores) ?_).imp
            fun calls left turns => .again makes yields applied turns
          rintro call entry host again makes yields ⟨world, ended, fiber⟩
          have left := Fiber.resume_left ended
          rw [← fiber] at left
          rw [← again] at makes ⊢
          exact ih makes yields left known flowId host

theorem drive_leads (same : exec.code = code.watched) (faithful : code.serializer.Faithful)
    {draft : Draft} {attempt : Attempt} {source : Fiber (σ × List Call)}
    {run : σ × List Call → FiberRun (σ × List Call)}
    (watches : ∀ world calls, Fiber.Watches code settings.now draft attempt calls (run (world, calls)))
    (left : ∀ world outcome, (run world).result = .ok outcome →
      source.Left exec outcome (run world).fiber)
    (registered : source.Registered exec) (flowId : source.flowId = draft.checkpoint.flowId)
    (host : Host (σ × List Call)) :
    Leads (do
        let entry ← enter attempt run
        let (draft, fiber) ← conclude exec settings settings.entryLimit draft entry
        return (draft, suspended? exec fiber)) host (draft.Turns code settings attempt) := by
  refine enter_leads watches fun call entry host entered makes yields ran => ?_
  obtain ⟨world, ended, fiber⟩ := ran
  subst entered
  have left := left world entry.outcome ended
  rw [← fiber] at left
  exact (conclude_leads same faithful makes yields left registered flowId host).andThen _

theorem proceed_leads (same : exec.code = code.watched) (faithful : code.serializer.Faithful)
    {draft : Draft} {value : Resumed} {fiber : Fiber (σ × List Call)}
    (entered : draft.checkpoint.Entered code.serializer (.resume value))
    (restores : Restores exec draft.checkpoint fiber) (host : Host (σ × List Call)) :
    Leads (proceed exec settings draft value fiber) host
      (draft.Turns code settings (.resume value)) := by
  obtain ⟨registered, flowId, _⟩ := Fiber.restore_ok restores.choose_spec.2
  exact drive_leads same faithful (Fiber.resume_watches same entered restores)
    (fun world outcome ended => Fiber.resume_left ended) registered flowId host

theorem begin_leads (same : exec.code = code.watched) (faithful : code.serializer.Faithful)
    {draft : Draft} (entered : draft.running.checkpoint.Entered code.serializer .start)
    (host : Host (σ × List Call)) :
    Leads (begin exec settings draft (draft.checkpoint.startArgs.getD [])) host fun calls left =>
      draft.running.Turns code settings .start calls left ∨
        calls = [] ∧ ∃ name after, left = some after ∧
          code.registry.get? draft.checkpoint.flowName = none ∧
          draft.running.applyOutcome (.failed (.unknownFlow name)) .none .start settings.config
            settings.now = .ok (after, .done) := by
  refine .after rfl (.inl .unentered) fun running after ran => ?_
  obtain ⟨moved, rfl⟩ := ofOutcome_ok.1 ran
  obtain ⟨_, rfl⟩ := Draft.setStatus_ok.1 moved
  have registry := Fiber.get?_watched same draft.checkpoint.flowName
  unfold start
  cases known : code.registry.get? draft.checkpoint.flowName with
  | none =>
      rw [known] at registry
      simp only [Fiber.forFlow, registry, Option.map_none]
      refine .after rfl (.inl .unentered) fun ⟨failed, next⟩ after ran => ?_
      obtain ⟨applied, rfl⟩ := ofOutcome_ok.1 ran
      cases next with
      | done => exact ⟨[], (List.append_nil _).symm, .inr ⟨rfl, _, failed, rfl, trivial, applied⟩⟩
      | resume value =>
          -- A failure is never answered.
          have impossible := Draft.applyOutcome_ok applied
          cases impossible
  | some flow =>
      rw [known] at registry
      have created : Fiber.forFlow exec draft.checkpoint.flowId draft.checkpoint.flowName =
          .ok (.create draft.checkpoint.flowId draft.checkpoint.flowName flow.watched) := by
        simp only [Fiber.forFlow, registry, Option.map_some]
      simp only [created]
      refine .after rfl (.inl .unentered) fun fiber after ran => ?_
      obtain ⟨made, rfl⟩ := ofFiber_ok.1 ran
      cases made
      obtain ⟨registered, flowId, _⟩ := Fiber.registered_of_forFlow created
      exact (drive_leads same faithful (Fiber.start_watches same entered created)
        (fun world outcome ended => Fiber.start_left ended) registered flowId _).imp fun _ _ => .inl

variable {may : Identity → Code σ → Prop} {serializer : FiberSerializer}

theorem run_awaken_of_disabled {host : Host σ} (bare : host.cache = .disabled)
    (exec : ExecutionContext σ) (cp : Checkpoint) (instant : Nat) :
    (awaken exec cp instant).run.run host = (revive exec cp).run.run host := by
  rw [run_awaken, FiberCache.take_of_none (by rw [bare]; rfl)]

theorem run_revive (exec : ExecutionContext σ) (cp : Checkpoint) (host : Host σ) :
    ((revive exec cp).run.run host).2.world = host.world ∧
      ∀ fiber, ((revive exec cp).run.run host).1 = .ok fiber → Restores exec cp fiber := by
  unfold revive
  cases held : cp.continuation with
  | none => exact ⟨rfl, fun fiber revived => by cases revived⟩
  | some continuation =>
      refine ⟨rfl, fun fiber revived => ⟨continuation, held, ?_⟩⟩
      exact mapError_eq_ok.1 revived

theorem code_of_acquire {host after : Host (σ × List Call)}
    (provides : host.Provides (Code.Watched may)) {owner : Identity}
    (ran : (acquire owner).run.run host = (.ok exec, after)) :
    after.Provides (Code.Watched may) ∧ ∃ code, may owner code ∧ exec.code = code.watched := by
  rw [run_acquire] at ran
  obtain ⟨given, rfl⟩ := Prod.mk.inj ran
  obtain ⟨provides, known⟩ := provides.acquire owner
  exact ⟨provides, known exec (mapError_eq_ok.1 given)⟩

/-- What is decided about a flow is carried out in turns of its logic. -/
theorem follow_leads (faithful : serializer.Faithful)
    (serializes : ∀ owner code, may owner code → code.serializer = serializer)
    {host : Host (σ × List Call)} (provides : host.Provides (Code.Watched may)) {prepared : Prepared}
    (proper : prepared.Proper serializer)
    (given : ∀ args, prepared.decision = .start args →
      args = prepared.draft.checkpoint.startArgs.getD []) :
    Leads (follow settings prepared) host (prepared.Turns may settings) := by
  rcases prepared with ⟨draft, args | value | _⟩
  · rw [follow_start]
    refine .after (by rw [run_acquire]) (.stopped rfl) fun exec after ran => ?_
    obtain ⟨_, code, known, same⟩ := code_of_acquire provides ran
    cases serializes _ _ known
    rw [given args rfl]
    refine (begin_leads same faithful proper after).imp fun calls left ended => ?_
    rcases ended with turns | ⟨rfl, name, after, rfl, unknown, applied⟩
    · exact .ran rfl known turns
    · exact .unregistered rfl known unknown applied
  · rw [follow_resume]
    refine .after (by rw [run_acquire]) (.stopped rfl) fun exec after ran => ?_
    obtain ⟨provides, code, known, same⟩ := code_of_acquire provides ran
    cases serializes _ _ known
    refine .after rfl (.stopped rfl) fun running later marked => ?_
    obtain ⟨moved, rfl⟩ := ofOutcome_ok.1 marked
    obtain ⟨_, rfl⟩ := Draft.setStatus_ok.1 moved
    have woken := run_awaken_of_disabled provides.cache exec draft.running.checkpoint settings.instant
    refine .after ?_ (.stopped rfl) fun fiber later awake => ?_
    · exact (congrArg (fun run => run.2.world) woken).trans (run_revive exec _ _).1
    · have restores := (run_revive exec _ _).2 fiber (congrArg Prod.fst (woken.symm.trans awake))
      exact (proceed_leads same faithful (proper : Checkpoint.Entered _ _ _) restores later).imp
        fun _ _ => .ran rfl known
  · exact ⟨[], (List.append_nil _).symm, .skipped rfl⟩

end Hosted

theorem Handler.Prepares.given {flowId : FlowId} {config : Config} {now : Timestamp}
    {payload : EventPayload} {loaded : Option Checkpoint} {prepared : Prepared}
    (prepares : Prepares flowId config now payload loaded prepared) :
    ∀ args, prepared.decision = .start args → args = prepared.draft.checkpoint.startArgs.getD [] := by
  intro args starts
  cases prepares with
  | started served rest =>
      cases starts
      rw [rest]
      rfl
  | restarted =>
      cases starts
      rfl
  | kept | answered | early | awake | again | timedOut | counted | confirmed | failed => cases starts

section Events

variable {may : Identity → Code σ → Prop} {serializer : FiberSerializer}

/-- What an event leads to on a host of watched flows, with the calls that it makes. -/
inductive Plan.Hears (may : Identity → Code σ → Prop) (settings : Settings) (event : Event)
    (loaded : Option Checkpoint) : List Call → Except Stop (Plan (σ × List Call)) → Prop where
  | refused {reason : Refusal} (refuses : Refuses settings event loaded reason) :
      Hears may settings event loaded [] (.ok (.discard reason))
  | broken {stop : Stop} : Hears may settings event loaded [] (.error stop)
  | stopped {prepared : Prepared} {calls : List Call} {stop : Stop}
      (live : ∀ cp, loaded = some cp → cp.isTerminal = false)
      (prepares : Handler.prepare event.flowId event.payload settings.config settings.now loaded =
        .ok prepared)
      (turns : prepared.Turns may settings calls none) :
      Hears may settings event loaded calls (.error stop)
  | planned {prepared : Prepared} {draft : Draft} {calls : List Call} {commit : Commit (σ × List Call)}
      (live : ∀ cp, loaded = some cp → cp.isTerminal = false)
      (prepares : Handler.prepare event.flowId event.payload settings.config settings.now loaded =
        .ok prepared)
      (turns : prepared.Turns may settings calls (some draft))
      (checkpoint : commit.checkpoint = { draft.checkpoint with updatedAt := settings.now })
      (records : commit.records = draft.records)
      (expected : commit.expected = (loaded.map (·.version)).getD 0) :
      Hears may settings event loaded calls (.ok (.commit commit))

theorem Plan.ofEvent_hears (faithful : serializer.Faithful)
    (serializes : ∀ owner code, may owner code → code.serializer = serializer)
    {host : Host (σ × List Call)} (provides : host.Provides (Code.Watched may)) (settings : Settings)
    (event : Event) {loaded : Option Checkpoint} (lawful : ∀ cp, loaded = some cp → cp.Lawful serializer) :
    let run := (ofEvent settings event loaded).run.run host
    ∃ calls, run.2.world.2 = host.world.2 ++ calls ∧ Hears may settings event loaded calls run.1 := by
  simp only
  unfold ofEvent
  split
  next cp finished =>
    obtain ⟨found, terminal⟩ := Option.filter_eq_some_iff.1 finished
    exact ⟨[], (List.append_nil _).symm, .refused (.inl ⟨cp, found, terminal⟩)⟩
  next unfinished =>
    have live : ∀ cp, loaded = some cp → cp.isTerminal = false := by
      rintro cp rfl
      simpa using unfinished
    split
    next refused => exact ⟨[], (List.append_nil _).symm, .refused (.inr refused)⟩
    · exact ⟨[], (List.append_nil _).symm, .broken⟩
    next prepared prepares =>
      have prepared' := Handler.prepare_prepares prepares
      have leads : Hosted.Leads (Hosted.follow settings prepared) host (prepared.Turns may settings) :=
        Hosted.follow_leads faithful serializes provides (prepared'.proper lawful live) prepared'.given
      obtain ⟨calls, grew, turns⟩ := leads
      rw [ofPrepared, run_bind]
      rcases followed : (Hosted.follow settings prepared).run.run host with
        ⟨stop | ⟨draft, suspended⟩, after⟩
      all_goals rw [followed] at grew turns
      · exact ⟨calls, grew, .stopped live prepares turns⟩
      · exact ⟨calls, grew, .planned live prepares turns rfl rfl rfl⟩

theorem Prepared.Turns.lawful (faithful : serializer.Faithful)
    (serializes : ∀ owner code, may owner code → code.serializer = serializer) {settings : Settings}
    {prepared : Prepared} {calls : List Call} {draft : Draft} (proper : prepared.Proper serializer)
    (turns : prepared.Turns may settings calls (some draft)) : draft.checkpoint.Lawful serializer := by
  rcases prepared with ⟨begun, decision⟩
  generalize same : some draft = left at turns
  cases turns with
  | skipped skips =>
      cases same
      cases skips
      exact proper
  | stopped => cases same
  | unregistered starts known unknown applied =>
      cases same
      cases starts
      exact Hosted.applied_lawful proper (fun _ _ impossible => by cases impossible)
        (Draft.applyOutcome_ok applied)
  | ran enters known turns =>
      subst same
      cases serializes _ _ known
      exact turns.lawful faithful

theorem Prepared.Turns.sameFlow {settings : Settings} {prepared : Prepared} {calls : List Call}
    {draft : Draft} (turns : prepared.Turns may settings calls (some draft)) :
    prepared.draft.checkpoint.SameFlow draft.checkpoint := by
  generalize same : some draft = left at turns
  cases turns with
  | skipped =>
      cases same
      exact .refl _
  | stopped => cases same
  | unregistered starts known unknown applied =>
      cases same
      exact (Draft.running_sameFlow _).trans (Draft.applyOutcome_ok applied).sameFlow
  | ran enters known turns =>
      subst same
      exact (Draft.running_sameFlow _).trans turns.sameFlow

end Events

end DurableFlow
