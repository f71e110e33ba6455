import DurableFlow.Proofs.Conversations
import DurableFlow.Proofs.Faultless
import DurableFlow.Proofs.Stocks

/-! # Flows that can always go on

If flow logic keeps to the primitives, and every context of an identity knows its flows and reads
their states, then whatever is stored can be taken up again by any dispatcher: `Checkpoint.Secure`.
An entrance into flow logic that is `Ready` comes to an outcome, and writing it leads to another ready
entrance or to a secure checkpoint, so none of the faults of the engine is ever reported.
-/

namespace DurableFlow

open Stateful Hosted Samples

variable {σ δ : Type}

/-- A context that some dispatcher builds for an identity. -/
def Made (recipes : δ → Recipe σ) (owner : Identity) (exec : ExecutionContext σ) : Prop :=
  ∃ dispatcher number, (recipes dispatcher).factory number owner = .ok exec

/-- Contexts that can be relied on: fibers are written as JSON, flows keep to the primitives, and a
flow that one context of an identity knows is known to all of them, which read the states that it
suspends with. -/
structure Dependable (recipes : δ → Recipe σ) : Prop where
  serializer : ∀ {owner exec}, Made recipes owner exec → exec.serializer = .json
  primitives : ∀ {owner exec name flow}, Made recipes owner exec →
    exec.registry.get? name = some flow → flow.KeepsToPrimitives
  readable : ∀ {owner exec other name flow}, Made recipes owner exec → Made recipes owner other →
    exec.registry.get? name = some flow → ∃ again, other.registry.get? name = some again ∧
      ∀ ctx state request effects, flow.Suspends ctx state request effects →
        ∃ logic, again.resume state = .ok logic

/-- A fiber whose state its logic can decode, if it is suspended. -/
def Fiber.Readable (fiber : Fiber σ) : Prop :=
  ∀ parked, fiber.parked = some parked → ∃ logic, fiber.logic.resume parked.state = .ok logic

namespace Checkpoint

/-- Every context of its owner restores the fiber of a checkpoint from its continuation. -/
def Resumable (recipes : δ → Recipe σ) (cp : Checkpoint) : Prop :=
  ∀ continuation, cp.continuation = some continuation → ∀ exec, Made recipes cp.owner exec →
    ∃ fiber, Fiber.restore exec cp.flowId continuation = .ok fiber ∧ fiber.Readable

/-- A checkpoint that can be taken up again by any dispatcher. -/
structure Secure (recipes : δ → Recipe σ) (cp : Checkpoint) : Prop where
  lawful : cp.Lawful .json
  names : cp.waitingFor.NamesSessions
  resumable : cp.Resumable recipes

theorem Resumable.of_same {recipes : δ → Recipe σ} {cp other : Checkpoint}
    (resumable : cp.Resumable recipes) (flowId : other.flowId = cp.flowId)
    (owner : other.owner = cp.owner) (continuation : other.continuation = cp.continuation) :
    other.Resumable recipes := by
  unfold Resumable at resumable ⊢
  rw [flowId, owner, continuation]
  exact resumable

end Checkpoint

/-- What the fiber of a call has to be like. -/
def FiberCall.Fits (fiber : Fiber σ) : FiberCall → Prop
  | .start _ => fiber.state = .created
  | .resume value => fiber.state = .suspended ∧ fiber.Readable ∧
    fiber.parked.map Parked.kind = some value.kind

/-- An entrance that comes to an outcome. -/
structure Entrance.Ready (recipes : δ → Recipe σ) (entrance : Entrance σ) : Prop where
  made : Made recipes entrance.draft.checkpoint.owner entrance.exec
  running : entrance.draft.checkpoint.status = .running
  entered : entrance.draft.checkpoint.Entered .json entrance.call.attempt
  resumable : entrance.draft.checkpoint.Resumable recipes
  driven : DrivenBy entrance.draft.checkpoint entrance.fiber
  registered : ∃ other, Made recipes entrance.draft.checkpoint.owner other ∧
    entrance.fiber.Registered other
  fits : entrance.call.Fits entrance.fiber

theorem Fiber.enter_result {exec : ExecutionContext σ} (json : exec.serializer = .json)
    (fiber : Fiber σ) (logic : Logic σ RawStep) (ctx : Context) (world : σ) :
    ∃ outcome, (enter exec fiber logic ctx world).result = .ok outcome := by
  rcases ran : logic.run.run (ctx, world) with ⟨halt | ⟨state, request⟩ | output, last, after⟩
  all_goals
    simp only [enter, ran, settle, json, FiberSerializer.json]
    exact ⟨_, rfl⟩

namespace Entrance.Ready

variable {recipes : δ → Recipe σ} {entrance : Entrance σ} {settings : Settings}
  {outcome : FiberOutcome}

theorem run_result (dependable : Dependable recipes) (ready : entrance.Ready recipes)
    (settings : Settings) : ∃ outcome, (entrance.run settings).result = .ok outcome := by
  have json := dependable.serializer ready.made
  have fits := ready.fits
  rcases entrance with ⟨exec, draft, fiber, call, world⟩
  cases call with
  | start args =>
      simp only [run, Fiber.start]
      rw [if_neg (by simpa [FiberCall.Fits] using fits)]
      exact Fiber.enter_result json _ _ _ _
  | resume value =>
      obtain ⟨suspended, readable, kind⟩ := fits
      obtain ⟨parked, held, same⟩ := Option.map_eq_some_iff.1 kind
      obtain ⟨logic, decoded⟩ := readable parked held
      simp only at held suspended decoded
      simp only [run, Fiber.resume, suspended, held, same, decoded, ne_eq, not_true_eq_false, if_false]
      exact Fiber.enter_result json _ _ _ _

theorem leaves (dependable : Dependable recipes) (ready : entrance.Ready recipes)
    (ran : (entrance.run settings).result = .ok outcome) :
    (entrance.context settings).Leaves outcome (entrance.run settings).context.effects := by
  obtain ⟨other, made, registered⟩ := ready.registered
  exact (Entrance.calls ran).1.leaves (dependable.primitives made registered)

theorem faultless (dependable : Dependable recipes) (ready : entrance.Ready recipes)
    (ran : (entrance.run settings).result = .ok outcome) :
    Faultless (entrance.apply settings outcome) :=
  Draft.applyOutcome_faultless ready.running (.ofCheckpoint _ _) (ready.leaves dependable ran)

/-- A fiber that has been suspended can be restored by every context of its owner, and one of them
restores just the fiber that was left. -/
theorem suspends (dependable : Dependable recipes) (ready : entrance.Ready recipes)
    {request : Request} {continuation : Bytes}
    (ran : (entrance.run settings).result = .ok (.suspended request continuation)) :
    entrance.draft.checkpoint.Reads .json continuation request.expects ∧
      (∀ exec, Made recipes entrance.draft.checkpoint.owner exec → ∃ fiber,
        Fiber.restore exec entrance.draft.checkpoint.flowId continuation = .ok fiber ∧
          fiber.Readable) ∧
      ∃ exec, Made recipes entrance.draft.checkpoint.owner exec ∧
        Fiber.restore exec entrance.draft.checkpoint.flowId continuation =
          .ok (entrance.run settings).fiber := by
  obtain ⟨calls, left⟩ := Entrance.calls ran
  obtain ⟨state, held, suspends⟩ := calls.suspends request continuation rfl
  obtain ⟨other, made, registered⟩ := ready.registered
  have json := dependable.serializer ready.made
  have reads := ready.driven.reads json FiberSerializer.json_faithful left
  obtain ⟨flowId, flowName, logic, _⟩ := left.keeps
  generalize (entrance.run settings).fiber = after at left held flowId flowName logic
  cases left with
  | @suspended _ state' _ written =>
      rw [json] at written
      have read := FiberSerializer.json_faithful _ _ written
      simp only [Fiber.park, Option.some.injEq, Parked.mk.injEq, true_and] at held
      subst held
      have same : entrance.fiber.flowId = entrance.draft.checkpoint.flowId := ready.driven.flowId
      refine ⟨reads, fun exec makes => ?_, other, made, ?_⟩
      · obtain ⟨again, known, readable⟩ := dependable.readable made makes registered
        rw [← dependable.serializer makes] at read
        refine ⟨_, Fiber.restore_eq read same known, fun parked held => ?_⟩
        cases held
        exact readable _ _ _ _ suspends
      · rw [← dependable.serializer made] at read
        rw [Fiber.restore_eq read same registered, Fiber.park, same]

theorem of_restores (dependable : Dependable recipes) {exec : ExecutionContext σ} {draft : Draft}
    {fiber : Fiber σ} {value : Resumed} {world : σ} (made : Made recipes draft.checkpoint.owner exec)
    (running : draft.checkpoint.status = .running)
    (entered : draft.checkpoint.Entered .json (.resume value))
    (resumable : draft.checkpoint.Resumable recipes)
    (restores : ∃ other, Made recipes draft.checkpoint.owner other ∧
      Restores other draft.checkpoint fiber) :
    Ready recipes ⟨exec, draft, fiber, .resume value, world⟩ := by
  obtain ⟨other, makes, continuation, held, restored⟩ := restores
  obtain ⟨registered, flowId, suspended, image, read, _, flowName, parked⟩ := Fiber.restore_ok restored
  obtain ⟨again, restored', readable⟩ := resumable continuation held other makes
  rw [restored] at restored'
  cases restored'
  obtain ⟨held', holds, image', read', _, flowName', kind⟩ := entered.resumed value rfl
  rw [held] at holds
  cases holds
  rw [dependable.serializer makes, read'] at read
  cases read
  refine ⟨made, running, entered, resumable, ⟨flowId, ?_⟩, ⟨other, makes, registered⟩, ?_⟩
  · exact flowName.symm.trans flowName'
  · exact ⟨suspended, readable, by rw [parked, Option.map_some, kind]⟩

theorem parks (dependable : Dependable recipes) (ready : entrance.Ready recipes) {request : Request}
    {continuation : Bytes} {parked : Draft}
    (ran : (entrance.run settings).result = .ok (.suspended request continuation))
    (parks : entrance.draft.Parks request continuation parked) :
    parked.checkpoint.owner = entrance.draft.checkpoint.owner ∧
      parked.checkpoint.Resumable recipes ∧
      ∃ other, Made recipes parked.checkpoint.owner other ∧
        Restores other parked.checkpoint (entrance.run settings).fiber := by
  obtain ⟨_, restorable, other, makes, restored⟩ := ready.suspends dependable ran
  have flowId : parked.checkpoint.flowId = entrance.draft.checkpoint.flowId := by rw [parks.rest]
  have owner : parked.checkpoint.owner = entrance.draft.checkpoint.owner := by rw [parks.rest]
  have held : parked.checkpoint.continuation = some continuation := by rw [parks.rest]
  refine ⟨owner, ?_, other, owner ▸ makes, continuation, held, flowId ▸ restored⟩
  intro given same exec made
  rw [held] at same
  cases same
  rw [flowId]
  exact restorable exec (owner ▸ made)

theorem again (dependable : Dependable recipes) (ready : entrance.Ready recipes) {taken running : Draft}
    {value : Resumed} (ran : (entrance.run settings).result = .ok outcome)
    (applied : entrance.apply settings outcome = .ok (taken, .resume value))
    (moved : taken.setStatus .running = .ok running) :
    (entrance.again settings running value).Ready recipes := by
  obtain ⟨request, continuation, parked, rfl, parks, answered⟩ := (Draft.applyOutcome_ok applied).of_resume
  obtain ⟨reads, _⟩ := ready.suspends dependable ran
  obtain ⟨owner, resumable, other, makes, restores⟩ := ready.parks dependable ran parks
  have entered := entered_of_answered ready.entered parks reads answered
  obtain ⟨_, rfl⟩ := Draft.setStatus_ok.1 moved
  obtain ⟨sessions, _, rfl⟩ := Draft.answered_of_answerWait answered
  have made : Made recipes parked.checkpoint.owner entrance.exec := owner ▸ ready.made
  exact of_restores dependable made rfl entered (resumable.of_same rfl rfl rfl)
    ⟨other, makes, restores.of_same rfl rfl⟩

theorem secure (dependable : Dependable recipes) (ready : entrance.Ready recipes) {after : Draft}
    (ran : (entrance.run settings).result = .ok outcome)
    (applied : entrance.apply settings outcome = .ok (after, .done)) :
    after.checkpoint.Secure recipes ∧
      ∀ suspended, suspended? entrance.exec (entrance.run settings).fiber = some suspended →
        ∃ other, Made recipes after.checkpoint.owner other ∧
          Restores other after.checkpoint suspended.fiber := by
  have names := Draft.applyOutcome_names (ready.leaves dependable ran) applied
  have shape := Draft.applyOutcome_ok applied
  have lawful : after.checkpoint.Lawful .json := by
    refine applied_lawful ready.entered (fun request continuation same => ?_) shape
    subst same
    exact (ready.suspends dependable ran).1
  have state := (Entrance.calls ran).2.state_iff
  generalize result : (after, Next.done) = r at shape
  cases shape with
  | suspended parks =>
      cases Draft.eq_of_answerWait_done result.symm
      obtain ⟨_, resumable, other, makes, restores⟩ := ready.parks dependable ran parks
      refine ⟨⟨lawful, names, resumable⟩, fun suspended left => ?_⟩
      rw [(suspended?_some left).2]
      exact ⟨other, makes, restores⟩
  | completed _ _ rest | retried _ rest | failed _ _ rest =>
      cases result
      refine ⟨⟨lawful, names, ready.resumable.of_same ?_ ?_ ?_⟩, fun suspended left => ?_⟩
      · rw [rest]
      · rw [rest]
      · rw [rest]
      · obtain ⟨_, _, impossible⟩ := state.1 (suspended?_some left).1
        cases impossible

end Entrance.Ready

namespace Handler

variable {config : Config} {now : Timestamp} {reason : Refusal} {cp : Checkpoint}

theorem retry_refuses (lawful : cp.Lawful .json) (retrying : cp.status = .retrying) :
    retry cp ≠ .error reason := by
  intro refuses
  unfold retry at refuses
  split at refuses
  · cases refuses
  next pending =>
    split at refuses
    · cases refuses
    next suspended =>
      have held := (lawful.retrying retrying).2.1
      rw [pending] at held
      simp [Option.isNone_iff_eq_none, Option.ne_none_iff_isSome, ← held] at suspended

theorem wakeup_refuses (secure : cp.Lawful .json ∧ cp.waitingFor.NamesSessions)
    (h : wakeup now cp = .error reason) : reason = .noTimer := by
  obtain ⟨lawful, names⟩ := secure
  unfold wakeup at h
  split at h
  next due wait =>
    split at h
    · cases h
    · split at h
      next retrying => exact absurd h (retry_refuses lawful retrying)
      · cases h
  next awaited deadline wait =>
    split at h
    · cases h
    · split at h
      · cases h
      next nothing =>
        rw [wait] at names
        obtain ⟨first, rest, rfl⟩ := List.exists_cons_of_ne_nil names
        simp at nothing
  · cases h
    rfl

/-- A flow whose checkpoint is in order is never left without anything to resume it with. -/
theorem prepare_refuses {flowId : FlowId} {payload : EventPayload} {found : Option Checkpoint}
    (secure : ∀ cp, found = some cp → cp.Lawful .json ∧ cp.waitingFor.NamesSessions)
    (h : prepare flowId payload config now found = .error (.refused reason)) :
    reason ≠ .nothingToResumeWith ∧ reason ≠ .namesNoSessions := by
  have unmapped {result : Except Refusal Prepared}
      (h : result.mapError HandlerError.refused = .error (.refused reason)) :
      result = .error reason := by
    cases result <;> cases h
    rfl
  unfold prepare at h
  simp only at h
  split at h
  next accepted =>
    unfold preprocess at h
    split at h
    · have h := unmapped h
      unfold start at h
      split at h
      · cases h
        simp
      · split at h
        · cases h
          simp
        · cases h
    · cases h
      simp
    · cases h
      simp
    · have h := unmapped h
      unfold session at h
      split at h
      · cases h
        simp
      · split at h
        · cases h
          simp
        · split at h
          · cases h
            simp
          · cases h
    next cp =>
      -- Only a wake-up asks for something to resume with.
      rw [wakeup_refuses (secure cp rfl) (unmapped h)]
      simp
    · have h := unmapped h
      unfold confirmation at h
      split at h
      · cases h
      · cases h
        simp
    · unfold failure at h
      split at h
      · cases h
      · cases h
        simp
      · cases h
  next =>
    cases h
    simp

end Handler

/-- A kept fiber is the one that the checkpoint of some write describes, to one of the contexts of its
owner, and it is kept for the version of that write. -/
def Write.Describe (recipes : δ → Recipe σ) (writes : List Write) (id : FlowId)
    (entry : CacheEntry σ) : Prop :=
  ∃ write ∈ ofFlow writes id, write.checkpoint.version = entry.version ∧
    ∃ exec, Made recipes write.checkpoint.owner exec ∧ Restores exec write.checkpoint entry.fiber

theorem Write.Describe.of_found {recipes : δ → Recipe σ} {writes : List Write} {id : FlowId}
    {entry : CacheEntry σ} {cp : Checkpoint} (described : Write.Describe recipes writes id entry)
    (numbered : Write.Numbered (ofFlow writes id)) (past : Write.Past (ofFlow writes id) (some cp))
    (version : entry.version = cp.version) :
    ∃ exec, Made recipes cp.owner exec ∧ Restores exec cp entry.fiber := by
  obtain ⟨write, member, numbers, made⟩ := described
  rcases past with impossible | ⟨source, among, here⟩
  · cases impossible
  · cases here
    have known : write = source := numbered.unique member among (numbers.trans version)
    exact known ▸ made

namespace Plan

variable {recipes : δ → Recipe σ} {settings : Settings} {event : Event}
  {found : Option Checkpoint} {prepared : Prepared}

theorem Opens.secure (opens : Opens settings event found prepared)
    (secure : ∀ cp, found = some cp → cp.Secure recipes) :
    prepared.Proper .json ∧ prepared.draft.checkpoint.waitingFor.NamesSessions ∧
      prepared.draft.checkpoint.Resumable recipes := by
  have prepares := Handler.prepare_prepares opens.prepares
  refine ⟨prepares.proper (fun cp here => (secure cp here).lawful) opens.live, ?_, ?_⟩
  · generalize event.payload = payload at prepares
    cases prepares with
    | @started request cp _ rest =>
        have waits : cp.waitingFor = .start := congrArg Checkpoint.waitingFor rest
        simp only [waits, Wait.NamesSessions]
    | @answered _ _ _ cp _ _ _ _ _ _ taken =>
        obtain ⟨_, _, _, _, _, rfl⟩ := Checkpoint.takeReady?_some taken
        exact (secure cp rfl).names
    | counted | confirmed => trivial
    | failed failed =>
        obtain ⟨_, _, _, rest⟩ := Draft.fail_ok failed
        rw [rest]
        trivial
    | _ => exact (secure _ rfl).names
  · cases found with
    | none =>
        generalize event.payload = payload at prepares
        cases prepares with
        | started _ rest =>
            intro continuation held
            rw [rest] at held
            cases held
    | some cp =>
        obtain ⟨same, continuation⟩ := prepares.keeps
        exact (secure cp rfl).resumable.of_same same.flowId same.owner continuation

theorem Opens.moves (opens : Opens settings event found prepared)
    (secure : ∀ cp, found = some cp → cp.Secure recipes) (runs : prepared.decision.runs) :
    prepared.draft.checkpoint.status.canMoveTo .running := by
  have prepares := Handler.prepare_prepares opens.prepares
  have live := opens.live
  have waiting : ∀ cp, found = some cp → cp.status.canMoveTo .running := by
    intro cp here
    have live := live cp here
    unfold Checkpoint.isTerminal at live
    rcases (secure cp here).lawful.status with status | status | status | status
    all_goals
      rw [status] at live ⊢
      first | rfl | cases live
  generalize event.payload = payload at prepares
  cases prepares with
  | @started request cp _ rest =>
      have status : cp.status = .created := congrArg Checkpoint.status rest
      simp only [status]
      rfl
  | @answered _ _ _ cp _ _ _ _ _ _ taken =>
      obtain ⟨_, _, _, _, _, rfl⟩ := Checkpoint.takeReady?_some taken
      exact waiting cp rfl
  | awake | again | restarted | timedOut | confirmed => exact (waiting _ rfl :)
  | kept | early | counted | failed => cases runs

/-- Every entrance into the logic of a flow whose checkpoint is secure is ready. -/
theorem Opens.ready (dependable : Dependable recipes) {dispatcher : δ} {writes : List Write}
    {host : Host σ} {entrance : Entrance σ} (opens : Opens settings event found prepared)
    (secure : ∀ cp, found = some cp → cp.Secure recipes)
    (stocked : host.Stocked (recipes dispatcher) (Write.Describe recipes writes))
    (isOf : Checkpoint.IsOf found event.flowId)
    (numbered : Write.Numbered (Write.ofFlow writes event.flowId))
    (past : Write.Past (Write.ofFlow writes event.flowId) found)
    (reached : prepared.Reaches settings host entrance) : entrance.Ready recipes := by
  have prepares := Handler.prepare_prepares opens.prepares
  have flowId := prepares.flowId_eq isOf
  obtain ⟨proper, _, resumable⟩ := opens.secure secure
  unfold Prepared.Proper at proper
  induction reached with
  | @started running args exec environments fiber decided acquired moved created =>
      rw [decided] at proper
      obtain ⟨_, rfl⟩ := Draft.setStatus_ok.1 moved
      have made : Made recipes prepared.draft.checkpoint.owner exec :=
        ⟨dispatcher, exec.serial, stocked.made acquired⟩
      obtain ⟨registered, flowId, flowName, _⟩ := Fiber.registered_of_forFlow created
      refine ⟨made, rfl, proper, resumable, ⟨flowId, flowName⟩, ⟨exec, made, registered⟩, ?_⟩
      unfold Fiber.forFlow at created
      split at created
      · cases created
        rfl
      · cases created
  | @woken running value exec environments fiber after decided acquired moved awake =>
      rw [decided] at proper
      obtain ⟨_, rfl⟩ := Draft.setStatus_ok.1 moved
      have made : Made recipes prepared.draft.checkpoint.owner exec :=
        ⟨dispatcher, exec.serial, stocked.made acquired⟩
      refine Entrance.Ready.of_restores dependable made rfl proper resumable ?_
      rcases awaken_ok awake with ⟨entry, kept, rfl, version, _⟩ | restores
      · have described := stocked.cache _ entry kept
        rw [flowId] at described
        cases found with
        | none =>
            obtain ⟨_, _, starts⟩ := prepares.starts
            rw [decided] at starts
            cases starts
        | some cp =>
            obtain ⟨same, continuation⟩ := prepares.keeps
            obtain ⟨other, makes, restores⟩ :=
              described.of_found numbered past (version.trans same.version)
            exact ⟨other, by rw [same.owner]; exact makes, restores.of_same same.flowId continuation⟩
      · exact ⟨exec, made, restores⟩
  | again _ ran applied moved ready => exact ready.again dependable ran applied moved

end Plan

/-- A result that is no fault of the engine, and no refusal for want of anything to resume with. -/
structure Flawless (result : Except Stop ProcessingOutcome) : Prop where
  checkpoint : ∀ error, result ≠ .error (.error (.checkpoint error))
  fiber : ∀ error, result ≠ .error (.error (.fiber error))
  discarded : ∀ id reason, result = .ok (.discarded id reason) →
    reason ≠ .nothingToResumeWith ∧ reason ≠ .namesNoSessions

theorem Faultless.flawless {α : Type} {result : Except OutcomeError α} {error : OutcomeError}
    (faultless : Faultless result) (same : result = .error error) : Flawless (.error error.stop) := by
  cases error with
  | checkpoint error => exact absurd same (faultless error)
  | time error => constructor <;> simp [OutcomeError.stop]

/-- A commit that leaves its flow to be taken up again by any dispatcher. -/
structure Commit.Sustains (recipes : δ → Recipe σ) (found : Option Checkpoint) (commit : Commit σ) :
    Prop where
  secure : commit.written.Secure recipes
  /-- A fiber that is left suspended is the one that the checkpoint describes. -/
  suspended : ∀ suspended, commit.suspended = some suspended →
    ∃ other, Made recipes commit.checkpoint.owner other ∧
      Restores other commit.checkpoint suspended.fiber
  /-- A flow that was not run keeps its continuation. -/
  skipped : commit.ran = false → ∃ cp, found = some cp ∧ cp.SameFlow commit.checkpoint ∧
    commit.checkpoint.continuation = cp.continuation

namespace Plan

variable {recipes : δ → Recipe σ} {settings : Settings} {event : Event}
  {found : Option Checkpoint} {prepared : Prepared}

theorem close_secure {draft : Draft} {suspended : Option (Suspended σ)}
    (secure : draft.checkpoint.Secure recipes) :
    (close settings found prepared (draft, suspended)).written.Secure recipes :=
  ⟨secure.lawful.stamp _ _, secure.names, secure.resumable.of_same rfl rfl rfl⟩

theorem Opens.sustains_skipped (opens : Opens settings event found prepared)
    (secure : ∀ cp, found = some cp → cp.Secure recipes) (decided : prepared.decision = .skip) :
    (close settings found prepared (prepared.draft, none)).Sustains recipes found := by
  obtain ⟨proper, names, resumable⟩ := opens.secure secure
  unfold Prepared.Proper at proper
  rw [decided] at proper
  refine ⟨close_secure ⟨proper, names, resumable⟩, (fun _ left => by cases left), fun _ => ?_⟩
  have prepares := Handler.prepare_prepares opens.prepares
  cases found with
  | none =>
      obtain ⟨_, _, starts⟩ := prepares.starts
      rw [decided] at starts
      cases starts
  | some cp =>
      obtain ⟨same, continuation⟩ := prepares.keeps
      exact ⟨cp, rfl, ⟨same.flowId, same.owner, same.flowName, same.version, same.startArgs,
        same.initiatedBy⟩, continuation⟩

theorem Opens.sustains_unknown (opens : Opens settings event found prepared)
    (secure : ∀ cp, found = some cp → cp.Secure recipes) {running after : Draft} {args : Bytes}
    {name : String} {next : Next} (decided : prepared.decision = .start args)
    (moved : prepared.draft.setStatus .running = .ok running)
    (applied : running.applyOutcome (.failed (.unknownFlow name)) .none .start settings.config
      settings.now = .ok (after, next)) :
    (close settings found prepared (after, none)).Sustains recipes found := by
  obtain ⟨proper, _, resumable⟩ := opens.secure secure
  unfold Prepared.Proper at proper
  rw [decided] at proper
  obtain ⟨_, rfl⟩ := Draft.setStatus_ok.1 moved
  have leaves : (Context.ofCheckpoint prepared.draft.running.checkpoint settings.now).Leaves
      (.failed (.unknownFlow name)) .none := .failed
  have shape := Draft.applyOutcome_ok applied
  obtain ⟨rfl, continuation⟩ := shape.of_failed
  have same := (Draft.running_sameFlow _).trans shape.sameFlow
  refine ⟨close_secure ⟨?_, ?_, ?_⟩, (fun _ left => by cases left), fun skipped => ?_⟩
  · exact applied_lawful proper (fun _ _ impossible => by cases impossible) shape
  · exact Draft.applyOutcome_names leaves applied
  · exact resumable.of_same same.flowId same.owner continuation
  · simp [close, decided, Decision.runs] at skipped

/-- However following the decision of an event on a secure checkpoint ends, it is no fault of the
engine, and what it leads to can be taken up again. -/
theorem Opens.ends (dependable : Dependable recipes) {host : Host σ}
    {result : Except Stop (Draft × Option (Suspended σ))}
    (opens : Opens settings event found prepared)
    (secure : ∀ cp, found = some cp → cp.Secure recipes)
    (made : ∀ exec environments,
      host.environments.acquire prepared.draft.checkpoint.owner = (.ok exec, environments) →
      Made recipes prepared.draft.checkpoint.owner exec)
    (ready : ∀ entrance, prepared.Reaches settings host entrance → entrance.Ready recipes)
    (ends : prepared.Ends settings host result) :
    match result with
    | .error stop => Flawless (.error stop)
    | .ok followed => (close settings found prepared followed).Sustains recipes found := by
  cases ends with
  | skipped decided => exact opens.sustains_skipped secure decided
  | unserved error => constructor <;> simp
  | stuck runs stuck => exact (Draft.setStatus_faultless (opens.moves secure runs)).flawless stuck
  | unknown decided moved applied => exact opens.sustains_unknown secure decided moved applied
  | unfailed decided moved fault =>
      obtain ⟨_, rfl⟩ := Draft.setStatus_ok.1 moved
      exact (Draft.failing_faultless rfl).flawless fault
  | @asleep running value exec environments after stop decided acquired moved asleep =>
      -- The continuation was written by a context of the same recipe, so that it can be read.
      obtain ⟨proper, _, resumable⟩ := opens.secure secure
      unfold Prepared.Proper at proper
      rw [decided] at proper
      obtain ⟨_, rfl⟩ := Draft.setStatus_ok.1 moved
      obtain ⟨continuation, held, _⟩ := proper.resumed value rfl
      obtain ⟨fiber, restored, _⟩ := resumable continuation held exec (made exec environments acquired)
      exact absurd ⟨continuation, held, restored⟩ (awaken_error asleep fiber)
  | broken reached broken =>
      obtain ⟨outcome, ran⟩ := (ready _ reached).run_result dependable settings
      rw [ran] at broken
      cases broken
  | unapplied reached ran fault => exact ((ready _ reached).faultless dependable ran).flawless fault
  | unresumed reached ran applied stuck =>
      have suspended := (Draft.applyOutcome_ok applied).status_of_resume
      have moves : Status.canMoveTo .suspended .running := rfl
      exact (Draft.setStatus_faultless (suspended ▸ moves)).flawless stuck
  | tired => constructor <;> simp
  | concluded reached ran applied =>
      obtain ⟨secure, suspended⟩ := (ready _ reached).secure dependable ran applied
      refine ⟨close_secure secure, suspended, fun skipped => ?_⟩
      rw [close, reached.runs] at skipped
      cases skipped

end Plan

namespace Fleet

variable {π : Type} {recipes : δ → Recipe σ}

namespace Law

/-- Whatever is planned can be taken up again, and no result is a fault. -/
def dependable (recipes : δ → Recipe σ) : Law σ δ :=
  .stocked recipes (fun _ => True) (Write.Describe recipes)
    (fun _ settings event found commit =>
      Plan.Leads settings event found commit ∧ commit.Sustains recipes found)
    Flawless

theorem dependable_led : (dependable recipes : Law σ δ).Led := fun planned => planned.1

theorem Line.secure {flow : FlowId} {writes : List Write}
    (line : (dependable recipes : Law σ δ).Line flow writes) {found : Option Checkpoint}
    (past : Write.Past writes found) : ∀ cp, found = some cp → cp.Secure recipes := by
  refine line.induction (P := (·.Secure recipes)) ?_ past
  intro dispatcher settings event found commit _ _ _ planned
  exact planned.2.secure

theorem dependable_ready (holds : Dependable recipes) {dispatcher : δ} {writes : List Write}
    {host : Host σ} {settings : Settings} {event : Event} {found : Option Checkpoint}
    {prepared : Prepared} (stocked : host.Stocked (recipes dispatcher) (Write.Describe recipes writes))
    (line : (dependable recipes : Law σ δ).Line event.flowId (Write.ofFlow writes event.flowId))
    (past : Write.Past (Write.ofFlow writes event.flowId) found)
    (opens : Plan.Opens settings event found prepared) :
    ∀ entrance, prepared.Reaches settings host entrance → entrance.Ready recipes :=
  fun _ reached => opens.ready holds (line.secure past) stocked (line.isOf dependable_led past)
    (line.numbered dependable_led) past reached

theorem dependable_kept (holds : Dependable recipes) : (dependable recipes : Law σ δ).Kept := by
  apply stocked_kept
  case leads => exact fun planned => planned.1
  case outside =>
    intro ended outside
    cases outside <;> constructor <;> simp
  case append =>
    rintro writes id entry more ⟨write, member, described⟩
    refine ⟨write, ?_, described⟩
    simp only [Write.ofFlow, List.filter_append]
    exact List.mem_append_left _ member
  case plans =>
    intro writes dispatcher settings event found host _ stocked line past
    have secure := line.secure past
    rcases ran : (Plan.ofEvent settings event found).run.run host with ⟨result, after⟩
    have ends := Plan.ofEvent_ends settings event found host
    rw [ran] at ends
    cases ends with
    | terminal finished => constructor <;> simp
    | @refused reason live refuses =>
        have served := Handler.prepare_refuses
          (fun cp here => ⟨(secure cp here).lawful, (secure cp here).names⟩) refuses
        constructor <;> simp [served]
    | untimely untimely => constructor <;> simp
    | @followed prepared result opens ends =>
        have concluded := opens.ends holds secure
          (fun exec _ acquired => ⟨dispatcher, exec.serial, stocked.made acquired⟩)
          (dependable_ready holds stocked line past opens) ends
        cases result with
        | error stop => exact concluded
        | ok followed => exact ⟨Plan.ofEvent_leads ran, concluded⟩
  case suspends =>
    intro writes dispatcher ticket settings event found commit suspended planned line last left
    obtain ⟨other, makes, restores⟩ := planned.2.suspended suspended left
    have isOf := line.isOf dependable_led (.last _)
    rw [last] at isOf
    have flowId : suspended.fiber.flowId = event.flowId := by
      obtain ⟨_, _, restored⟩ := restores
      exact (Fiber.restore_ok restored).2.1.trans (planned.1.flowId_eq isOf)
    refine ⟨⟨ticket, settings, event, commit.written, commit.records⟩, ?_, rfl, other, makes,
      restores.of_same rfl rfl⟩
    simp [Write.ofFlow, flowId]
  case skips =>
    intro writes dispatcher ticket settings event found commit entry planned line last ran _ kept version
    obtain ⟨cp, rfl, same, continuation⟩ := planned.2.skipped ran
    have past := Write.Past.last (Write.ofFlow writes event.flowId)
    rw [last] at past
    have flowId := planned.1.flowId_eq (line.isOf dependable_led past)
    rw [flowId] at kept
    obtain ⟨other, makes, restores⟩ :=
      kept.of_found (line.numbered dependable_led) past (version.trans planned.1.expected)
    refine ⟨⟨ticket, settings, event, commit.written, commit.records⟩, ?_, rfl, other, ?_,
      restores.of_same same.flowId continuation⟩
    · simp [Write.ofFlow, flowId]
    · exact same.owner ▸ makes

end Law

end Fleet

namespace Samples.Echo

theorem keepsToPrimitives : echo.KeepsToPrimitives := by
  intro input logic known ctx world
  cases input with
  | start args =>
      cases known
      rw [run_start]
      cases built : ctx.receive ctx.initiator.toList with
      | error error => exact ⟨.refl, fun _ _ impossible => by cases impossible⟩
      | ok request =>
          refine ⟨.refl, ?_⟩
          rintro _ _ ⟨⟩
          exact ⟨ctx, .refl, .receive built, .refl⟩
  | resume state value =>
      rw [run_resume known]
      refine ⟨.refl, fun _ _ impossible => ?_⟩
      cases heard : value.intoMessages <;> simp [heard, Except.map] at impossible

theorem dependable {δ : Type} : Dependable fun _ : δ => execution := by
  have made {owner : Identity} {exec : ExecutionContext Unit}
      (made : Made (fun _ : δ => execution) owner exec) :
      exec.registry = .ofList [("echo", echo)] ∧ exec.serializer = .json := by
    obtain ⟨_, number, built⟩ := made
    obtain ⟨_, plain, known, registry, serializer⟩ := Recipe.factory_ok built
    cases known
    exact ⟨registry, serializer⟩
  constructor
  · exact fun makes => (made makes).2
  · intro owner exec name flow makes here
    rw [(made makes).1] at here
    rw [SortedMap.eq_of_single here]
    exact keepsToPrimitives
  · intro owner exec other name flow makes makes' here
    rw [(made makes).1] at here
    rw [(made makes').1]
    refine ⟨flow, here, fun _ _ _ _ _ => ?_⟩
    rw [SortedMap.eq_of_single here]
    exact ⟨_, rfl⟩

/-- One dispatcher starts an echo, and another one handles the item that it waits for. -/
def talk : List (Fleet.Move Unit Bool) :=
  [.submit true settings begin, .advance 0, .advance 0, .advance 0, .advance 0,
    .submit false settings (say 1 (.data [104, 105])), .advance 1, .advance 1, .advance 1, .advance 1]

end Samples.Echo

namespace Fleet

variable {π : Type}

/-- Whatever events come in, and however the work of any number of dispatchers on them interleaves,
breaks off and starts again: if the contexts can be relied on, no event ends with a fault of the engine
or is refused for want of anything to resume with, and a fiber is never resumed with a value of another
kind than it waits for. -/
theorem never_at_fault [DecidableEq δ] (publishers : δ → Publisher π) (recipes : δ → Recipe σ)
    (holds : Dependable recipes) (capacity ttl : δ → Nat) (world : δ → σ) (published : π)
    (moves : List (Move σ δ)) :
    let hosts dispatcher :=
      Host.fresh (recipes dispatcher) (capacity dispatcher) (ttl dispatcher) (world dispatcher)
    let fleet := (launch hosts published).run publishers moves
    ∀ errand ∈ fleet.errands,
      (∀ result, errand.stage = .ended result → Flawless result) ∧
      ∀ found entrance value, errand.stage = .loaded found →
        Plan.Reaches errand.settings errand.event found (fleet.hosts errand.dispatcher) entrance →
        entrance.call = .resume value →
        entrance.fiber.parked.map Parked.kind = some value.kind := by
  intro hosts fleet errand member
  have launched : (Law.dependable recipes).Sound (launch hosts published) :=
    Law.sound_launch hosts published fun dispatcher => Host.Stocked.fresh _ _ _ _
  have sound := Law.sound_of_run (Law.dependable_kept holds) publishers launched moves
    fun _ _ _ _ => trivial
  have tracks := (sound.errands errand member).2
  constructor
  · intro result stage
    rw [Law.Tracks, stage] at tracks
    exact tracks
  · intro found entrance value stage reached called
    rw [Law.Tracks, stage] at tracks
    obtain ⟨prepared, opens, reached⟩ := reached
    have ready := Law.dependable_ready holds (sound.hosts errand.dispatcher)
      (sound.lines errand.event.flowId) tracks opens entrance reached
    have fits := ready.fits
    rw [called] at fits
    exact fits.2.2

/-- Two dispatchers bring an echo to its end without a fault. -/
theorem never_at_fault_of_two :
    let hosts (_ : Bool) := Host.fresh Echo.execution 1 1000 ()
    let fleet := (launch hosts []).run (fun _ => .collecting) Echo.talk
    (fleet.stored.get? Echo.flow).map (·.status) = some .completed ∧
      ∀ errand ∈ fleet.errands, ∀ result, errand.stage = .ended result → Flawless result := by
  refine ⟨by decide +kernel, fun errand member => ?_⟩
  exact (never_at_fault (fun _ => .collecting) (fun _ => Echo.execution) Echo.dependable (fun _ => 1)
    (fun _ => 1000) (fun _ => ()) [] Echo.talk errand member).1

end Fleet

end DurableFlow
