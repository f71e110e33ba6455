import DurableFlow.Proofs.Fleets
import DurableFlow.Proofs.Primitives

/-! # Entrances into flow logic

Following the decision of an event on a host comes to one entrance into flow logic after another:
`Prepared.Reaches` says to which, and `Prepared.Ends` how that ends, in a draft or at a fault.
Nothing else can happen, whatever the logic does and whichever fibers are kept, `follow_ends`; so
what holds at the first entrance and is kept from one to the next settles every end.
-/

namespace DurableFlow

open Stateful

variable {σ : Type}

/-- How the fiber of a flow is called. -/
inductive FiberCall where
  | start (args : Bytes)
  | resume (value : Resumed)

def FiberCall.attempt : FiberCall → Attempt
  | .start _ => .start
  | .resume value => .resume value

/-- A point at which a fiber is called for a draft. -/
structure Entrance (σ : Type) where
  exec : ExecutionContext σ
  draft : Draft
  fiber : Fiber σ
  call : FiberCall
  world : σ

namespace Entrance

/-- The context that flow logic begins with. -/
def context (entrance : Entrance σ) (settings : Settings) : Context :=
  .ofCheckpoint entrance.draft.checkpoint settings.now

def run (entrance : Entrance σ) (settings : Settings) : FiberRun σ :=
  match entrance.call with
  | .start args =>
    entrance.fiber.start entrance.exec args (entrance.context settings) entrance.world
  | .resume value =>
    entrance.fiber.resume entrance.exec value (entrance.context settings) entrance.world

/-- Write an outcome of the fiber into the draft. -/
def apply (entrance : Entrance σ) (settings : Settings) (outcome : FiberOutcome) :
    Except OutcomeError (Draft × Next) :=
  entrance.draft.applyOutcome outcome (entrance.run settings).context.effects entrance.call.attempt
    settings.config settings.now

/-- What the fiber did, if it came to an outcome. -/
def entry (entrance : Entrance σ) (settings : Settings) (outcome : FiberOutcome) : Hosted.Entry σ :=
  let left := entrance.run settings
  ⟨left.fiber, outcome, left.context.effects, entrance.call.attempt⟩

/-- The entrance at which the fiber is resumed in place. -/
def again (entrance : Entrance σ) (settings : Settings) (draft : Draft) (value : Resumed) :
    Entrance σ :=
  ⟨entrance.exec, draft, (entrance.run settings).fiber, .resume value, (entrance.run settings).world⟩

theorem calls {entrance : Entrance σ} {settings : Settings} {outcome : FiberOutcome}
    (ran : (entrance.run settings).result = .ok outcome) :
    entrance.fiber.Calls (entrance.context settings) outcome (entrance.run settings) ∧
      entrance.fiber.Left entrance.exec outcome (entrance.run settings).fiber := by
  rcases entrance with ⟨exec, draft, fiber, call, world⟩
  cases call with
  | start args => exact ⟨Fiber.start_calls ran, Fiber.start_left ran⟩
  | resume value => exact ⟨Fiber.resume_calls ran, Fiber.resume_left ran⟩

end Entrance

/-- The stop that an outcome which cannot be written leads to. -/
def OutcomeError.stop : OutcomeError → Stop
  | .checkpoint error => .error (.checkpoint error)
  | .time error => .time error

namespace Prepared

/-- The entrances that following a decision on a host comes to, however often it may enter flow
logic. -/
inductive Reaches (settings : Settings) (prepared : Prepared) (host : Host σ) : Entrance σ → Prop where
  | started {running : Draft} {args : Bytes} {exec : ExecutionContext σ}
      {environments : Environments σ} {fiber : Fiber σ}
      (decided : prepared.decision = .start args)
      (acquired : host.environments.acquire prepared.draft.checkpoint.owner = (.ok exec, environments))
      (moved : prepared.draft.setStatus .running = .ok running)
      (created : Fiber.forFlow exec running.checkpoint.flowId running.checkpoint.flowName = .ok fiber) :
      Reaches settings prepared host ⟨exec, running, fiber, .start args, host.world⟩
  | woken {running : Draft} {value : Resumed} {exec : ExecutionContext σ}
      {environments : Environments σ} {fiber : Fiber σ} {after : Host σ}
      (decided : prepared.decision = .resume value)
      (acquired : host.environments.acquire prepared.draft.checkpoint.owner = (.ok exec, environments))
      (moved : prepared.draft.setStatus .running = .ok running)
      (awake : (Hosted.awaken exec running.checkpoint settings.instant).run.run
        { host with environments } = (.ok fiber, after)) :
      Reaches settings prepared host ⟨exec, running, fiber, .resume value, after.world⟩
  | again {entrance : Entrance σ} {outcome : FiberOutcome} {taken running : Draft} {value : Resumed}
      (reached : Reaches settings prepared host entrance)
      (ran : (entrance.run settings).result = .ok outcome)
      (applied : entrance.apply settings outcome = .ok (taken, .resume value))
      (moved : taken.setStatus .running = .ok running) :
      Reaches settings prepared host (entrance.again settings running value)

theorem Reaches.runs {settings : Settings} {prepared : Prepared} {host : Host σ}
    {entrance : Entrance σ} (reached : prepared.Reaches settings host entrance) :
    prepared.decision.runs := by
  induction reached with
  | started decided | woken decided =>
      rw [decided]
      rfl
  | again _ _ _ _ ih => exact ih

/-- How following a decision on a host ends. -/
inductive Ends (settings : Settings) (prepared : Prepared) (host : Host σ) :
    Except Stop (Draft × Option (Hosted.Suspended σ)) → Prop where
  | skipped (decided : prepared.decision = .skip) :
      Ends settings prepared host (.ok (prepared.draft, none))
  | unserved (error : EnvironmentError) :
      Ends settings prepared host (.error (.error (.environment error)))
  | stuck {error : OutcomeError} (runs : prepared.decision.runs)
      (stuck : prepared.draft.setStatus .running = .error error) :
      Ends settings prepared host (.error error.stop)
  /-- The flow fails since its context does not know it. -/
  | unknown {running after : Draft} {args : Bytes} {name : String} {next : Next}
      {exec : ExecutionContext σ} {environments : Environments σ} {error : FiberError}
      (decided : prepared.decision = .start args)
      (moved : prepared.draft.setStatus .running = .ok running)
      (applied : running.applyOutcome (.failed (.unknownFlow name)) .none .start settings.config
        settings.now = .ok (after, next))
      (acquired : host.environments.acquire prepared.draft.checkpoint.owner = (.ok exec, environments))
      (uncreated : Fiber.forFlow exec running.checkpoint.flowId running.checkpoint.flowName =
        .error error) :
      Ends settings prepared host (.ok (after, none))
  | unfailed {running : Draft} {args : Bytes} {name : String} {error : OutcomeError}
      (decided : prepared.decision = .start args)
      (moved : prepared.draft.setStatus .running = .ok running)
      (fault : running.applyOutcome (.failed (.unknownFlow name)) .none .start settings.config
        settings.now = .error error) :
      Ends settings prepared host (.error error.stop)
  | asleep {running : Draft} {value : Resumed} {exec : ExecutionContext σ}
      {environments : Environments σ} {after : Host σ} {stop : Stop}
      (decided : prepared.decision = .resume value)
      (acquired : host.environments.acquire prepared.draft.checkpoint.owner = (.ok exec, environments))
      (moved : prepared.draft.setStatus .running = .ok running)
      (asleep : (Hosted.awaken exec running.checkpoint settings.instant).run.run
        { host with environments } = (.error stop, after)) :
      Ends settings prepared host (.error stop)
  | broken {entrance : Entrance σ} {error : FiberError}
      (reached : Reaches settings prepared host entrance)
      (broken : (entrance.run settings).result = .error error) :
      Ends settings prepared host (.error (.error (.fiber error)))
  | unapplied {entrance : Entrance σ} {outcome : FiberOutcome} {error : OutcomeError}
      (reached : Reaches settings prepared host entrance)
      (ran : (entrance.run settings).result = .ok outcome)
      (fault : entrance.apply settings outcome = .error error) :
      Ends settings prepared host (.error error.stop)
  | unresumed {entrance : Entrance σ} {outcome : FiberOutcome} {taken : Draft} {value : Resumed}
      {error : OutcomeError} (reached : Reaches settings prepared host entrance)
      (ran : (entrance.run settings).result = .ok outcome)
      (applied : entrance.apply settings outcome = .ok (taken, .resume value))
      (stuck : taken.setStatus .running = .error error) :
      Ends settings prepared host (.error error.stop)
  | tired : Ends settings prepared host (.error .entryLimit)
  | concluded {entrance : Entrance σ} {outcome : FiberOutcome} {after : Draft}
      (reached : Reaches settings prepared host entrance)
      (ran : (entrance.run settings).result = .ok outcome)
      (applied : entrance.apply settings outcome = .ok (after, .done)) :
      Ends settings prepared host
        (.ok (after, Hosted.suspended? entrance.exec (entrance.run settings).fiber))

end Prepared

namespace Hosted

variable {settings : Settings} {prepared : Prepared} {host : Host σ}

theorem run_ofOutcome {α : Type} (result : Except OutcomeError α) (host : Host σ) :
    (ofOutcome result).run.run host = (result.mapError OutcomeError.stop, host) := by
  rw [ofOutcome, run_result]
  rcases result with (_ | _) | _ <;> rfl

theorem conclude_ends {fuel : Nat} {entrance : Entrance σ} {outcome : FiberOutcome} {after : Host σ}
    (reached : prepared.Reaches settings host entrance)
    (ran : (entrance.run settings).result = .ok outcome)
    (world : after.world = (entrance.run settings).world) :
    prepared.Ends settings host ((conclude entrance.exec settings fuel entrance.draft
      (entrance.entry settings outcome) >>= fun left =>
        pure (left.1, suspended? entrance.exec left.2)).run.run after).1 := by
  induction fuel generalizing entrance outcome after with
  | zero => exact .tired
  | succ fuel ih =>
      have same : entrance.apply settings outcome = entrance.draft.applyOutcome
        (entrance.entry settings outcome).outcome (entrance.entry settings outcome).effects
        (entrance.entry settings outcome).attempt settings.config settings.now := rfl
      rw [conclude, bind_assoc, run_bind, run_ofOutcome, ← same]
      cases applied : entrance.apply settings outcome with
      | error error => exact .unapplied reached ran applied
      | ok result =>
          obtain ⟨taken, next⟩ := result
          cases next with
          | done => exact .concluded reached ran applied
          | resume value =>
              simp only [mapError_ok]
              rw [bind_assoc, run_bind, run_ofOutcome]
              cases moved : taken.setStatus .running with
              | error error => exact .unresumed reached ran applied moved
              | ok running =>
                  simp only [mapError_ok]
                  rw [bind_assoc, run_bind, run_enter]
                  have reached := reached.again ran applied moved
                  have called : (entrance.again settings running value).run settings =
                      (entrance.entry settings outcome).fiber.resume entrance.exec value
                        (Context.ofCheckpoint running.checkpoint settings.now) after.world := by
                    rw [world]
                    rfl
                  rw [← called]
                  cases again : ((entrance.again settings running value).run settings).result with
                  | error error => exact .broken reached again
                  | ok outcome => exact ih reached again rfl

theorem enter_ends {entrance : Entrance σ} (after : Host σ)
    (reached : prepared.Reaches settings host entrance) (world : after.world = entrance.world)
    (call : σ → FiberRun σ) (called : call entrance.world = entrance.run settings) :
    prepared.Ends settings host ((enter entrance.call.attempt call >>= fun entry =>
      conclude entrance.exec settings settings.entryLimit entrance.draft entry >>= fun left =>
        pure (left.1, suspended? entrance.exec left.2)).run.run after).1 := by
  rw [run_bind, run_enter, world, called]
  cases ran : (entrance.run settings).result with
  | error error => exact .broken reached ran
  | ok outcome => exact conclude_ends reached ran rfl

/-- However the decision of an event is followed, it ends as `Prepared.Ends` says. -/
theorem follow_ends (settings : Settings) (prepared : Prepared) (host : Host σ) :
    prepared.Ends settings host ((follow settings prepared).run.run host).1 := by
  rcases prepared with ⟨draft, args | value | _⟩
  · rw [follow_start, run_bind, run_acquire]
    rcases acquired : host.environments.acquire draft.checkpoint.owner with ⟨error | exec, environments⟩
    · exact .unserved error
    · simp only [mapError_ok]
      rw [begin, run_bind, run_ofOutcome]
      cases moved : draft.setStatus .running with
      | error error => exact .stuck rfl moved
      | ok running =>
          simp only [mapError_ok, start]
          split
          next name unknown =>
            rw [run_bind, run_ofOutcome]
            cases applied : running.applyOutcome (.failed (.unknownFlow name)) .none .start
              settings.config settings.now with
            | error error => exact .unfailed rfl moved applied
            | ok result => exact .unknown rfl moved applied acquired unknown
          next known =>
            rw [run_bind, ofFiber, run_result]
            cases created : Fiber.forFlow exec running.checkpoint.flowId running.checkpoint.flowName with
            | error error =>
                -- An unknown name is the only fault of making a fiber.
                have unknown := created
                unfold Fiber.forFlow at unknown
                split at unknown
                · cases unknown
                · cases unknown
                  exact absurd created (known _)
            | ok fiber =>
                have reached : Prepared.Reaches settings ⟨draft, .start args⟩ host _ :=
                  .started rfl acquired moved created
                exact enter_ends { host with environments } reached rfl
                  (fiber.start exec args (.ofCheckpoint running.checkpoint settings.now)) rfl
  · rw [follow_resume, run_bind, run_acquire]
    rcases acquired : host.environments.acquire draft.checkpoint.owner with ⟨error | exec, environments⟩
    · exact .unserved error
    · simp only [mapError_ok]
      rw [run_bind, run_ofOutcome]
      cases moved : draft.setStatus .running with
      | error error => exact .stuck rfl moved
      | ok running =>
          simp only [mapError_ok]
          rw [run_bind]
          rcases awake : (awaken exec running.checkpoint settings.instant).run.run
            { host with environments } with ⟨stop | fiber, after⟩
          · exact .asleep rfl acquired moved awake
          · have reached : Prepared.Reaches settings ⟨draft, .resume value⟩ host _ :=
              .woken rfl acquired moved awake
            exact enter_ends after reached rfl
              (fiber.resume exec value (.ofCheckpoint running.checkpoint settings.now)) rfl
  · exact .skipped rfl

end Hosted

/-- An event applies to a flow that is not over. -/
structure Plan.Opens (settings : Settings) (event : Event) (found : Option Checkpoint)
    (prepared : Prepared) : Prop where
  live : ∀ cp, found = some cp → cp.isTerminal = false
  prepares : Handler.prepare event.flowId event.payload settings.config settings.now found =
    .ok prepared

namespace Plan

/-- The entrances into flow logic that planning an event on a host comes to. -/
def Reaches (settings : Settings) (event : Event) (found : Option Checkpoint) (host : Host σ)
    (entrance : Entrance σ) : Prop :=
  ∃ prepared, Opens settings event found prepared ∧ prepared.Reaches settings host entrance

/-- What is to be written once a decision has been followed. -/
def close (settings : Settings) (found : Option Checkpoint) (prepared : Prepared)
    (followed : Draft × Option (Hosted.Suspended σ)) : Commit σ where
  checkpoint := { followed.1.checkpoint with updatedAt := settings.now }
  expected := (found.map (·.version)).getD 0
  records := followed.1.records
  ran := prepared.decision.runs
  suspended := followed.2

/-- How planning an event on a host ends. -/
inductive Ends (settings : Settings) (event : Event) (found : Option Checkpoint) (host : Host σ) :
    Except Stop (Plan σ) → Prop where
  | terminal {cp : Checkpoint} (finished : found.filter Checkpoint.isTerminal = some cp) :
      Ends settings event found host (.ok (.discard (.alreadyOver cp.status)))
  | refused {reason : Refusal} (live : ∀ cp, found = some cp → cp.isTerminal = false)
      (refuses : Handler.prepare event.flowId event.payload settings.config settings.now found =
        .error (.refused reason)) :
      Ends settings event found host (.ok (.discard reason))
  | untimely {error : TimeError}
      (untimely : Handler.prepare event.flowId event.payload settings.config settings.now found =
        .error (.time error)) :
      Ends settings event found host (.error (.time error))
  | followed {prepared : Prepared} {result : Except Stop (Draft × Option (Hosted.Suspended σ))}
      (opens : Opens settings event found prepared) (ends : prepared.Ends settings host result) :
      Ends settings event found host
        (result.map fun followed => .commit (close settings found prepared followed))

theorem ofEvent_ends (settings : Settings) (event : Event) (found : Option Checkpoint)
    (host : Host σ) : Ends settings event found host ((ofEvent settings event found).run.run host).1 := by
  unfold ofEvent
  split
  next cp finished => exact .terminal finished
  next live =>
    have live : ∀ cp, found = some cp → cp.isTerminal = false := by
      rintro cp rfl
      simpa using live
    split
    next reason refuses => exact .refused live refuses
    next error untimely => exact .untimely untimely
    next prepared prepares =>
      have opens : Opens settings event found prepared := ⟨live, prepares⟩
      have ends := Ends.followed opens (Hosted.follow_ends settings prepared host)
      rw [ofPrepared, run_bind]
      rcases ran : (Hosted.follow settings prepared).run.run host with ⟨stop | followed, after⟩
      · rw [ran] at ends
        exact ends
      · rw [ran] at ends
        exact ends

/-- A commit closes what following the decision of its event has led to. -/
theorem ofEvent_followed {settings : Settings} {event : Event} {found : Option Checkpoint}
    {host after : Host σ} {commit : Commit σ}
    (ran : (ofEvent settings event found).run.run host = (.ok (.commit commit), after)) :
    ∃ prepared followed, Opens settings event found prepared ∧
      prepared.Ends settings host (.ok followed) ∧ commit = close settings found prepared followed := by
  have ends := ofEvent_ends settings event found host
  rw [ran] at ends
  generalize planned : Except.ok (Plan.commit commit) = result at ends
  cases ends with
  | terminal | refused | untimely => cases planned
  | @followed prepared result opens ends =>
      cases result with
      | error stop => cases planned
      | ok followed =>
          cases planned
          exact ⟨prepared, followed, opens, ends, rfl⟩

end Plan

end DurableFlow
