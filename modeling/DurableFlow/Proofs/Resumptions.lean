import DurableFlow.Proofs.Lifetimes
import DurableFlow.Proofs.Waits

/-! # How flows come to be resumed

Flow logic is resumed by an event that ends the wait of its flow, in place if a wait is over as soon as
it begins, or once more with what a failed resume was given: `Entrance.Resumes`. The first two give it
what the wait allows, where the confirmations are those that all writes of the flow have brought since
its logic was last entered, `Write.confirmations`.
-/

namespace DurableFlow

open Hosted Samples

variable {σ δ : Type}

/-- Whether an event has flow logic entered. -/
def Event.enters (event : Event) (settings : Settings) (found : Option Checkpoint) : Bool :=
  match Handler.prepare event.flowId event.payload settings.config settings.now found with
  | .ok prepared => prepared.decision.runs
  | .error _ => false

namespace Write

/-- The confirmations that have come in since flow logic was last entered, given the writes of the
flow, the latest one first. -/
def counted : List Write → Nat
  | [] => 0
  | write :: before =>
    if write.event.enters write.settings (before.head?.map (·.checkpoint)) then 0
    else counted before + write.event.payload.confirmations

/-- The confirmations that the writes of a flow have brought since its wait began, that is, since flow
logic was last entered. -/
def confirmations (writes : List Write) : Nat := counted writes.reverse

theorem confirmations_concat (writes : List Write) (write : Write) :
    confirmations (writes ++ [write]) =
      if write.event.enters write.settings (last? writes) then 0
      else confirmations writes + write.event.payload.confirmations := by
  rw [confirmations, List.reverse_concat, counted, List.head?_reverse]
  rfl

theorem Past.split {writes : List Write} {found : Option Checkpoint} (past : Past writes found) :
    ∃ earlier later, writes = earlier ++ later ∧ last? earlier = found := by
  rcases past with rfl | ⟨write, member, rfl⟩
  · exact ⟨[], writes, rfl, rfl⟩
  · obtain ⟨earlier, later, rfl⟩ := List.append_of_mem member
    exact ⟨earlier ++ [write], later, by simp, by simp [last?]⟩

end Write

/-- How flow logic comes to be resumed at an entrance, given how many confirmations had come in for the
wait before the event. -/
inductive Entrance.Resumes (settings : Settings) (event : Event) (found : Option Checkpoint)
    (prepared : Prepared) (host : Host σ) (counted : Nat) : Entrance σ → Prop where
  /-- A resume that has failed is replayed. -/
  | replayed {cp : Checkpoint} {value : Resumed} {exec : ExecutionContext σ} {fiber : Fiber σ} {world : σ}
      (here : found = some cp) (retries : event.Retries cp settings.now)
      (pending : cp.pendingResume = some value) :
      Resumes settings event found prepared host counted
        ⟨exec, prepared.draft.running, fiber, .resume value, world⟩
  /-- The event ends the wait of the flow. -/
  | answered {cp : Checkpoint} {value : Resumed} {exec : ExecutionContext σ} {fiber : Fiber σ} {world : σ}
      (here : found = some cp)
      (allows : cp.waitingFor.Allows (Handler.waiting event.payload found prepared).sessions
        (counted + event.payload.confirmations) settings.now value) :
      Resumes settings event found prepared host counted
        ⟨exec, prepared.draft.running, fiber, .resume value, world⟩
  /-- The wait that the outcome of another entrance leads to is over as soon as it begins. -/
  | inPlace {entrance : Entrance σ} {outcome : FiberOutcome} {written taken : Draft} {value : Resumed}
      (reached : prepared.Reaches settings host entrance)
      (ran : (entrance.run settings).result = .ok outcome)
      (wrote : entrance.draft.write outcome (entrance.run settings).context.effects
        entrance.call.attempt settings.config settings.now = .ok written)
      (answers : written.answerWait = (taken, .resume value))
      (allows : written.checkpoint.waitingFor.Allows written.checkpoint.sessions 0 settings.now value) :
      Resumes settings event found prepared host counted
        (entrance.again settings taken.running value)

theorem Entrance.names_once {entrance : Entrance σ} {settings : Settings} {outcome : FiberOutcome}
    (once : entrance.fiber.logic.NamesOnce) (ran : (entrance.run settings).result = .ok outcome) :
    ∀ request continuation, outcome = .suspended request continuation → request.awaited.Nodup := by
  intro request continuation same
  obtain ⟨_, _, suspends⟩ := (Entrance.calls ran).1.suspends request continuation same
  exact once _ _ _ _ suspends

/-- What a commit makes of the wait of its flow. -/
structure Commit.Awaits (settings : Settings) (event : Event) (found : Option Checkpoint)
    (commit : Commit σ) : Prop where
  awaits : ∀ counted, (∀ cp, found = some cp → cp.Awaits counted) →
    commit.written.Awaits
      (if event.enters settings found then 0 else counted + event.payload.confirmations)
  /-- A fiber that is left suspended is one of a flow that names no session twice. -/
  suspended : ∀ suspended, commit.suspended = some suspended → suspended.fiber.logic.NamesOnce

namespace Plan.Opens

variable {settings : Settings} {event : Event} {found : Option Checkpoint} {prepared : Prepared}
  {recipe : Recipe σ} {host : Host σ}

/-- Every entrance into flow logic is as it should be: a stored flow is started for a retry only, and
resumed as its wait allows. -/
theorem resumes (opens : Opens settings event found prepared) {counted : Nat}
    (awaits : ∀ cp, found = some cp → cp.Awaits counted) (once : recipe.Offers (·.NamesOnce))
    (stocked : host.Stocked recipe fun _ entry => entry.fiber.logic.NamesOnce)
    {entrance : Entrance σ} (reached : prepared.Reaches settings host entrance) :
    match entrance.call with
    | .start _ => ∀ cp, found = some cp → event.Retries cp settings.now
    | .resume _ => entrance.Resumes settings event found prepared host counted := by
  cases reached with
  | started decided acquired moved created =>
      rintro cp rfl
      exact opens.retries decided
  | woken decided acquired moved awake =>
      obtain ⟨_, rfl⟩ := Draft.setStatus_ok.1 moved
      cases found with
      | none =>
          obtain ⟨_, _, starts⟩ := (Handler.prepare_prepares opens.prepares).starts
          rw [decided] at starts
          cases starts
      | some cp =>
          rcases opens.allows (awaits cp rfl) decided with ⟨retries, pending⟩ | allows
          · exact .replayed rfl retries pending
          · exact .answered rfl allows
  | again reached ran applied moved =>
      obtain ⟨written, wrote, answers⟩ := Draft.write_of_applyOutcome applied
      obtain ⟨_, rfl⟩ := Draft.setStatus_ok.1 moved
      have sound := Draft.write_sound wrote
        (Entrance.names_once (reached.logic once stocked) ran)
      exact .inPlace reached ran wrote answers (Draft.allows_of_answerWait sound answers _)

theorem closes (opens : Opens settings event found prepared) (once : recipe.Offers (·.NamesOnce))
    (stocked : host.Stocked recipe fun _ entry => entry.fiber.logic.NamesOnce)
    {followed : Draft × Option (Suspended σ)} (ends : prepared.Ends settings host (.ok followed)) :
    (close settings found prepared followed).Awaits settings event found := by
  refine ⟨fun counted awaits => ?_, ends.logic once stocked⟩
  have enters : event.enters settings found = prepared.decision.runs := by
    rw [Event.enters, opens.prepares]
  have drafted : followed.1.checkpoint.Awaits
      (if prepared.decision.runs then 0 else counted + event.payload.confirmations) := by
    cases ends with
    | skipped decided =>
        rw [decided]
        exact opens.awaits awaits decided
    | unknown decided moved applied =>
        rw [decided]
        obtain ⟨rfl, _⟩ := (Draft.applyOutcome_ok applied).of_failed
        refine Draft.applyOutcome_awaits applied ?_
        rintro _ _ ⟨⟩
    | concluded reached ran applied =>
        rw [if_pos reached.runs]
        exact Draft.applyOutcome_awaits applied
          (Entrance.names_once (reached.logic once stocked) ran)
  rw [enters]
  exact ⟨drafted.sound, drafted.unready⟩

end Plan.Opens

namespace Samples.Echo

theorem namesOnce : echo.NamesOnce := by
  rintro ctx state request effects ⟨input, logic, world, known, ran, rfl⟩
  cases input with
  | start args =>
      cases known
      rw [run_start] at ran
      cases built : ctx.receive ctx.initiator.toList with
      | error error =>
          rw [built] at ran
          cases ran
      | ok asked =>
          rw [built] at ran
          cases ran
          rw [Context.receive_ok built]
          cases ctx.initiator <;> simp [Request.awaited]
  | resume state value =>
      rw [run_resume known] at ran
      cases heard : value.intoMessages <;> simp [heard, Except.map] at ran

/-- An echo is started, and the item that it waits for is about to be handled. -/
def hearing : List (Fleet.Move Unit Unit) :=
  [.submit () settings begin, .advance 0, .advance 0, .advance 0, .advance 0,
    .submit () settings (say 1 (.data [104, 105])), .advance 1]

end Samples.Echo

namespace Fleet

variable {π : Type} {recipes : δ → Recipe σ}

namespace Law

/-- Whatever is planned keeps the waits of flows as they should be. -/
def awaiting (recipes : δ → Recipe σ) : Law σ δ :=
  .stocked recipes (fun _ => True) (fun _ _ entry => entry.fiber.logic.NamesOnce)
    (fun _ settings event found commit =>
      Plan.Leads settings event found commit ∧ commit.Awaits settings event found)
    fun _ => True

theorem awaiting_kept (once : ∀ dispatcher, (recipes dispatcher).Offers (·.NamesOnce)) :
    (awaiting recipes : Law σ δ).Kept := by
  apply stocked_kept
  case leads => exact fun planned => planned.1
  case outside => exact fun _ => trivial
  case append => exact fun _ kept => kept
  case suspends => exact fun planned _ _ left => planned.2.suspended _ left
  case skips => exact fun _ _ _ _ _ kept _ => kept
  case plans =>
    intro writes dispatcher settings event found host _ stocked line past
    rcases ran : (Plan.ofEvent settings event found).run.run host with ⟨stop | reason | commit, after⟩
    · trivial
    · trivial
    · obtain ⟨prepared, followed, opens, ends, rfl⟩ := Plan.ofEvent_followed ran
      exact ⟨Plan.ofEvent_leads ran, opens.closes (once dispatcher) stocked ends⟩

namespace Line

variable {flow : FlowId} {writes : List Write}

/-- The last checkpoint of a flow awaits what its writes have not brought. -/
theorem awaits (line : (awaiting recipes : Law σ δ).Line flow writes) :
    ∀ cp, Write.last? writes = some cp → cp.Awaits (Write.confirmations writes) := by
  induction line with
  | nil =>
      intro cp impossible
      cases impossible
  | write line mine allowed planned ih =>
      rintro cp last
      rw [Write.last?, List.getLast?_concat, Option.map_some, Option.some.injEq] at last
      subst last
      rw [Write.confirmations_concat]
      exact planned.2.awaits _ ih

theorem of_append {law : Law σ δ} {earlier later : List Write}
    (line : law.Line flow (earlier ++ later)) : law.Line flow earlier := by
  generalize same : earlier ++ later = writes at line
  induction line generalizing later with
  | nil =>
      rw [(List.append_eq_nil_iff.1 same).1]
      exact .nil
  | write line mine allowed planned ih =>
      rcases List.eq_nil_or_concat later with rfl | ⟨init, last, rfl⟩
      · rw [List.append_nil] at same
        exact same ▸ .write line mine allowed planned
      · rw [List.concat_eq_append, ← List.append_assoc] at same
        exact ih (List.append_inj' same rfl).1

end Line

end Law

/-- However the work of any number of dispatchers interleaves, breaks off and starts again: if flow
logic names no session twice in a request, each resume gives it what the wait allows that it ends, but
for those that replay one which has failed. There are replays, of starts as well, only at a wake-up after
the stored delay. The confirmations that a wait has counted are those which the writes of the flow, up to
the checkpoint that was loaded, and the event itself have brought since it began. -/
theorem resumed_as_allowed [DecidableEq δ] (publishers : δ → Publisher π) (recipes : δ → Recipe σ)
    (once : ∀ dispatcher, (recipes dispatcher).Offers (·.NamesOnce)) (capacity ttl : δ → Nat)
    (world : δ → σ) (published : π) (moves : List (Move σ δ)) :
    let hosts dispatcher :=
      Host.fresh (recipes dispatcher) (capacity dispatcher) (ttl dispatcher) (world dispatcher)
    let fleet := (launch hosts published).run publishers moves
    ∀ errand ∈ fleet.errands, ∀ found, errand.stage = .loaded found →
      ∃ earlier later, Write.ofFlow fleet.writes errand.event.flowId = earlier ++ later ∧
        Write.last? earlier = found ∧
        ∀ prepared entrance, Plan.Opens errand.settings errand.event found prepared →
          prepared.Reaches errand.settings (fleet.hosts errand.dispatcher) entrance →
          match entrance.call with
          | .start _ => ∀ cp, found = some cp → errand.event.Retries cp errand.settings.now
          | .resume _ => entrance.Resumes errand.settings errand.event found prepared
              (fleet.hosts errand.dispatcher) (Write.confirmations earlier) := by
  intro hosts fleet errand member found stage
  have launched : (Law.awaiting recipes).Sound (launch hosts published) :=
    Law.sound_launch hosts published fun dispatcher => Host.Stocked.fresh _ _ _ _
  have sound := Law.sound_of_run (Law.awaiting_kept once) publishers launched moves
    fun _ _ _ _ => trivial
  have past := (sound.errands errand member).2
  rw [Law.Tracks, stage] at past
  obtain ⟨earlier, later, whole, last⟩ := Write.Past.split past
  refine ⟨earlier, later, whole, last, fun prepared entrance opens reached => ?_⟩
  have line := sound.lines errand.event.flowId
  rw [whole] at line
  have awaits := line.of_append.awaits
  rw [last] at awaits
  exact opens.resumes awaits (once errand.dispatcher) (sound.hosts errand.dispatcher) reached

/-- An echo is resumed with the item that it waits for. -/
theorem resumed_as_allowed_of_echo :
    let fleet := (launch (fun _ => Host.fresh Echo.execution 1 1000 ()) []).run
      (fun _ => .collecting) Echo.hearing
    ∃ errand ∈ fleet.errands, ∃ (found : Option Checkpoint) (prepared : Prepared)
        (entrance : Entrance Unit) (received : Messages) (counted : Nat),
      errand.stage = .loaded found ∧ entrance.call = .resume (.messages received) ∧
      received.get? Echo.session = some [104, 105] ∧
      entrance.Resumes errand.settings errand.event found prepared (fleet.hosts ()) counted := by
  intro fleet
  have resumed := resumed_as_allowed (fun _ => .collecting) (fun _ => Echo.execution)
    (fun _ => Echo.execution_offers Echo.namesOnce) (fun _ => 1) (fun _ => 1000) (fun _ => ()) []
    Echo.hearing
  have waiting : fleet.errands[1]? = some ⟨(), Echo.settings, Echo.say 1 (.data [104, 105]),
      .loaded (fleet.stored.get? Echo.flow)⟩ := rfl
  have member := List.mem_of_getElem? waiting
  obtain ⟨earlier, _, _, _, resumes⟩ := resumed _ member _ rfl
  have opens : Plan.Opens Echo.settings (Echo.say 1 (.data [104, 105]))
      (fleet.stored.get? Echo.flow) _ := ⟨fun cp here => by cases here; rfl, rfl⟩
  have resumes := resumes _ _ opens (.woken rfl rfl rfl (by rw [run_awaken]; rfl))
  exact ⟨_, member, _, _, _, _, _, rfl, rfl, rfl, resumes⟩

end Fleet

end DurableFlow
