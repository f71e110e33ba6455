import DurableFlow.Proofs.Entrances

/-! # What flow logic comes to

Planning an event enters flow logic once after another, and each time the logic comes to an outcome.
`Plan.outcomes` lists these outcomes: it takes the steps that planning takes, on the same host. A commit
meets just the outcomes that are listed, one after the other, and nothing else of what flow logic does
has a part in it, `Plan.ofEvent_meets`.
-/

namespace DurableFlow

open Stateful

variable {σ : Type}

namespace Entrance

/-- The entrance at which flow logic is resumed in place after an outcome, if it is. -/
def next? (entrance : Entrance σ) (settings : Settings) (outcome : FiberOutcome) :
    Option (Entrance σ) :=
  match entrance.apply settings outcome with
  | .ok (taken, .resume value) =>
    match taken.setStatus .running with
    | .ok running => some (entrance.again settings running value)
    | .error _ => none
  | _ => none

/-- The outcomes that flow logic comes to from an entrance on, up to a limit. -/
def outcomes (settings : Settings) : Nat → Entrance σ → List FiberOutcome
  | 0, _ => []
  | limit + 1, entrance =>
    match (entrance.run settings).result with
    | .error _ => []
    | .ok outcome =>
      outcome :: match entrance.next? settings outcome with
        | some next => next.outcomes settings limit
        | none => []

theorem next?_eq_none {entrance : Entrance σ} {settings : Settings} {outcome : FiberOutcome}
    {after : Draft} (applied : entrance.apply settings outcome = .ok (after, .done)) :
    entrance.next? settings outcome = none := by
  rw [next?, applied]

theorem next?_eq_some {entrance : Entrance σ} {settings : Settings} {outcome : FiberOutcome}
    {taken running : Draft} {value : Resumed}
    (applied : entrance.apply settings outcome = .ok (taken, .resume value))
    (moved : taken.setStatus .running = .ok running) :
    entrance.next? settings outcome = some (entrance.again settings running value) := by
  simp only [next?, applied, moved]

end Entrance

namespace Prepared

/-- The first entrance into flow logic when a decision is followed on a host. -/
def entrance? (settings : Settings) (prepared : Prepared) (host : Host σ) : Option (Entrance σ) :=
  match host.environments.acquire prepared.draft.checkpoint.owner,
    prepared.draft.setStatus .running with
  | (.ok exec, environments), .ok running =>
    match prepared.decision with
    | .start args =>
      match Fiber.forFlow exec running.checkpoint.flowId running.checkpoint.flowName with
      | .ok fiber => some ⟨exec, running, fiber, .start args, host.world⟩
      | .error _ => none
    | .resume value =>
      match (Hosted.awaken exec running.checkpoint settings.instant).run.run
        { host with environments } with
      | (.ok fiber, after) => some ⟨exec, running, fiber, .resume value, after.world⟩
      | (.error _, _) => none
    | .skip => none
  | _, _ => none

/-- The outcomes that flow logic comes to when a decision is followed on a host. -/
def outcomes (settings : Settings) (prepared : Prepared) (host : Host σ) : List FiberOutcome :=
  match prepared.entrance? settings host with
  | some entrance => entrance.outcomes settings settings.entryLimit
  | none => []

end Prepared

/-- The outcomes that flow logic comes to when an event is planned on a host. -/
def Plan.outcomes (settings : Settings) (event : Event) (found : Option Checkpoint) (host : Host σ) :
    List FiberOutcome :=
  match found.filter Checkpoint.isTerminal with
  | some _ => []
  | none =>
    match Handler.prepare event.flowId event.payload settings.config settings.now found with
    | .ok prepared => prepared.outcomes settings host
    | .error _ => []

/-- How a draft fares on which flow logic is entered, given what the logic comes to each time. -/
inductive Draft.Meets (settings : Settings) : Attempt → Draft → List FiberOutcome → Draft → Prop where
  | done {attempt : Attempt} {draft after : Draft} {outcome : FiberOutcome} {effects : Effects}
      (applied : draft.applyOutcome outcome effects attempt settings.config settings.now =
        .ok (after, .done)) :
      Meets settings attempt draft [outcome] after
  | again {attempt : Attempt} {draft taken after : Draft} {outcome : FiberOutcome}
      {effects : Effects} {value : Resumed} {later : List FiberOutcome}
      (applied : draft.applyOutcome outcome effects attempt settings.config settings.now =
        .ok (taken, .resume value))
      (rest : Meets settings (.resume value) taken.running later after) :
      Meets settings attempt draft (outcome :: later) after

/-- What a decision comes to, given what flow logic comes to each time it is entered. -/
inductive Prepared.Meets (settings : Settings) : Prepared → List FiberOutcome → Draft → Prop where
  | skipped {draft : Draft} : Meets settings ⟨draft, .skip⟩ [] draft
  /-- There is no logic that could be entered. -/
  | unknown {draft after : Draft} {args : Bytes} {name : String} {next : Next}
      (applied : draft.running.applyOutcome (.failed (.unknownFlow name)) .none .start settings.config
        settings.now = .ok (after, next)) :
      Meets settings ⟨draft, .start args⟩ [] after
  | ran {draft after : Draft} {decision : Decision} {attempt : Attempt} {outcomes : List FiberOutcome}
      (enters : decision.attempt? = some attempt)
      (meets : draft.running.Meets settings attempt outcomes after) :
      Meets settings ⟨draft, decision⟩ outcomes after

/-- A commit is what an event and certain outcomes of flow logic make of a checkpoint. -/
def Commit.Meets (settings : Settings) (event : Event) (found : Option Checkpoint)
    (outcomes : List FiberOutcome) (commit : Commit σ) : Prop :=
  ∃ prepared draft, Plan.Opens settings event found prepared ∧
    prepared.Meets settings outcomes draft ∧
    commit.checkpoint = { draft.checkpoint with updatedAt := settings.now }

namespace Hosted

variable {settings : Settings} {prepared : Prepared} {after : Draft} {before later : Host σ}

theorem entry_of_enter (entrance : Entrance σ) {entry : Entry σ} {middle : Host σ}
    {call : σ → FiberRun σ} (called : call before.world = entrance.run settings)
    (entered : (enter entrance.call.attempt call).run.run before = (.ok entry, middle)) :
    ∃ outcome, (entrance.run settings).result = .ok outcome ∧
      entry = entrance.entry settings outcome ∧ middle.world = (entrance.run settings).world := by
  rw [run_enter, called] at entered
  cases ran : (entrance.run settings).result with
  | error error =>
      rw [ran] at entered
      cases entered
  | ok outcome =>
      rw [ran] at entered
      cases entered
      exact ⟨outcome, rfl, rfl, rfl⟩

theorem conclude_meets {limit : Nat} {entrance : Entrance σ} {outcome : FiberOutcome}
    {fiber : Fiber σ} (ran : (entrance.run settings).result = .ok outcome)
    (world : before.world = (entrance.run settings).world)
    (h : (conclude entrance.exec settings limit entrance.draft
      (entrance.entry settings outcome)).run.run before = (.ok (after, fiber), later)) :
    entrance.draft.Meets settings entrance.call.attempt (entrance.outcomes settings limit) after := by
  induction limit generalizing entrance outcome before with
  | zero => cases h
  | succ limit ih =>
      simp only [Entrance.outcomes, ran]
      rcases conclude_succ h with ⟨applied, _⟩ | ⟨taken, value, _, _, applied, moved, entered, h⟩
      · have applied : entrance.apply settings outcome = .ok (after, .done) := applied
        rw [Entrance.next?_eq_none applied]
        exact .done applied
      · have applied : entrance.apply settings outcome = .ok (taken, .resume value) := applied
        rw [Entrance.next?_eq_some applied moved]
        obtain ⟨outcome, ran, rfl, world⟩ :=
          entry_of_enter (entrance.again settings taken.running value) (by rw [world]; rfl) entered
        exact .again applied (ih ran world h)

theorem enter_meets (entrance : Entrance σ) {entry : Entry σ} {fiber : Fiber σ} {middle : Host σ}
    {call : σ → FiberRun σ} (called : call before.world = entrance.run settings)
    (entered : (enter entrance.call.attempt call).run.run before = (.ok entry, middle))
    (concludes : (conclude entrance.exec settings settings.entryLimit entrance.draft entry).run.run
      middle = (.ok (after, fiber), later)) :
    entrance.draft.Meets settings entrance.call.attempt
      (entrance.outcomes settings settings.entryLimit) after := by
  obtain ⟨outcome, ran, rfl, world⟩ := entry_of_enter entrance called entered
  exact conclude_meets ran world concludes

theorem follow_meets {suspended : Option (Suspended σ)}
    (h : (follow settings prepared).run.run before = (.ok (after, suspended), later)) :
    prepared.Meets settings (prepared.outcomes settings before) after := by
  rcases prepared with ⟨draft, args | value | _⟩
  · rw [follow_start, run_bind_ok] at h
    obtain ⟨exec, _, given, h⟩ := h
    obtain ⟨environments, acquired, rfl⟩ := acquire_ok given
    obtain ⟨moved, ⟨name, unknown, applied, _⟩ | ⟨fiber, _, _, _, created, entered, concludes, _⟩⟩ :=
      begin_ok h
    · simp only [Prepared.outcomes, Prepared.entrance?, acquired, moved, unknown]
      exact .unknown applied
    · simp only [Prepared.outcomes, Prepared.entrance?, acquired, moved, created]
      exact .ran rfl (enter_meets ⟨exec, draft.running, fiber, .start args, before.world⟩ rfl entered
        concludes)
  · rw [follow_resume, run_bind_ok] at h
    obtain ⟨exec, _, given, h⟩ := h
    obtain ⟨environments, acquired, rfl⟩ := acquire_ok given
    rw [run_bind_ok] at h
    obtain ⟨running, _, first, h⟩ := h
    obtain ⟨moved, rfl⟩ := ofOutcome_ok.1 first
    simp only [Prepared.outcomes, Prepared.entrance?, acquired, moved]
    obtain ⟨_, rfl⟩ := Draft.setStatus_ok.1 moved
    rw [run_bind_ok] at h
    obtain ⟨fiber, left, awake, h⟩ := h
    rw [awake]
    obtain ⟨_, _, _, entered, concludes, _⟩ := proceed_ok h
    exact .ran rfl (enter_meets ⟨exec, draft.running, fiber, .resume value, left.world⟩ rfl entered
      concludes)
  · cases h
    have unentered : (⟨draft, .skip⟩ : Prepared).entrance? settings before = none := by
      unfold Prepared.entrance?
      split <;> rfl
    rw [Prepared.outcomes, unentered]
    exact .skipped

end Hosted

/-- A commit is what its event and the listed outcomes make of the checkpoint that was found. -/
theorem Plan.ofEvent_meets {settings : Settings} {event : Event} {found : Option Checkpoint}
    {commit : Commit σ} {before later : Host σ}
    (h : (ofEvent settings event found).run.run before = (.ok (.commit commit), later)) :
    commit.Meets settings event found (outcomes settings event found before) := by
  unfold ofEvent at h
  split at h
  · cases h
  next unfinished =>
    have live : ∀ cp, found = some cp → cp.isTerminal = false := by
      rintro cp rfl
      simpa using unfinished
    split at h
    · cases h
    · cases h
    next prepared prepares =>
      rw [ofPrepared, run_bind_ok] at h
      obtain ⟨⟨draft, suspended⟩, _, followed, h⟩ := h
      cases h
      have listed : outcomes settings event found before = prepared.outcomes settings before := by
        simp only [outcomes, unfinished, prepares]
      rw [listed]
      exact ⟨prepared, draft, ⟨live, prepares⟩, Hosted.follow_meets followed, rfl⟩

end DurableFlow
