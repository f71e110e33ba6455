import DurableFlow.Proofs.Endings

/-! # Dispatchers that are woken by timers

A convoy is a fleet whose dispatchers publish through timers of their own and handle the events that
their workers take from channels. A timer that fires is lost, and its wake-up is in the channel until
the worker takes it.

The timers of a dispatcher observe what it publishes, `Convoy.timers_fleet`, and that never ends a flow
which still waits for a point in time, `Convoy.Steady.goesOn`.
-/

namespace DurableFlow

open Stateful

variable {σ δ π : Type}

theorem Fleet.advance_eq_moved [DecidableEq δ] (publishers : δ → Publisher π) {fleet : Fleet σ δ π}
    {ticket : Nat} {errand : Errand σ δ} (known : fleet.errands[ticket]? = some errand) :
    ∃ next site, errand.stage.Advances (publishers errand.dispatcher) errand.settings errand.event
        (fleet.site errand.dispatcher) next site ∧
      fleet.advance publishers ticket = fleet.moved ticket errand next site := by
  refine ⟨_, _, Services.advance_advances _ _ _ _ _, ?_⟩
  simp only [advance, known]

namespace Timers

/-- Publishers with timers before them, one lot for each dispatcher. -/
def publishers [DecidableEq δ] (inner : δ → Publisher π) (dispatcher : δ) :
    Publisher (δ → Timers × π) where
  publish records := fun states =>
    let (result, state) := (publisher (inner dispatcher)).publish records (states dispatcher)
    (result, fun other => if other = dispatcher then state else states other)

theorem publishers_observe [DecidableEq δ] (inner : δ → Publisher π) (dispatcher other : δ)
    (records : List Record) (states : δ → Timers × π) :
    ((if records.isEmpty then states
      else ((publishers inner dispatcher).publish records states).2) other).1 =
        if other = dispatcher then (states other).1.observe records else (states other).1 := by
  by_cases here : other = dispatcher
  · subst here
    have observed := Services.observed_of_published (inner other) records (states other)
    rw [if_pos rfl, ← observed]
    split
    · rfl
    · simp only [publishers, if_true]
  · rw [if_neg here]
    split
    · rfl
    · simp only [publishers, if_neg here]

theorem lastAlarm_isSome {id : FlowId} {alarms : List (FlowId × Timestamp)}
    {before : Option Timestamp} :
    (lastAlarm id alarms before).isSome ↔ before.isSome ∨ ∃ due, (id, due) ∈ alarms := by
  induction alarms generalizing before with
  | nil => simp [lastAlarm]
  | cons first rest ih =>
      obtain ⟨flow, at'⟩ := first
      rw [lastAlarm, List.foldl_cons, ← lastAlarm, ih]
      by_cases mine : flow = id
      · subst mine
        simp only [if_true, Option.isSome_some, true_or, true_iff]
        exact .inr ⟨at', List.mem_cons_self⟩
      · have other : id ≠ flow := Ne.symm mine
        simp [if_neg mine, other]

theorem mem_alarms {id : FlowId} {due : Timestamp} {records : List Record} :
    (id, due) ∈ records.filterMap alarm? ↔ .scheduleWakeup id due ∈ records := by
  rw [List.mem_filterMap]
  constructor
  · rintro ⟨record, member, alarm⟩
    cases record with
    | scheduleWakeup other due =>
        cases alarm
        exact member
    | _ => cases alarm
  · exact fun member => ⟨_, member, rfl⟩

theorem isSome_observe {records : List Record} {id : FlowId}
    (goesOn : id ∉ records.filterMap ended?) (timers : Timers) :
    ((timers.observe records).due? id).isSome ↔
      (timers.due? id).isSome ∨ ∃ due, .scheduleWakeup id due ∈ records := by
  rw [due?_observe, if_neg goesOn, lastAlarm_isSome]
  simp only [mem_alarms]

theorem asked_of_observe {records : List Record} {id : FlowId} {due : Timestamp}
    (armed : (({} : Timers).observe records).due? id = some due) :
    ∃ due, .scheduleWakeup id due ∈ records := by
  by_cases goesOn : id ∈ records.filterMap ended?
  · rw [due?_observe, if_pos goesOn] at armed
    cases armed
  · have asked := (isSome_observe goesOn {}).1 (armed ▸ rfl)
    exact asked.resolve_left fun none => by cases none

end Timers

/-- A fleet whose dispatchers have timers, and workers that take events from channels. -/
structure Convoy (σ δ π : Type) where
  fleet : Fleet σ δ (δ → Timers × π)
  /-- The events that were not taken yet, with those that wait for room in the channel. -/
  channels : δ → List Event

namespace Convoy

/-- Something that happens in a convoy. -/
inductive Move (σ δ : Type) where
  | fleet (move : Fleet.Move σ δ)
  | arrives (dispatcher : δ) (event : Event)
  /-- The timer of a flow fires, if there is one, be it on time or not. -/
  | fires (dispatcher : δ) (flow : FlowId)
  /-- A worker takes the next event. -/
  | takes (dispatcher : δ) (settings : Settings)
  /-- Timers are set again from what is stored. -/
  | recovers (dispatcher : δ)

def timers (convoy : Convoy σ δ π) (dispatcher : δ) : Timers :=
  (convoy.fleet.published dispatcher).1

def stored (convoy : Convoy σ δ π) : Store := convoy.fleet.stored

/-- A convoy over an empty store, without any timer. -/
def launch (hosts : δ → Host σ) (published : δ → π) : Convoy σ δ π where
  fleet := .launch hosts fun dispatcher => ({}, published dispatcher)
  channels _ := []

variable [DecidableEq δ]

/-- The fleet, the timers of a dispatcher replaced. -/
def withTimers (convoy : Convoy σ δ π) (dispatcher : δ) (timers : Timers) :
    Fleet σ δ (δ → Timers × π) :=
  { convoy.fleet with published := fun other =>
      if other = dispatcher then (timers, (convoy.fleet.published other).2)
      else convoy.fleet.published other }

/-- The channels, one of them replaced. -/
def withChannel (convoy : Convoy σ δ π) (dispatcher : δ) (events : List Event) : δ → List Event :=
  fun other => if other = dispatcher then events else convoy.channels other

variable (inner : δ → Publisher π)

/-- Let something happen. -/
def step (convoy : Convoy σ δ π) : Move σ δ → Convoy σ δ π
  | .fleet move => { convoy with fleet := convoy.fleet.step (Timers.publishers inner) move }
  | .arrives dispatcher event =>
    { convoy with
      channels := convoy.withChannel dispatcher (convoy.channels dispatcher ++ [event]) }
  | .fires dispatcher flow =>
    match (convoy.timers dispatcher).due? flow with
    | none => convoy
    | some _ =>
      { fleet := convoy.withTimers dispatcher ((convoy.timers dispatcher).cancel flow)
        channels := convoy.withChannel dispatcher
          (convoy.channels dispatcher ++ [⟨flow, .wakeup⟩]) }
  | .takes dispatcher settings =>
    match convoy.channels dispatcher with
    | [] => convoy
    | event :: rest =>
      { fleet := convoy.fleet.step (Timers.publishers inner) (.submit dispatcher settings event)
        channels := convoy.withChannel dispatcher rest }
  | .recovers dispatcher =>
    { convoy with
      fleet := convoy.withTimers dispatcher
        ((convoy.timers dispatcher).recover convoy.stored) }

/-- Let one thing happen after another. -/
def run (convoy : Convoy σ δ π) (moves : List (Move σ δ)) : Convoy σ δ π :=
  moves.foldl (step inner) convoy

theorem timers_withTimers (convoy : Convoy σ δ π) (dispatcher other : δ) (timers : Timers) :
    ((convoy.withTimers dispatcher timers).published other).1 =
      if other = dispatcher then timers else convoy.timers other := by
  simp only [withTimers]
  split <;> rfl

/-- Only an errand that publishes changes timers. -/
theorem timers_fleet (convoy : Convoy σ δ π) (move : Fleet.Move σ δ) (dispatcher : δ) :
    (convoy.step inner (.fleet move)).timers dispatcher = convoy.timers dispatcher ∨
      ∃ (ticket : Nat) (errand : Errand σ δ) (commit : Commit σ) (version : Nat),
        convoy.fleet.errands[ticket]? = some errand ∧ errand.stage = .written commit version ∧
        (convoy.step inner (.fleet move)).timers dispatcher =
          (convoy.timers dispatcher).observe commit.records := by
  cases move with
  | submit | abort | endMaintenance | change => exact .inl rfl
  | beginMaintenance _ _ attached => cases attached <;> exact .inl rfl
  | advance ticket =>
      cases known : convoy.fleet.errands[ticket]? with
      | none =>
          refine .inl ?_
          simp only [step, Fleet.step, Fleet.advance, known, timers]
      | some errand =>
          obtain ⟨next, site, advances, moved⟩ :=
            Fleet.advance_eq_moved (Timers.publishers inner) known
          simp only [step, Fleet.step, moved, Fleet.moved, timers]
          generalize stage : errand.stage = before at advances
          cases advances with
          | @publish commit version result ended =>
              simp only [Timers.publishers_observe, Fleet.site]
              split
              · exact .inr ⟨ticket, errand, commit, version, known, stage, rfl⟩
              · exact .inl rfl
          | _ => exact .inl rfl

/-- Only its own steps change an errand, or its breaking off. -/
theorem errand_stays {convoy : Convoy σ δ π} {ticket : Nat} {errand : Errand σ δ}
    (known : convoy.fleet.errands[ticket]? = some errand) {move : Move σ δ}
    (waits : move ≠ .fleet (.advance ticket)) (holds : ∀ error, move ≠ .fleet (.abort ticket error)) :
    (convoy.step inner move).fleet.errands[ticket]? = some errand := by
  have inside := (List.getElem?_eq_some_iff.1 known).1
  have submitted (dispatcher : δ) (settings : Settings) (event : Event) :
      (convoy.fleet.step (Timers.publishers inner)
        (.submit dispatcher settings event)).errands[ticket]? = some errand := by
    rw [Fleet.step, List.getElem?_append_left inside, known]
  cases move with
  | arrives | recovers => exact known
  | fires dispatcher flow =>
      simp only [step]
      split <;> exact known
  | takes dispatcher settings =>
      simp only [step]
      split
      · exact known
      · exact submitted ..
  | fleet move =>
      cases move with
      | submit dispatcher settings event => exact submitted ..
      | beginMaintenance _ _ attached => cases attached <;> exact known
      | endMaintenance | change => exact known
      | abort other error =>
          have differs : other ≠ ticket := fun same => holds error (same ▸ rfl)
          simp only [step, Fleet.step, Fleet.abort]
          rw [List.getElem?_modify_ne _ _ differs, known]
      | advance other =>
          have differs : other ≠ ticket := fun same => waits (same ▸ rfl)
          cases moving : convoy.fleet.errands[other]? with
          | none => simp only [step, Fleet.step, Fleet.advance, moving, known]
          | some mover =>
              obtain ⟨next, site, _, moved⟩ :=
                Fleet.advance_eq_moved (Timers.publishers inner) moving
              simp only [step, Fleet.step, moved, Fleet.moved]
              rw [List.getElem?_set_ne differs, known]

/-- What holds of a convoy at any time. -/
structure Steady (convoy : Convoy σ δ π) : Prop where
  sound : Fleet.Law.plain.Sound convoy.fleet
  logged : ∃ log, convoy.fleet.Logged log

omit [DecidableEq δ] in
theorem Steady.launch (hosts : δ → Host σ) (published : δ → π) :
    (Convoy.launch hosts published).Steady where
  sound := Fleet.Law.sound_launch hosts _ fun _ => trivial
  logged := ⟨[], .launch hosts _⟩

namespace Steady

variable {inner} {convoy : Convoy σ δ π} {flow : FlowId} {cp : Checkpoint} {due : Timestamp}

theorem withTimers (steady : convoy.Steady) (dispatcher : δ) (timers : Timers)
    (channels : δ → List Event) : Steady ⟨convoy.withTimers dispatcher timers, channels⟩ where
  sound := ⟨steady.sound.hosts, steady.sound.lines, steady.sound.stored, steady.sound.errands⟩
  logged := by
    obtain ⟨log, logged⟩ := steady.logged
    exact ⟨log, logged.awaits, logged.wrote, logged.once⟩

theorem fleet (steady : convoy.Steady) (move : Fleet.Move σ δ) (channels : δ → List Event) :
    Steady ⟨convoy.fleet.step (Timers.publishers inner) move, channels⟩ where
  sound := steady.sound.step Fleet.Law.plain_kept _ fun _ _ _ _ => trivial
  logged := by
    obtain ⟨log, logged⟩ := steady.logged
    obtain ⟨_, written, steps, _⟩ := Fleet.step_steps (Timers.publishers inner) convoy.fleet move
    exact ⟨_, logged.step steps rfl written⟩

theorem step (steady : convoy.Steady) (move : Move σ δ) : (convoy.step inner move).Steady := by
  cases move with
  | fleet move => exact steady.fleet move _
  | arrives dispatcher event => exact ⟨steady.sound, steady.logged⟩
  | fires dispatcher flow =>
      simp only [Convoy.step]
      split
      · exact steady
      · exact steady.withTimers ..
  | takes dispatcher settings =>
      simp only [Convoy.step]
      split
      · exact steady
      · exact steady.fleet ..
  | recovers dispatcher => exact steady.withTimers ..

omit [DecidableEq δ] in
theorem rousable (steady : convoy.Steady) {found : Option Checkpoint}
    (past : Write.Past (Write.ofFlow convoy.fleet.writes flow) found) :
    ∀ cp, found = some cp → cp.Rousable :=
  (steady.sound.lines flow).induction (fun _ _ _ _ _ _ _ rousable planned =>
    (Fleet.Law.plain_kept.leads planned).rousable rousable) past

omit [DecidableEq δ] in
theorem live (steady : convoy.Steady) (found : convoy.stored.get? flow = some cp)
    (alarm : cp.waitingFor.alarm? = some due) : cp.isTerminal = false := by
  have last := Write.Past.last (Write.ofFlow convoy.fleet.writes flow)
  rw [← steady.sound.stored] at last
  rw [← Bool.not_eq_true]
  intro terminal
  rw [(steady.rousable last cp found).finished terminal] at alarm
  cases alarm

omit [DecidableEq δ] in
/-- An errand that has still to publish does not end a flow that waits for a point in time. -/
theorem goesOn (steady : convoy.Steady) (found : convoy.stored.get? flow = some cp)
    (alarm : cp.waitingFor.alarm? = some due) {ticket : Nat} {errand : Errand σ δ}
    {commit : Commit σ} {version : Nat} (known : convoy.fleet.errands[ticket]? = some errand)
    (stage : errand.stage = .written commit version) :
    flow ∉ commit.records.filterMap Timers.ended? := by
  intro member
  obtain ⟨record, among, ended⟩ := List.mem_filterMap.1 member
  obtain ⟨log, logged⟩ := steady.logged
  obtain ⟨⟨write, written, _, _, records⟩, _⟩ := logged.awaits ticket errand commit version known stage
  have led : (Fleet.Law.plain : Fleet.Law σ δ).Led := Fleet.Law.plain_kept.leads
  have line := steady.sound.lines write.event.flowId
  have mine : write ∈ Write.ofFlow convoy.fleet.writes write.event.flowId :=
    List.mem_filter.2 ⟨written, by simp⟩
  obtain ⟨announced, about⟩ := line.announced led write mine
  rw [← records] at among
  have final : record.isFinal := by
    rw [← Bool.not_eq_false]
    intro lasting
    rw [Record.goesOn_of_lasting lasting] at ended
    cases ended
  have terminal := announced.terminal among final
  have same : flow = write.event.flowId :=
    (Timers.flowId_of_ended? ended).trans (about record among)
  have stored : convoy.stored.get? flow = some write.checkpoint := by
    rw [same]
    refine (steady.sound.stored _).trans ?_
    rw [Write.last?, line.last_of_terminal led mine terminal]
    rfl
  rw [found] at stored
  cases stored
  rw [steady.live found alarm] at terminal
  cases terminal

end Steady

end Convoy

end DurableFlow
