import Mathlib.Logic.Relation
import DurableFlow.Proofs.Entrances
import DurableFlow.Proofs.Handovers

/-! # Where a write comes from

What the entrances into flow logic come to is settled by the host, so of two that are reached from one
decision one leads to the other, and both lead to the same end. An errand plans once, on the host as it
is then, and writes nothing but what it has planned: `Fleet.Pursues`.
-/

namespace DurableFlow

open Relation

variable {σ δ π : Type}

/-- The entrance at which flow logic is resumed in place after another one. -/
def Entrance.Precedes (settings : Settings) (before after : Entrance σ) : Prop :=
  ∃ outcome taken value running, (before.run settings).result = .ok outcome ∧
    before.apply settings outcome = .ok (taken, .resume value) ∧
    taken.setStatus .running = .ok running ∧ after = before.again settings running value

theorem Entrance.Precedes.unique (settings : Settings) :
    Relator.RightUnique (Precedes (σ := σ) settings) := by
  rintro before _ _ ⟨_, _, _, _, ran, applied, moved, rfl⟩ ⟨_, _, _, _, ran', applied', moved', rfl⟩
  cases ran.symm.trans ran'
  cases applied.symm.trans applied'
  cases moved.symm.trans moved'
  rfl

namespace Prepared

variable {settings : Settings} {prepared : Prepared} {host : Host σ} {entrance other : Entrance σ}

theorem Reaches.exists_first (reached : prepared.Reaches settings host entrance) :
    ∃ first, ∀ other, prepared.Reaches settings host other →
      ReflTransGen (Entrance.Precedes settings) first other := by
  induction reached with
  | @started running args exec environments fiber decided acquired moved created =>
      refine ⟨⟨exec, running, fiber, .start args, host.world⟩, fun other reached => ?_⟩
      induction reached with
      | started decided' acquired' moved' created' =>
          cases decided.symm.trans decided'
          cases acquired.symm.trans acquired'
          cases moved.symm.trans moved'
          cases created.symm.trans created'
          exact .refl
      | woken decided' => cases decided.symm.trans decided'
      | again _ ran applied moved ih => exact ih.tail ⟨_, _, _, _, ran, applied, moved, rfl⟩
  | @woken running value exec environments fiber after decided acquired moved awake =>
      refine ⟨⟨exec, running, fiber, .resume value, after.world⟩, fun other reached => ?_⟩
      induction reached with
      | started decided' => cases decided.symm.trans decided'
      | woken decided' acquired' moved' awake' =>
          cases decided.symm.trans decided'
          cases acquired.symm.trans acquired'
          cases moved.symm.trans moved'
          cases awake.symm.trans awake'
          exact .refl
      | again _ ran applied moved ih => exact ih.tail ⟨_, _, _, _, ran, applied, moved, rfl⟩
  | again _ _ _ _ ih => exact ih

/-- Of two entrances one leads to the other. -/
theorem Reaches.total (reached : prepared.Reaches settings host entrance)
    (reached' : prepared.Reaches settings host other) :
    ReflTransGen (Entrance.Precedes settings) entrance other ∨
      ReflTransGen (Entrance.Precedes settings) other entrance := by
  obtain ⟨first, leads⟩ := reached.exists_first
  exact ReflTransGen.total_of_right_unique (Entrance.Precedes.unique settings) (leads _ reached)
    (leads _ reached')

theorem Reaches.created (reached : prepared.Reaches settings host entrance) {args : Bytes}
    (decided : prepared.decision = .start args) : ∃ exec environments running fiber,
      host.environments.acquire prepared.draft.checkpoint.owner = (.ok exec, environments) ∧
      prepared.draft.setStatus .running = .ok running ∧
      Fiber.forFlow exec running.checkpoint.flowId running.checkpoint.flowName = .ok fiber := by
  induction reached with
  | started _ acquired moved created => exact ⟨_, _, _, _, acquired, moved, created⟩
  | woken decided' => cases decided.symm.trans decided'
  | again _ _ _ _ ih => exact ih

/-- If following a decision comes to a draft, every entrance leads there. -/
theorem Ends.from (reached : prepared.Reaches settings host entrance) {after : Draft}
    {left : Option (Hosted.Suspended σ)} (ends : prepared.Ends settings host (.ok (after, left))) :
    ∃ last outcome, ReflTransGen (Entrance.Precedes settings) entrance last ∧
      (last.run settings).result = .ok outcome ∧
      last.apply settings outcome = .ok (after, .done) := by
  cases ends with
  | skipped decided =>
      have runs := reached.runs
      rw [decided] at runs
      cases runs
  | unknown decided moved applied acquired uncreated =>
      obtain ⟨_, _, _, _, acquired', moved', created⟩ := reached.created decided
      cases acquired.symm.trans acquired'
      cases moved.symm.trans moved'
      cases uncreated.symm.trans created
  | @concluded last outcome _ reached' ran applied =>
      rcases reached.total reached' with leads | back
      · exact ⟨last, outcome, leads, ran, applied⟩
      · rcases back.cases_head with rfl | ⟨_, ⟨_, _, _, _, ran', applied', _⟩, _⟩
        · exact ⟨last, outcome, .refl, ran, applied⟩
        · cases ran.symm.trans ran'
          cases applied.symm.trans applied'

end Prepared

namespace Fleet

/-- Every write is the work of an errand that has planned it and come further. -/
def Settled (fleet : Fleet σ δ π) : Prop :=
  ∀ write ∈ fleet.writes, ∃ errand, fleet.errands[write.ticket]? = some errand ∧
    3 ≤ errand.stage.progress

/-- An errand that has planned what is said, if it has planned anything, and has written nothing else. -/
structure Pursues (fleet : Fleet σ δ π) (ticket : Nat) (event : Event) (plan : Commit σ → Prop) :
    Prop where
  errand : ∃ errand, fleet.errands[ticket]? = some errand ∧ errand.event = event ∧
    2 ≤ errand.stage.progress ∧ ∀ commit, errand.stage = .planned commit → plan commit
  wrote : ∀ write ∈ fleet.writes, write.ticket = ticket → ∃ commit, plan commit ∧
    write.event = event ∧ write.checkpoint = commit.written ∧ write.records = commit.records

section Steps

variable {fleet after : Fleet σ δ π} {errands : List (Errand σ δ)} {more : List Write}
  {handed : List (Handover δ)}

theorem Settled.step (settled : fleet.Settled) {move : Move σ δ}
    (steps : fleet.Steps move errands more handed)
    (moved : after.errands = errands) (written : after.writes = fleet.writes ++ more) :
    after.Settled := by
  intro write member
  rw [written] at member
  rw [moved]
  have before (known : write ∈ fleet.writes) := settled write known
  cases steps with
  | rests => exact before (by simpa using member)
  | submits called =>
      obtain ⟨errand, known, done⟩ := before (by simpa using member)
      obtain ⟨inside, _⟩ := List.getElem?_eq_some_iff.1 known
      exact ⟨errand, by rw [List.getElem?_append_left inside, known], done⟩
  | moves known quiet =>
      obtain ⟨errand, found, done⟩ := before (by simpa using member)
      rw [get?_set known]
      split
      next here =>
        subst here
        cases known.symm.trans found
        obtain ⟨result, ended⟩ := quiet.ends (Nat.le_of_succ_le done)
        exact ⟨_, rfl, by simp [ended, Stage.progress]⟩
      next => exact ⟨errand, found, done⟩
  | writes known stage admitted =>
      rw [get?_set known]
      split
      next => exact ⟨_, rfl, Nat.le_refl 3⟩
      next elsewhere =>
        rcases List.mem_append.1 member with earlier | new
        · exact before earlier
        · rw [List.mem_singleton.1 new] at elsewhere
          exact absurd rfl elsewhere
  | publishes known stage =>
      rw [get?_set known]
      split
      next => exact ⟨_, rfl, by simp [Stage.progress]⟩
      next => exact before (by simpa using member)

theorem Pursues.step {ticket : Nat} {event : Event} {plan : Commit σ → Prop}
    (pursues : fleet.Pursues ticket event plan) {move : Move σ δ}
    (steps : fleet.Steps move errands more handed)
    (moved : after.errands = errands) (written : after.writes = fleet.writes ++ more) :
    after.Pursues ticket event plan := by
  obtain ⟨⟨errand, found, same, late, plans⟩, wrote⟩ := pursues
  -- Without a write the errand stays as it is, or it ends.
  have quietly (unwritten : more = [])
      (stays : errands[ticket]? = some errand ∨
        ∃ result, errands[ticket]? = some { errand with stage := .ended result }) :
      after.Pursues ticket event plan := by
    subst unwritten
    refine ⟨?_, by rwa [written, List.append_nil]⟩
    rw [moved]
    rcases stays with stays | ⟨result, ended⟩
    · exact ⟨errand, stays, same, late, plans⟩
    · exact ⟨_, ended, same, by simp [Stage.progress], fun _ impossible => by cases impossible⟩
  cases steps with
  | rests => exact quietly rfl (.inl found)
  | submits called =>
      obtain ⟨inside, _⟩ := List.getElem?_eq_some_iff.1 found
      exact quietly rfl (.inl (by rw [List.getElem?_append_left inside, found]))
  | moves known quiet =>
      refine quietly rfl ?_
      rw [get?_set known]
      split
      next here =>
        subst here
        cases known.symm.trans found
        obtain ⟨result, rfl⟩ := quiet.ends late
        exact .inr ⟨result, rfl⟩
      next => exact .inl found
  | publishes known stage =>
      refine quietly rfl ?_
      rw [get?_set known]
      split
      next here =>
        subst here
        cases known.symm.trans found
        exact .inr ⟨_, rfl⟩
      next => exact .inl found
  | @writes place other commit known stage admitted =>
      by_cases here : place = ticket
      · subst here
        cases known.symm.trans found
        refine ⟨⟨{ errand with stage := .written commit (commit.expected + 1) },
          by rw [moved, get?_set known, if_pos rfl], same, Nat.le_succ 2,
          fun _ impossible => by cases impossible⟩, fun write member mine => ?_⟩
        rw [written] at member
        rcases List.mem_append.1 member with earlier | new
        · exact wrote write earlier mine
        · rw [List.mem_singleton.1 new]
          exact ⟨commit, plans commit stage, same, rfl, rfl⟩
      · refine ⟨⟨errand, by rw [moved, get?_set known, if_neg here, found], same, late, plans⟩,
          fun write member mine => ?_⟩
        rw [written] at member
        rcases List.mem_append.1 member with earlier | new
        · exact wrote write earlier mine
        · rw [List.mem_singleton.1 new] at mine
          exact absurd mine here

end Steps

variable [DecidableEq δ] (publishers : δ → Publisher π)

theorem settled_run (hosts : δ → Host σ) (published : π) (moves : List (Move σ δ)) :
    ((launch hosts published).run publishers moves).Settled := by
  refine run_handed publishers (P := fun fleet _ => fleet.Settled) moves [] ?_
    (fun _ impossible => by cases impossible)
  intro fleet _ move _ settled
  obtain ⟨_, written, steps, _⟩ := step_steps publishers fleet move
  exact settled.step steps rfl written

theorem Pursues.run {fleet : Fleet σ δ π} {ticket : Nat} {event : Event} {plan : Commit σ → Prop}
    (pursues : fleet.Pursues ticket event plan) (moves : List (Move σ δ)) :
    (fleet.run publishers moves).Pursues ticket event plan := by
  refine run_handed publishers (P := fun fleet _ => fleet.Pursues ticket event plan) moves [] ?_ pursues
  intro fleet _ move _ pursues
  obtain ⟨_, written, steps, _⟩ := step_steps publishers fleet move
  exact pursues.step steps rfl written

theorem pursues_advance {fleet : Fleet σ δ π} (settled : fleet.Settled) {ticket : Nat}
    {errand : Errand σ δ} {found : Option Checkpoint} (known : fleet.errands[ticket]? = some errand)
    (stage : errand.stage = .loaded found) :
    (fleet.advance publishers ticket).Pursues ticket errand.event fun commit =>
      ∃ host, (Plan.ofEvent errand.settings errand.event found).run.run
        (fleet.hosts errand.dispatcher) = (.ok (.commit commit), host) := by
  have advances := Services.advance_advances (publishers errand.dispatcher) errand.settings
    errand.event (fleet.site errand.dispatcher) errand.stage
  simp only [advance, known]
  generalize Services.advance _ _ _ _ _ = after at advances
  obtain ⟨next, site⟩ := after
  have unwritten : ∀ write ∈ fleet.writes, write.ticket ≠ ticket := by
    rintro write member rfl
    obtain ⟨_, known', done⟩ := settled write member
    cases known.symm.trans known'
    rw [stage] at done
    simp [Stage.progress] at done
  have silent : errand.writes ticket next = [] := by simp [Errand.writes, stage]
  refine ⟨⟨{ errand with stage := next }, ?_, rfl, ?_, ?_⟩, ?_⟩
  · simp only [moved, get?_set known, if_true]
  · rw [stage] at advances
    cases advances <;> simp [Stage.progress]
  · rintro commit rfl
    rw [stage] at advances
    cases advances with
    | plan ran => exact ⟨_, ran⟩
  · simp only [moved, silent, List.append_nil]
    exact fun write member mine => absurd mine (unwritten write member)

end Fleet

end DurableFlow
