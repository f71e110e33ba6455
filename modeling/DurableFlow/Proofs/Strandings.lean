import Mathlib.Data.List.Induction
import DurableFlow.Proofs.Convoys

/-! # Flows that nobody wakes

What may still wake a flow is a timer, a wake-up in a channel, or an errand under way: `Attended`. A
flow that waits for a point in time is attended to as long as no errand breaks off that attends to it:
`Strands`. The timer was lost before its wake-up was handled, and whoever breaks off leaves everything
as it is, so nobody makes up for that timer.
-/

namespace DurableFlow

open Samples

variable {σ δ π : Type}

/-- Whether an errand that has come this far with an event will still wake its flow, or has asked for
its timer and not published that yet. -/
def Stage.Attends (event : Event) : Stage σ → Prop
  | .called => event.payload = .wakeup
  | .loaded found => event.payload = .wakeup ∧
    ∃ cp due, found = some cp ∧ cp.waitingFor.alarm? = some due
  | .planned _ => event.payload = .wakeup
  | .written commit _ => ∃ due, .scheduleWakeup event.flowId due ∈ commit.records
  | .ended _ => False

def Errand.Attends (flow : FlowId) (errand : Errand σ δ) : Prop :=
  errand.event.flowId = flow ∧ errand.stage.Attends errand.event

/-- The result of an errand, if it has ended. -/
def Stage.result? : Stage σ → Option (Except Stop ProcessingOutcome)
  | .ended result => some result
  | _ => none

theorem Stage.eq_ended {stage : Stage σ} {result : Except Stop ProcessingOutcome}
    (h : stage.result? = some result) : stage = .ended result := by
  cases stage with
  | ended => rw [Option.some.inj h]
  | _ => cases h

namespace Convoy

/-- What may still wake a flow, or will set its timer. -/
inductive Attended (convoy : Convoy σ δ π) (flow : FlowId) : Prop where
  | armed (dispatcher : δ) (armed : ((convoy.timers dispatcher).due? flow).isSome)
  | sent (dispatcher : δ) (sent : ⟨flow, .wakeup⟩ ∈ convoy.channels dispatcher)
  | handled (ticket : Nat) (errand : Errand σ δ)
      (known : convoy.fleet.errands[ticket]? = some errand) (attends : errand.Attends flow)

/-- From one moment to the next, an errand breaks off that attended to a flow. That a transport does
not take the records over breaks nothing off: the timers have observed them. -/
def Strands (flow : FlowId) (before after : Convoy σ δ π) : Prop :=
  ∃ (ticket : Nat) (errand : Errand σ δ) (stop : Stop),
    before.fleet.errands[ticket]? = some errand ∧ errand.Attends flow ∧
      after.fleet.errands[ticket]? = some { errand with stage := .ended (.error stop) } ∧
      ∀ id error, stop ≠ .error (.publish id error)

variable [DecidableEq δ] (inner : δ → Publisher π)

theorem sent_step {convoy : Convoy σ δ π} {flow : FlowId} {dispatcher : δ}
    (sent : ⟨flow, .wakeup⟩ ∈ convoy.channels dispatcher) (move : Move σ δ) :
    (convoy.step inner move).Attended flow := by
  have stays (other : δ) (more : List Event) :
      ⟨flow, .wakeup⟩ ∈ convoy.withChannel other (convoy.channels other ++ more) dispatcher := by
    simp only [withChannel]
    split
    next here => exact List.mem_append_left _ (here ▸ sent)
    next => exact sent
  cases move with
  | fleet move => exact .sent dispatcher sent
  | arrives other event => exact .sent dispatcher (stays other [event])
  | fires other flow' =>
      simp only [step]
      split
      · exact .sent dispatcher sent
      · exact .sent dispatcher (stays other _)
  | takes other settings =>
      simp only [step]
      split
      · exact .sent dispatcher sent
      next event rest channel =>
        by_cases here : dispatcher = other
        · subst here
          rw [channel] at sent
          rcases List.mem_cons.1 sent with rfl | later
          · exact .handled convoy.fleet.errands.length
              ⟨dispatcher, settings, ⟨flow, .wakeup⟩, .called⟩ (by simp [Fleet.step]) ⟨rfl, rfl⟩
          · exact .sent dispatcher (by simpa [withChannel] using later)
        · exact .sent dispatcher (by simpa [withChannel, here] using sent)
  | recovers other => exact .sent dispatcher sent

theorem isSome_withTimers {convoy : Convoy σ δ π} {flow : FlowId} {dispatcher other : δ}
    {timers : Timers} (armed : ((convoy.timers dispatcher).due? flow).isSome)
    (keeps : dispatcher = other → (timers.due? flow).isSome) :
    (((convoy.withTimers other timers).published dispatcher).1.due? flow).isSome := by
  rw [timers_withTimers]
  split
  next here => exact keeps here
  next => exact armed

namespace Steady

variable {inner} {convoy : Convoy σ δ π} {flow : FlowId} {cp : Checkpoint} {due : Timestamp}

theorem armed_step (steady : convoy.Steady) (found : convoy.stored.get? flow = some cp)
    (alarm : cp.waitingFor.alarm? = some due) {dispatcher : δ}
    (armed : ((convoy.timers dispatcher).due? flow).isSome) (move : Move σ δ) :
    (convoy.step inner move).Attended flow := by
  cases move with
  | fleet move =>
      refine .armed dispatcher ?_
      rcases convoy.timers_fleet inner move dispatcher with
        same | ⟨ticket, errand, commit, version, known, stage, observed⟩
      · rw [same]
        exact armed
      · rw [observed, Timers.isSome_observe (steady.goesOn found alarm known stage)]
        exact .inl armed
  | arrives other event => exact .armed dispatcher armed
  | fires other flow' =>
      simp only [Convoy.step]
      split
      · exact .armed dispatcher armed
      · by_cases fired : dispatcher = other ∧ flow = flow'
        · obtain ⟨rfl, rfl⟩ := fired
          exact .sent dispatcher (by simp [withChannel])
        · refine .armed dispatcher (isSome_withTimers armed fun here => ?_)
          subst here
          rw [Timers.due?_cancel, if_neg fun same => fired ⟨rfl, same⟩]
          exact armed
  | takes other settings =>
      simp only [Convoy.step]
      split <;> exact .armed dispatcher armed
  | recovers other =>
      refine .armed dispatcher (isSome_withTimers armed fun here => ?_)
      rw [← here, Timers.due?_recover, Option.isSome_or, armed, Bool.or_true]

omit [DecidableEq δ] in
/-- A write of a flow that waits for a point in time has left its wait as it was, without being that
of a wake-up, or its records ask for a timer. -/
theorem asks (steady : convoy.Steady) {errand : Errand σ δ} {commit : Commit σ}
    (member : errand ∈ convoy.fleet.errands) (stage : errand.stage = .planned commit)
    (admitted : convoy.stored.admits commit.checkpoint.flowId commit.expected)
    (alarm : commit.written.waitingFor.alarm? = some due) :
    (∃ due, .scheduleWakeup errand.event.flowId due ∈ commit.records) ∨
      errand.event.payload ≠ .wakeup ∧ ∃ cp, convoy.stored.get? errand.event.flowId = some cp ∧
        commit.written.waitingFor = cp.waitingFor := by
  obtain ⟨_, planned⟩ :=
    steady.sound.planned_on_last Fleet.Law.plain_kept member stage admitted
  have leads := Fleet.Law.plain_kept.leads planned
  have isOf := (steady.sound.lines errand.event.flowId).isOf Fleet.Law.plain_kept.leads (.last _)
  rw [← steady.sound.stored] at leads isOf
  rcases leads.follows isOf {} with follows | ⟨item, _, cp, found, _, wait, _⟩
  · exact .inl (Timers.asked_of_observe (follows.alarm due alarm))
  · exact .inr ⟨item, cp, found, wait⟩

theorem waited_step (steady : convoy.Steady) (move : Move σ δ)
    (found : (convoy.step inner move).stored.get? flow = some cp)
    (alarm : cp.waitingFor.alarm? = some due) :
    (∃ old, convoy.stored.get? flow = some old ∧ old.waitingFor = cp.waitingFor) ∨
      (convoy.step inner move).Attended flow := by
  cases move with
  | arrives | recovers => exact .inl ⟨cp, found, rfl⟩
  | fires | takes =>
      simp only [Convoy.step] at found
      split at found <;> exact .inl ⟨cp, found, rfl⟩
  | fleet move =>
      have after : (convoy.step inner (.fleet move)).Steady := steady.step (.fleet move)
      have stored : Write.last? (Write.ofFlow (convoy.fleet.step (Timers.publishers inner)
          move).writes flow) = some cp := (after.sound.stored flow).symm.trans found
      obtain ⟨more, written, steps, _⟩ :=
        Fleet.step_steps (Timers.publishers inner) convoy.fleet move
      -- Unless the flow is written, its checkpoint is the one from before.
      have before (none : Write.ofFlow more flow = []) :
          ∃ old, convoy.stored.get? flow = some old ∧ old.waitingFor = cp.waitingFor := by
        rw [written, Write.ofFlow, List.filter_append, ← Write.ofFlow, ← Write.ofFlow, none,
          List.append_nil, ← steady.sound.stored] at stored
        exact ⟨cp, stored, rfl⟩
      generalize moved : (convoy.fleet.step (Timers.publishers inner) move).errands = errands at steps
      generalize convoy.fleet.handover move = handed at steps
      cases steps with
      | rests | submits | moves | publishes => exact .inl (before rfl)
      | @writes ticket errand commit known stage admitted =>
          by_cases mine : errand.event.flowId = flow
          · subst mine
            rw [written, Write.ofFlow, List.filter_append] at stored
            simp only [Write.last?, List.filter_cons, decide_true, if_true, List.filter_nil,
              List.getLast?_concat, Option.map_some, Option.some.injEq] at stored
            subst stored
            rcases steady.asks (List.mem_of_getElem? known) stage admitted alarm with
              asked | ⟨_, old, same, wait⟩
            · refine .inr (.handled ticket
                { errand with stage := .written commit (commit.expected + 1) } ?_ ⟨rfl, asked⟩)
              rw [Convoy.step, moved, Fleet.get?_set known, if_pos rfl]
            · exact .inl ⟨old, same, wait.symm⟩
          · exact .inl (before (by simp [Write.ofFlow, mine]))

omit [DecidableEq δ] in
theorem unrefused (steady : convoy.Steady) {errand : Errand σ δ}
    (member : errand ∈ convoy.fleet.errands) {loaded : Option Checkpoint}
    (stage : errand.stage = .loaded loaded)
    (will : (Stage.loaded loaded : Stage σ).Attends errand.event) (reason : Refusal) :
    ¬ Plan.Refuses errand.settings errand.event loaded reason := by
  intro refuses
  obtain ⟨wakes, cp, due, rfl, alarm⟩ := will
  have tracks := (steady.sound.errands errand member).2
  rw [Fleet.Law.Tracks, stage] at tracks
  rw [show errand.event = ⟨errand.event.flowId, .wakeup⟩ by rw [← wakes]] at refuses
  rw [Handler.alarm?_of_refuses refuses rfl (steady.rousable tracks cp rfl)] at alarm
  cases alarm

theorem advance_attends (steady : convoy.Steady) (found : convoy.stored.get? flow = some cp)
    (alarm : cp.waitingFor.alarm? = some due) {ticket : Nat} {errand : Errand σ δ}
    (known : convoy.fleet.errands[ticket]? = some errand) (attends : errand.Attends flow) :
    let after := convoy.step inner (.fleet (.advance ticket))
    after.Attended flow ∨ Strands flow convoy after ∨
      ∀ cp, after.stored.get? flow = some cp → cp.waitingFor.alarm? = none := by
  intro after
  have member := List.mem_of_getElem? known
  obtain ⟨mine, will⟩ := attends
  subst mine
  obtain ⟨next, site, advances, moved⟩ := Fleet.advance_eq_moved (Timers.publishers inner) known
  have here : after.fleet.errands[ticket]? = some { errand with stage := next } := by
    simp only [after, Convoy.step, Fleet.step, moved, Fleet.moved]
    rw [Fleet.get?_set known, if_pos rfl]
  have goesOn (attends : next.Attends errand.event) : after.Attended errand.event.flowId :=
    .handled ticket _ here ⟨rfl, attends⟩
  have breaksOff {stop : Stop} (ended : next = .ended (.error stop))
      (unpublished : ∀ id error, stop ≠ .error (.publish id error)) :
      Strands errand.event.flowId convoy after :=
    ⟨ticket, errand, stop, known, ⟨rfl, will⟩, ended ▸ here, unpublished⟩
  generalize stage : errand.stage = before at advances will
  cases advances with
  | load => exact .inl (goesOn ⟨will, cp, due, found, alarm⟩)
  | stop ran => exact .inr (.inl (breaksOff rfl (Plan.unpublished_of_stop ran)))
  | discard ran =>
      exact absurd (Plan.ofEvent_discard ran) (steady.unrefused member stage will _)
  | plan => exact .inl (goesOn will.1)
  | conflict => exact .inr (.inl (breaksOff rfl fun _ _ same => by cases same))
  | @write commit admitted =>
      cases timed : commit.written.waitingFor.alarm? with
      | some due =>
          rcases steady.asks member stage admitted timed with asked | ⟨other, _⟩
          · exact .inl (goesOn asked)
          · exact absurd will other
      | none =>
          obtain ⟨flowId, _⟩ :=
            steady.sound.planned_on_last Fleet.Law.plain_kept member stage admitted
          refine .inr (.inr fun cp stored => ?_)
          simp only [after, Convoy.step, Fleet.step, moved, Fleet.moved, Convoy.stored, flowId,
            SortedMap.get?_insert_self, Option.some.injEq] at stored
          rw [← stored, timed]
  | @publish commit version result ended =>
      refine .inl (.armed errand.dispatcher ?_)
      have observed : after.timers errand.dispatcher =
          (convoy.timers errand.dispatcher).observe commit.records := by
        simp only [after, Convoy.step, Fleet.step, moved, Fleet.moved, timers,
          Timers.publishers_observe, Fleet.site, if_true]
      rw [observed, Timers.isSome_observe (steady.goesOn found alarm known stage)]
      exact .inr will
  | rest => exact will.elim

/-- A flow that is attended to stays so in a step, or an errand breaks off, or it does not wait for a
point in time any more. -/
theorem attended_step (steady : convoy.Steady) (found : convoy.stored.get? flow = some cp)
    (alarm : cp.waitingFor.alarm? = some due) (attended : convoy.Attended flow) (move : Move σ δ) :
    let after := convoy.step inner move
    after.Attended flow ∨ Strands flow convoy after ∨
      ∀ cp, after.stored.get? flow = some cp → cp.waitingFor.alarm? = none := by
  intro after
  cases attended with
  | armed dispatcher armed => exact .inl (steady.armed_step found alarm armed move)
  | sent dispatcher sent => exact .inl (sent_step inner sent move)
  | handled ticket errand known attends =>
      by_cases moves : move = .fleet (.advance ticket)
      · subst moves
        exact steady.advance_attends found alarm known attends
      by_cases breaks : ∃ error, move = .fleet (.abort ticket error)
      · obtain ⟨error, rfl⟩ := breaks
        refine .inr (.inl ⟨ticket, errand, .error (.store error), known, attends, ?_,
          fun _ _ same => by cases same⟩)
        simp only [after, Convoy.step, Fleet.step, Fleet.abort]
        rw [List.getElem?_modify_eq, known]
        rfl
      · refine .inl (.handled ticket errand ?_ attends)
        exact errand_stays inner known moves fun error same => breaks ⟨error, same⟩

end Steady

theorem Strands.untouched {convoy : Convoy σ δ π} {flow : FlowId} {move : Move σ δ}
    (strands : Strands flow convoy (convoy.step inner move)) :
    (convoy.step inner move).stored = convoy.stored ∧
      (convoy.step inner move).fleet.published = convoy.fleet.published ∧
      (convoy.step inner move).channels = convoy.channels := by
  obtain ⟨ticket, errand, stop, known, ⟨_, will⟩, broken, unpublished⟩ := strands
  by_cases breaks : ∃ error, move = .fleet (.abort ticket error)
  · obtain ⟨error, rfl⟩ := breaks
    exact ⟨rfl, rfl, rfl⟩
  by_cases moves : move = .fleet (.advance ticket)
  · subst moves
    obtain ⟨next, site, advances, moved⟩ := Fleet.advance_eq_moved (Timers.publishers inner) known
    have after : convoy.step inner (.fleet (.advance ticket)) =
        { convoy with fleet := convoy.fleet.moved ticket errand next site } := by
      simp only [step, Fleet.step, moved]
    rw [after, Fleet.moved] at broken ⊢
    rw [Fleet.get?_set known, if_pos rfl] at broken
    obtain rfl : next = .ended (.error stop) := congrArg Errand.stage (Option.some.inj broken)
    generalize stage : errand.stage = before at advances will
    cases advances with
    | stop | conflict => exact ⟨rfl, rfl, rfl⟩
    | publish ended =>
        rcases ended with impossible | ⟨error, same⟩
        · cases impossible
        · exact absurd (Except.error.inj same) (unpublished _ error)
    | rest => exact will.elim
  · rw [errand_stays inner known moves fun error same => breaks ⟨error, same⟩] at broken
    rw [congrArg Errand.stage (Option.some.inj broken)] at will
    exact will.elim

/-- In the course of a run, an errand has broken off that attended to a flow, and ever since the flow
has waited for the same, and nobody has attended to it. -/
def Stranded (convoy : Convoy σ δ π) (moves : List (Move σ δ)) (flow : FlowId) (wait : Wait) : Prop :=
  ∃ earlier move later, moves = earlier ++ move :: later ∧
    Strands flow (convoy.run inner earlier) (convoy.run inner (earlier ++ [move])) ∧
    ∀ since, since <+: later →
      let meanwhile := convoy.run inner (earlier ++ move :: since)
      ¬ meanwhile.Attended flow ∧
        ∃ cp, meanwhile.stored.get? flow = some cp ∧ cp.waitingFor = wait

theorem run_concat (convoy : Convoy σ δ π) (moves : List (Move σ δ)) (move : Move σ δ) :
    convoy.run inner (moves ++ [move]) = (convoy.run inner moves).step inner move :=
  List.foldl_concat ..

theorem Steady.run {convoy : Convoy σ δ π} (steady : convoy.Steady) (moves : List (Move σ δ)) :
    (convoy.run inner moves).Steady := by
  induction moves generalizing convoy with
  | nil => exact steady
  | cons move rest ih => exact ih (steady.step move)

/-- A flow that waits for a point in time is attended to, or stranded. -/
theorem attended_or_stranded (hosts : δ → Host σ) (published : δ → π) (moves : List (Move σ δ))
    {flow : FlowId} {cp : Checkpoint} {due : Timestamp}
    (found : ((launch hosts published).run inner moves).stored.get? flow = some cp)
    (alarm : cp.waitingFor.alarm? = some due) :
    ((launch hosts published).run inner moves).Attended flow ∨
      (launch hosts published).Stranded inner moves flow cp.waitingFor := by
  induction moves using List.reverseRecOn generalizing cp with
  | nil => cases found
  | append_singleton moves move ih =>
      have steady := (Steady.launch hosts published).run inner moves
      refine or_iff_not_imp_left.2 fun unattended => ?_
      have last := unattended
      rw [run_concat] at found last
      obtain ⟨old, before, same⟩ := (steady.waited_step move found alarm).resolve_right last
      rw [← same] at alarm
      rcases ih before alarm with attended | ⟨earlier, broken, later, rfl, strands, since⟩
      · rcases steady.attended_step before alarm attended move with still | strands | none
        · exact absurd still last
        · refine ⟨moves, move, [], rfl, ?_, fun since begun => ?_⟩
          · rw [run_concat]
            exact strands
          · rw [List.prefix_nil.1 begun]
            refine ⟨unattended, cp, ?_, rfl⟩
            rw [run_concat]
            exact found
        · rw [same, none cp found] at alarm
          cases alarm
      · refine ⟨earlier, broken, later ++ [move], by simp, strands, fun more begun => ?_⟩
        rcases List.prefix_concat_iff.1 begun with rfl | before
        · rw [← List.cons_append, ← List.append_assoc]
          refine ⟨unattended, cp, ?_, rfl⟩
          rw [run_concat]
          exact found
        · rw [← same]
          exact since more before

/-- What becomes of the flows that wait for a point in time in a run. -/
structure Vigil (convoy : Convoy σ δ π) (moves : List (Move σ δ)) : Prop where
  /-- Each of them is attended to, or an errand has broken off that was the last to do so. -/
  attended : ∀ flow cp due, (convoy.run inner moves).stored.get? flow = some cp →
    cp.waitingFor.alarm? = some due →
      (convoy.run inner moves).Attended flow ∨ convoy.Stranded inner moves flow cp.waitingFor
  /-- An errand that breaks off leaves the store, all timers and all channels as they are. -/
  untouched : ∀ earlier move later flow, moves = earlier ++ move :: later →
    let before := convoy.run inner earlier
    let after := convoy.run inner (earlier ++ [move])
    Strands flow before after → after.stored = before.stored ∧
      after.fleet.published = before.fleet.published ∧ after.channels = before.channels
  /-- Setting the timers from what is stored makes up for it. -/
  recovered : ∀ dispatcher flow cp due, (convoy.run inner moves).stored.get? flow = some cp →
    cp.waitingFor.alarm? = some due →
      (((convoy.run inner moves).step inner (.recovers dispatcher)).timers dispatcher).due? flow =
        some due

/-- However the work of any number of dispatchers interleaves, breaks off and fails, and whenever
timers fire: a flow that waits for a point in time has a timer, or a wake-up in a channel, or an errand
that will wake it or set its timer, unless such an errand has broken off. -/
theorem keeps_vigil (hosts : δ → Host σ) (published : δ → π) (moves : List (Move σ δ)) :
    (launch hosts published).Vigil inner moves where
  attended _ _ _ found alarm := attended_or_stranded inner hosts published moves found alarm
  untouched earlier move later flow _ := by
    intro before after strands
    simp only [after, run_concat] at strands ⊢
    exact strands.untouched inner
  recovered dispatcher flow cp due found alarm := by
    rw [step, timers, timers_withTimers, if_pos rfl, Timers.due?_recover, found, Option.bind_some,
      alarm]
    rfl

end Convoy

namespace Samples.Echo

/-- An event is handled when the second is over that a flow waits for items. -/
def late : Settings := { timed with now := (Timestamp.of? 1 0).getD .epoch }

/-- An echo waits for an item, for a second. When that is over its timer fires, and the wake-up is
handled while the owner is in maintenance. -/
def overslept : List (Convoy.Move Unit Unit) :=
  [.arrives () begin, .takes () timed, .fleet (.advance 0), .fleet (.advance 0), .fleet (.advance 0),
    .fleet (.advance 0), .fleet (.beginMaintenance () ⟨"O=Alice", "g1"⟩ true), .fires () flow,
    .takes () late, .fleet (.advance 1), .fleet (.advance 1)]

end Samples.Echo

namespace Convoy

/-- A wake-up fails for a reason that passes, and the flow still waits for a point in time, without a
timer, with nothing in the channel and nothing under way. -/
theorem asleep_after_failed_wakeup :
    let convoy := (launch (fun _ => Echo.host) fun _ => []).run (fun _ => .collecting) Echo.overslept
    (∃ errand error, convoy.fleet.errands[1]? = some errand ∧ errand.event = ⟨Echo.flow, .wakeup⟩ ∧
      errand.stage = .ended (.error (.error error)) ∧ error.isTransient) ∧
    (∃ cp due, convoy.stored.get? Echo.flow = some cp ∧ cp.waitingFor.alarm? = some due) ∧
    (convoy.timers ()).due? Echo.flow = none ∧ convoy.channels () = [] ∧
    ¬ convoy.Attended Echo.flow := by
  intro convoy
  have unarmed : (convoy.timers ()).due? Echo.flow = none := by decide +kernel
  have empty : convoy.channels () = [] := by decide +kernel
  have ended : convoy.fleet.errands.map (fun errand => (errand.event, errand.stage.result?)) =
      [(Echo.begin, some (.ok (.committed Echo.flow 1 .suspended))),
        (⟨Echo.flow, .wakeup⟩,
          some (.error (.error (.environment (.inMaintenance ⟨"O=Alice", "g1"⟩)))))] := by
    decide +kernel
  have waits : ((convoy.stored.get? Echo.flow).bind (·.waitingFor.alarm?)).isSome := by
    decide +kernel
  obtain ⟨due, waits⟩ := Option.isSome_iff_exists.1 waits
  obtain ⟨cp, stored, alarm⟩ := Option.bind_eq_some_iff.1 waits
  obtain ⟨first, rest, errands, begun, ended⟩ := List.map_eq_cons_iff.1 ended
  obtain ⟨second, rest, rfl, woken, ended⟩ := List.map_eq_cons_iff.1 ended
  obtain rfl := List.map_eq_nil_iff.1 ended
  obtain ⟨_, committed⟩ := Prod.mk.inj begun
  obtain ⟨event, failed⟩ := Prod.mk.inj woken
  refine ⟨⟨second, _, by rw [errands]; rfl, event, Stage.eq_ended failed, rfl⟩,
    ⟨cp, due, stored, alarm⟩, unarmed, empty, fun attended => ?_⟩
  cases attended with
  | armed dispatcher armed =>
      rw [unarmed] at armed
      cases armed
  | sent dispatcher sent =>
      rw [empty] at sent
      cases sent
  | handled ticket errand known attends =>
      have member := List.mem_of_getElem? known
      rw [errands, List.mem_pair] at member
      obtain ⟨_, attends⟩ := attends
      rcases member with rfl | rfl
      · rw [Stage.eq_ended committed] at attends
        exact attends
      · rw [Stage.eq_ended failed] at attends
        exact attends

end Convoy

end DurableFlow
