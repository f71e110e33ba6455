import DurableFlow.Proofs.Farewells
import DurableFlow.Proofs.Replays
import DurableFlow.Samples.Thanks

/-! # What a fleet sends last on a session

An entrance into the logic of a courteous flow leads to another one, or to the end of an event, by a
farewell. So every commit is one, and with it the line of all writes of a flow. A write that closes a
session is the last that sends anything on it, whatever the primitives that the flow uses, and if the
flow is patient, the close is the last and the highest item on the session.
-/

namespace DurableFlow

open Stateful Hosted Samples

variable {σ δ : Type}

/-- What holds at an entrance into the logic of a courteous flow, seen from the draft that the event
was prepared to. -/
structure Entrance.Parts (strict : Prop) (first : Draft) (entrance : Entrance σ) : Prop where
  parts : first.Emits (Farewell strict) entrance.draft
  tidy : Tidy entrance.draft.checkpoint.flowId entrance.draft.checkpoint.sessions
  courteous : entrance.fiber.logic.Courteous strict

namespace Entrance.Parts

variable {strict : Prop} {first : Draft} {entrance : Entrance σ} {settings : Settings}
  {outcome : FiberOutcome}

theorem apply (holds : entrance.Parts strict first) {result : Draft × Next}
    (ran : (entrance.run settings).result = .ok outcome)
    (applied : entrance.apply settings outcome = .ok result) :
    first.Emits (Farewell strict) result.1 ∧
      Tidy result.1.checkpoint.flowId result.1.checkpoint.sessions := by
  have calls := (Entrance.calls ran).1
  obtain ⟨parts, tidy⟩ := Draft.applyOutcome_parts holds.tidy (calls.parting holds.courteous holds.tidy)
    applied
  exact ⟨holds.parts.trans (Farewell.composes strict) parts, parts.flowId ▸ tidy⟩

end Entrance.Parts

theorem Prepared.Reaches.parts {strict : Prop} {recipe : Recipe σ}
    (courteous : recipe.Offers (·.Courteous strict)) {host : Host σ}
    (stocked : host.Stocked recipe fun _ entry => entry.fiber.logic.Courteous strict)
    {settings : Settings} {prepared : Prepared} {entrance : Entrance σ}
    (tidy : Tidy prepared.draft.checkpoint.flowId prepared.draft.checkpoint.sessions)
    (reached : prepared.Reaches settings host entrance) : entrance.Parts strict prepared.draft := by
  have composes := Farewell.composes strict
  induction reached with
  | started decided acquired moved created =>
      have reached : prepared.Reaches settings host _ := .started decided acquired moved created
      have logic := reached.logic courteous stocked
      obtain ⟨_, rfl⟩ := Draft.setStatus_ok.1 moved
      exact ⟨.of_tends composes (.setStatus moved), tidy, logic⟩
  | woken decided acquired moved awake =>
      have reached : prepared.Reaches settings host _ := .woken decided acquired moved awake
      have logic := reached.logic courteous stocked
      obtain ⟨_, rfl⟩ := Draft.setStatus_ok.1 moved
      exact ⟨.of_tends composes (.setStatus moved), tidy, logic⟩
  | again reached ran applied moved holds =>
      have logic := (reached.again ran applied moved).logic courteous stocked
      obtain ⟨parts, tidy⟩ := holds.apply ran applied
      have tends := Draft.Tends.setStatus moved
      obtain ⟨_, rfl⟩ := Draft.setStatus_ok.1 moved
      exact ⟨parts.trans composes (.of_tends composes tends), tidy, logic⟩

/-- Whatever following a decision leads to, it gets there by a farewell, and a fiber that is left
suspended is one of a courteous flow. -/
theorem Prepared.Ends.parts {strict : Prop} {recipe : Recipe σ}
    (courteous : recipe.Offers (·.Courteous strict)) {host : Host σ}
    (stocked : host.Stocked recipe fun _ entry => entry.fiber.logic.Courteous strict)
    {settings : Settings} {prepared : Prepared} {after : Draft} {left : Option (Suspended σ)}
    (tidy : Tidy prepared.draft.checkpoint.flowId prepared.draft.checkpoint.sessions)
    (ends : prepared.Ends settings host (.ok (after, left))) :
    prepared.draft.Emits (Farewell strict) after ∧
      Tidy after.checkpoint.flowId after.checkpoint.sessions ∧
      ∀ suspended, left = some suspended → suspended.fiber.logic.Courteous strict := by
  have composes := Farewell.composes strict
  refine and_assoc.1 ⟨?_, ends.logic courteous stocked⟩
  cases ends with
  | skipped => exact ⟨.refl composes _, tidy⟩
  | unknown decided moved applied =>
      have tends := Draft.Tends.setStatus moved
      rw [← tends.flowId, ← tends.sessions] at tidy
      obtain ⟨parts, tidy⟩ := Draft.applyOutcome_parts tidy (fun succeeds => absurd rfl (succeeds _))
        applied
      have opened : prepared.draft.Emits (Farewell strict) _ := .of_tends composes tends
      exact ⟨opened.trans composes parts, parts.flowId ▸ tidy⟩
  | concluded reached ran applied =>
      exact (reached.parts courteous stocked tidy).apply ran applied

theorem Tidy.of_one {α : Type} {flow : FlowId} {sessions : SortedMap SessionId α}
    (low : ∀ number, sessions.contains (.own flow number) → number ≤ 1) : Tidy flow sessions := by
  intro number known
  obtain ⟨value, found⟩ := Option.isSome_iff_exists.1 known
  have filled : 0 < sessions.entries.length := List.length_pos_of_mem (SortedMap.mem_entries.2 found)
  exact Nat.le_trans (low number known) filled

theorem Plan.Opens.farewell (strict : Prop) {settings : Settings} {event : Event}
    {found : Option Checkpoint} {prepared : Prepared} (opens : Opens settings event found prepared)
    (isOf : Checkpoint.IsOf found event.flowId) (starts : event.StartsTidy)
    (tidy : ∀ cp, found = some cp → Tidy event.flowId cp.sessions) :
    Farewell strict event.flowId found prepared.draft.records (some prepared.draft.checkpoint) ∧
      Tidy event.flowId prepared.draft.checkpoint.sessions := by
  have readies := Handler.prepare_readies opens.prepares
  generalize payload : event.payload = given at readies
  generalize prepared.draft = draft at readies
  cases readies with
  | @opened request cp sessions =>
      constructor
      · refine .of_quiet (fun _ => rfl) ?_
        rintro id ⟨_, impossible, _⟩
        cases impossible
      · refine .of_one fun number known => ?_
        obtain ⟨session, held⟩ := Option.isSome_iff_exists.1 known
        obtain ⟨_, initiator, initiated, named⟩ := sessions _ session held
        exact starts request initiator payload initiated number named
  | received received silent =>
      exact ⟨.of_quiet (silent _) fun _ => Checkpoint.shut_of_received received,
        (tidy _ rfl).of_contains received.contains⟩
  | @gaveUp _ reason cp draft does =>
      constructor
      · have emits : Draft.Emits (Farewell strict) _ draft :=
          does.farewell (.givingUp _ _) fun _ shut => shut
        obtain ⟨more, records, farewell⟩ := emits.records
        rw [isOf cp rfl] at farewell
        rw [records]
        exact farewell
      · refine (tidy cp rfl).of_contains fun id => ?_
        rw [does.contains]
        simp [SessionAct.adds]

/-- A commit that sends nothing on a session which its flow has closed. -/
structure Commit.Parts (strict : Prop) (flow : FlowId) (found : Option Checkpoint)
    (commit : Commit σ) : Prop where
  farewell : Farewell strict flow found commit.records (some commit.written)
  numbered : Numbered flow found commit.records (some commit.written)
  tidy : Tidy flow commit.written.sessions
  /-- A fiber that is left suspended is one of a courteous flow. -/
  suspended : ∀ suspended, commit.suspended = some suspended →
    suspended.fiber.logic.Courteous strict

namespace Fleet

variable {π : Type} {recipes : δ → Recipe σ} {strict : Prop}

namespace Law

/-- Whatever is planned is a farewell. -/
def parting (strict : Prop) (recipes : δ → Recipe σ) : Law σ δ :=
  .stocked recipes Event.StartsTidy (fun _ _ entry => entry.fiber.logic.Courteous strict)
    (fun _ settings event found commit =>
      Plan.Leads settings event found commit ∧ commit.Parts strict event.flowId found)
    fun _ => True

theorem parting_led : (parting strict recipes : Law σ δ).Led := fun planned => planned.1

theorem Line.tidy {flow : FlowId} {writes : List Write}
    (line : (parting strict recipes : Law σ δ).Line flow writes) {found : Option Checkpoint}
    (past : Write.Past writes found) : ∀ cp, found = some cp → Tidy flow cp.sessions := by
  refine line.induction (P := fun cp => Tidy flow cp.sessions) ?_ past
  intro _ _ other _ _ same _ _ planned
  exact same ▸ planned.2.tidy

theorem parting_kept (courteous : ∀ dispatcher, (recipes dispatcher).Offers (·.Courteous strict)) :
    (parting strict recipes : Law σ δ).Kept := by
  apply stocked_kept
  case leads => exact fun planned => planned.1
  case outside => exact fun _ => trivial
  case append => exact fun _ kept => kept
  case suspends => exact fun planned _ _ left => planned.2.suspended _ left
  case skips => exact fun _ _ _ _ _ kept _ => kept
  case plans =>
    intro writes dispatcher settings event found host starts stocked line past
    have isOf := line.isOf parting_led past
    have tidy := line.tidy past
    rcases ran : (Plan.ofEvent settings event found).run.run host with ⟨stop | reason | commit, after⟩
    · trivial
    · trivial
    · obtain ⟨_, _, arises⟩ := Plan.ofEvent_arises ran
      obtain ⟨prepared, followed, opens, ends, rfl⟩ := Plan.ofEvent_followed ran
      obtain ⟨farewell, first⟩ := opens.farewell strict isOf starts tidy
      have flowId := (Handler.prepare_prepares opens.prepares).flowId_eq isOf
      rw [← flowId] at first
      obtain ⟨parts, tidy, suspended⟩ := ends.parts (courteous dispatcher) stocked first
      obtain ⟨more, records, parting⟩ := parts.records
      rw [flowId] at parting
      refine ⟨arises.leads, ?_, Numbered.universal.arises arises isOf, ?_, suspended⟩
      · have whole := farewell.trans parting
        rw [← records] at whole
        exact ⟨⟨whole.silent, whole.stays, whole.shuts⟩, whole.last⟩
      · rw [parts.flowId, flowId] at tidy
        exact tidy

/-- All writes of a flow are one farewell, and number what they send. -/
theorem Line.parts {flow : FlowId} {writes : List Write}
    (line : (parting strict recipes : Law σ δ).Line flow writes) :
    Farewell strict flow none (writes.flatMap (·.records)) (Write.last? writes) ∧
      Numbered flow none (writes.flatMap (·.records)) (Write.last? writes) := by
  induction line with
  | nil => exact ⟨.of_quiet (fun _ => rfl) fun _ shut => shut, .of_quiet (fun _ => rfl) fun _ => rfl⟩
  | write line mine allowed planned ih =>
      subst mine
      simp only [List.flatMap_append, List.flatMap_cons, List.flatMap_nil, List.append_nil]
      rw [Write.last?, List.getLast?_concat, Option.map_some]
      exact ⟨ih.1.trans planned.2.farewell, ih.2.trans planned.2.numbered⟩

/-- After a write that closes a session, no other write of the flow sends anything on it. -/
theorem Line.rests {flow : FlowId} {writes : List Write}
    (line : (parting strict recipes : Law σ δ).Line flow writes) (id : SessionId) :
    writes.Pairwise fun earlier later =>
      ∀ number, .close number ∈ Record.sents flow id earlier.records →
        Record.sents flow id later.records = [] := by
  induction line with
  | nil => exact .nil
  | @write writes _ _ _ _ _ line mine allowed planned ih =>
      refine List.pairwise_append.2 ⟨ih, List.pairwise_singleton _ _, ?_⟩
      intro earlier member later here number closed
      rw [List.mem_singleton.1 here]
      subst mine
      refine planned.2.farewell.silent id (line.parts.1.shuts id number ?_)
      obtain ⟨record, emitted, sent⟩ := List.mem_filterMap.1 closed
      exact List.mem_filterMap.2 ⟨record, List.mem_flatMap.2 ⟨earlier, member, emitted⟩, sent⟩

end Law

end Fleet

namespace Samples.Thanks

theorem run_start (hasty : Bool) (args : Bytes) (ctx : Context) (world : Unit) :
    ((thanks hasty).start args).run.run (ctx, world) =
      match ctx.initiator with
      | none => (.error (.error (.failed "nobody to thank")), ctx, world)
      | some id =>
        match ctx.send (Codec.fixed "octet" 1) id 1, ctx.closeSession id with
        | .error error, _ => (.error (.error error), ctx, world)
        | .ok request, closed =>
          if hasty then
            match closed with
            | .error error => (.error (.error error), ctx, world)
            | .ok next => (.ok (.suspend [] request), next, world)
          else (.ok (.suspend [] request), ctx, world) := by
  simp only [thanks, run_bind, Logic.run_context]
  cases ctx.initiator with
  | none => rfl
  | some id =>
      simp only [run_bind, Logic.run_ofFlow]
      cases ctx.send (Codec.fixed "octet" 1) id 1 with
      | error error => rfl
      | ok request =>
          cases hasty with
          | false => rfl
          | true =>
              simp only [mapError_ok, if_true, run_bind, Logic.run_ofFlow]
              cases ctx.closeSession id <;> rfl

theorem keepsToPrimitives (hasty : Bool) : (thanks hasty).KeepsToPrimitives := by
  intro input logic known ctx world
  cases input with
  | resume state value =>
      cases known
      exact ⟨.refl, fun _ _ impossible => by cases impossible⟩
  | start args =>
      cases known
      rw [run_start]
      cases ctx.initiator with
      | none => exact ⟨.refl, fun _ _ impossible => by cases impossible⟩
      | some id =>
          simp only
          cases built : ctx.send (Codec.fixed "octet" 1) id 1 with
          | error error => exact ⟨.refl, fun _ _ impossible => by cases impossible⟩
          | ok request =>
              cases hasty with
              | false =>
                  refine ⟨.refl, ?_⟩
                  rintro _ _ ⟨⟩
                  exact ⟨ctx, .refl, .send built, .refl⟩
              | true =>
                  cases closed : ctx.closeSession id with
                  | error error => exact ⟨.refl, fun _ _ impossible => by cases impossible⟩
                  | ok next =>
                      refine ⟨.close closed .refl, ?_⟩
                      rintro _ _ ⟨⟩
                      exact ⟨ctx, .refl, .send built, .close closed .refl⟩

theorem patient : (thanks false).Patient := by
  intro ctx state request effects fresh suspends message _
  obtain ⟨input, logic, world, known, ran, rfl⟩ := suspends
  cases input with
  | resume state value =>
      cases known
      cases ran
  | start args =>
      cases known
      rw [run_start]
      cases ctx.initiator with
      | none => simp [fresh, Effects.none]
      | some id =>
          simp only
          cases ctx.send (Codec.fixed "octet" 1) id 1 <;> simp [fresh, Effects.none]

theorem execution_offers {hasty : Bool} {P : Flow Unit → Prop} (holds : P (thanks hasty)) :
    Recipe.Offers (execution hasty) P :=
  .of_single (fun _ _ _ made => by cases made; rfl) holds

/-- One dispatcher starts the flow, and wakes it up once its message is durable. -/
def visit : List (Fleet.Move Unit Unit) :=
  [.submit () Echo.settings begin, .advance 0, .advance 0, .advance 0, .advance 0,
    .submit () Echo.settings wake, .advance 1, .advance 1, .advance 1, .advance 1]

theorem session_foreign (number : Nat) : Echo.session ≠ .own Echo.flow number := by
  intro named
  have lengths := congrArg (fun id : SessionId => id.text.length) named
  have long : Echo.flow.text.length = 36 := by decide +kernel
  have short : Echo.session.text.length = 2 := by decide +kernel
  simp only [SessionId.own, String.length_append, long, short] at lengths
  omega

theorem visit_startsTidy (dispatcher : Unit) (settings : Settings) (event : Event)
    (member : .submit dispatcher settings event ∈ visit) : event.StartsTidy := by
  intro request initiator payload initiated number named
  simp only [visit, List.mem_cons, Fleet.Move.submit.injEq, reduceCtorEq, false_or,
    List.not_mem_nil, or_false] at member
  rcases member with ⟨_, _, rfl⟩ | ⟨_, _, rfl⟩
  · cases payload
    cases initiated
    exact absurd named (session_foreign number)
  · cases payload

/-- What is sent while that happens. -/
def sents (hasty : Bool) : List Sent :=
  let fleet := (Fleet.launch (fun _ => Host.fresh (execution hasty) 1 1000 ()) []).run
    (fun _ => .collecting) visit
  Record.sents Echo.flow Echo.session ((Write.ofFlow fleet.writes Echo.flow).flatMap (·.records))

end Samples.Thanks

namespace Fleet

variable {π : Type}

/-- However the work of any number of dispatchers interleaves, breaks off and starts again: if flow
logic keeps to the primitives, and is not started through a session with a name that it gives to
another one, then a write which closes a session is the last that sends anything on it. And if flow
logic never closes a session that its request sends on, the close is the last item on the session over
all writes in the order of their versions, and has the highest number. -/
theorem closes_last [DecidableEq δ] (publishers : δ → Publisher π) (recipes : δ → Recipe σ)
    (primitives : ∀ dispatcher, (recipes dispatcher).Offers (·.KeepsToPrimitives))
    (capacity ttl : δ → Nat) (world : δ → σ) (published : π) (moves : List (Move σ δ))
    (starts : ∀ dispatcher settings event, .submit dispatcher settings event ∈ moves →
      event.StartsTidy) (flow : FlowId) (id : SessionId) :
    let hosts dispatcher :=
      Host.fresh (recipes dispatcher) (capacity dispatcher) (ttl dispatcher) (world dispatcher)
    let fleet := (launch hosts published).run publishers moves
    let writes := Write.ofFlow fleet.writes flow
    (writes.Pairwise fun earlier later =>
      ∀ number, .close number ∈ Record.sents flow id earlier.records →
        Record.sents flow id later.records = []) ∧
    ((∀ dispatcher, (recipes dispatcher).Offers (·.Patient)) → ∀ earlier number later,
      Record.sents flow id (writes.flatMap (·.records)) = earlier ++ .close number :: later →
        later = [] ∧ ∀ sent ∈ earlier, sent.number < number) := by
  intro hosts fleet writes
  let strict := ∀ dispatcher, (recipes dispatcher).Offers (·.Patient)
  have courteous : ∀ dispatcher, (recipes dispatcher).Offers (·.Courteous strict) := by
    intro dispatcher number owner exec name flow built known
    exact ⟨primitives dispatcher number owner exec name flow built known,
      fun patient => patient dispatcher number owner exec name flow built known⟩
  have launched : (Law.parting strict recipes).Sound (launch hosts published) :=
    Law.sound_launch hosts published fun dispatcher => Host.Stocked.fresh _ _ _ _
  have sound := Law.sound_of_run (Law.parting_kept courteous) publishers launched moves starts
  have line := sound.lines flow
  refine ⟨line.rests id, fun patient earlier number later split => ?_⟩
  obtain ⟨farewell, numbered⟩ := line.parts
  have last := farewell.last patient id
  have rising := numbered.rising id
  rw [split] at last rising
  constructor
  · cases later with
    | nil => rfl
    | cons next others =>
        have goesOn := (List.pairwise_cons.1 (List.pairwise_append.1 last).2.1).1
        exact (goesOn next List.mem_cons_self).elim
  · intro sent member
    exact (List.pairwise_append.1 rising).2.2 sent member _ List.mem_cons_self

/-- Thanks that are not hasty are closed last. -/
theorem closes_last_of_thanks :
    Thanks.sents false = [.data 1, .close 2] ∧
      ∀ earlier number later, Thanks.sents false = earlier ++ .close number :: later →
        later = [] ∧ ∀ sent ∈ earlier, sent.number < number := by
  refine ⟨by decide +kernel, ?_⟩
  have closes := closes_last (fun _ => .collecting) (fun _ => Thanks.execution false)
    (fun _ => Thanks.execution_offers (Thanks.keepsToPrimitives false)) (fun _ => 1) (fun _ => 1000)
    (fun _ => ()) [] Thanks.visit Thanks.visit_startsTidy Echo.flow Echo.session
  exact closes.2 fun _ => Thanks.execution_offers Thanks.patient

/-- A hasty flow keeps to the primitives, and sends its thanks after the close. -/
theorem closes_first_of_hasty_thanks :
    (thanks true).KeepsToPrimitives ∧ Thanks.sents true = [.close 1, .data 2] :=
  ⟨Thanks.keepsToPrimitives true, by decide +kernel⟩

end Fleet

end DurableFlow
