import DurableFlow.Proofs.Addresses
import DurableFlow.Proofs.Endings
import DurableFlow.Proofs.Partings
import DurableFlow.Proofs.Provenance
import DurableFlow.Samples.Enquiry

/-! # New sessions

Flow logic opens sessions under names which no session of the checkpoint has, and not twice under one
name: `Effects.Fresh`. From the entrance in question the sessions go, each with its counterparty, into
the checkpoint that is written at last, and since that never changes, nothing was or will be sent on
them to anybody else.
-/

namespace DurableFlow

open Relation Samples Stateful

variable {σ δ : Type}

namespace Fiber

variable {exec : ExecutionContext σ} {fiber : Fiber σ} {ctx : Context} {world : σ}

theorem enter_reaches {logic : Logic σ RawStep} (keeps : logic.KeepsToPrimitives) :
    ctx.Reaches (enter exec fiber logic ctx world).context :=
  (keeps ctx world).1

theorem start_reaches {args : Bytes} (keeps : fiber.logic.KeepsToPrimitives) :
    ctx.Reaches (fiber.start exec args ctx world).context := by
  unfold start
  split
  · exact .refl
  · exact enter_reaches (keeps (.start args) _ rfl)

theorem resume_reaches {value : Resumed} (keeps : fiber.logic.KeepsToPrimitives) :
    ctx.Reaches (fiber.resume exec value ctx world).context := by
  unfold resume
  split
  · exact .refl
  · split
    · exact .refl
    next parked held =>
      simp only
      split
      · exact .refl
      · split
        · exact .refl
        next logic decoded =>
          have known : fiber.logic.logic? (.resume parked.state value) = .ok (logic value) := by
            simp [Flow.logic?, decoded, Except.map]
          exact enter_reaches (keeps _ _ known)

end Fiber

namespace Entrance

variable {settings : Settings} {entrance last : Entrance σ}

theorem reaches (keeps : entrance.fiber.logic.KeepsToPrimitives) :
    (entrance.context settings).Reaches (entrance.run settings).context := by
  unfold run
  split
  · exact Fiber.start_reaches keeps
  · exact Fiber.resume_reaches keeps

theorem Precedes.addressed (leads : ReflTransGen (Precedes settings) entrance last) :
    entrance.draft.Emits Addressed last.draft := by
  have composes := Addressed.universal.toComposes
  induction leads with
  | refl => exact .refl composes _
  | tail _ step ih =>
      obtain ⟨_, _, _, _, _, applied, moved, rfl⟩ := step
      have wrote := Addressed.universal.applied applied
      exact ih.trans composes (wrote.trans composes (.of_tends composes (.setStatus moved)))

theorem keeps_party {outcome final : FiberOutcome} {result : Draft × Next} {after : Draft}
    (ran : (entrance.run settings).result = .ok outcome)
    (applied : entrance.apply settings outcome = .ok result)
    (leads : ReflTransGen (Precedes settings) entrance last)
    (finished : (last.run settings).result = .ok final)
    (wrote : last.apply settings final = .ok (after, .done)) {id : SessionId} {party : Identity}
    (known : Checkpoint.party? (some result.1.checkpoint) id = some party) :
    Checkpoint.party? (some after.checkpoint) id = some party := by
  rcases leads.cases_head with rfl | ⟨next, ⟨_, _, _, _, ran', applied', moved, rfl⟩, rest⟩
  · cases ran.symm.trans finished
    cases applied.symm.trans wrote
    exact known
  · cases ran.symm.trans ran'
    cases applied.symm.trans applied'
    have composes := Addressed.universal.toComposes
    have moved : Draft.Emits Addressed _ _ := .of_tends composes (.setStatus moved)
    have since := (moved.trans composes (Precedes.addressed rest)).trans composes
      (Addressed.universal.applied wrote)
    obtain ⟨_, _, addressed⟩ := since.records
    exact addressed.keeps id party known

end Entrance

namespace Fleet

variable {π : Type} {recipes : δ → Recipe σ}

namespace Law

/-- Whatever is planned is a farewell, and comes about as it should. -/
def opening (recipes : δ → Recipe σ) : Law σ δ :=
  (parting False recipes).also fun _ settings event found commit =>
    ∃ prepared draft, Plan.Arises settings event found commit prepared draft

theorem opening_led : (opening recipes : Law σ δ).Led := fun planned => planned.1.1

theorem opening_kept
    (courteous : ∀ dispatcher, (recipes dispatcher).Offers (·.Courteous False)) :
    (opening recipes : Law σ δ).Kept :=
  (parting_kept courteous).also fun _ _ _ _ ran => Plan.ofEvent_arises ran

/-- Every session of a flow stays with its counterparty from one write to the next. -/
theorem Line.keeps_party {flow : FlowId} {writes : List Write}
    (line : (opening recipes : Law σ δ).Line flow writes) {id : SessionId} {party : Identity} :
    ∀ write ∈ writes, Checkpoint.party? (some write.checkpoint) id = some party →
      Checkpoint.party? (Write.last? writes) id = some party := by
  induction line with
  | nil => simp
  | write line mine allowed planned ih =>
      subst mine
      intro write member known
      obtain ⟨_, _, arises⟩ := planned.2
      have addressed := Addressed.universal.arises arises (line.isOf opening_led (.last _))
      rw [Write.last?, List.getLast?_concat, Option.map_some]
      rcases List.mem_append.1 member with before | here
      · exact addressed.keeps id party (ih write before known)
      · rw [List.mem_singleton.1 here] at known
        exact known

theorem Sound.fresh {fleet : Fleet σ δ π} (sound : (opening recipes).Sound fleet)
    (courteous : ∀ dispatcher, (recipes dispatcher).Offers (·.Courteous False))
    {errand : Errand σ δ} (member : errand ∈ fleet.errands) {found : Option Checkpoint}
    (stage : errand.stage = .loaded found) {prepared : Prepared}
    (opens : Plan.Opens errand.settings errand.event found prepared) {entrance : Entrance σ}
    (reached : prepared.Reaches errand.settings (fleet.hosts errand.dispatcher) entrance) :
    (entrance.run errand.settings).context.effects.Fresh entrance.draft.checkpoint := by
  obtain ⟨starts, past⟩ := sound.errands errand member
  rw [Tracks, stage] at past
  have line := (sound.lines errand.event.flowId).of_also
  have isOf := line.isOf parting_led past
  have tidy := (opens.farewell False isOf starts (line.tidy past)).2
  rw [← (Handler.prepare_prepares opens.prepares).flowId_eq isOf] at tidy
  have parts := reached.parts (courteous errand.dispatcher) (sound.hosts errand.dispatcher) tidy
  exact (Entrance.reaches parts.courteous.primitives).fresh parts.tidy

end Law

/-- Whatever is handed over for a session is addressed to the party with which it is stored. -/
theorem Law.Sound.addressee_of_handed {fleet : Fleet σ δ π}
    (sound : (Law.opening recipes).Sound fleet) {log : List (Handover δ)} (logged : fleet.Logged log)
    {flow : FlowId} {id : SessionId} {handover : Handover δ} (member : handover ∈ log)
    {party : Identity} (addressed : party ∈ Record.addressees flow id handover.records) :
    Checkpoint.party? (fleet.stored.get? flow) id = some party := by
  obtain ⟨_, write, among, _, same⟩ := logged.wrote handover member
  rw [← same] at addressed
  obtain ⟨record, emitted, sent⟩ := List.mem_filterMap.1 addressed
  have mine : write ∈ Write.ofFlow fleet.writes write.event.flowId := by simp [Write.ofFlow, among]
  have about := (sound.lines _).announced Law.opening_led write mine
  have here : write.event.flowId = flow :=
    (about.2 record emitted).symm.trans (Record.flowId_of_addressee? sent)
  rw [here] at mine
  have all := Addressed.universal.line Law.opening_led And.right (sound.lines flow)
  rw [sound.stored]
  exact all.names id party (List.mem_filterMap.2 ⟨record, List.mem_flatMap.2 ⟨write, mine, emitted⟩, sent⟩)

end Fleet

namespace Samples.Enquiry

theorem run_start (args : Bytes) (ctx : Context) (world : Unit) :
    (enquiry.start args).run.run (ctx, world) =
      let opened := ctx.initiateSession advisor
      match opened.2.send (Codec.fixed "octet" 1) opened.1 1 with
      | .error error => (.error (.error error), opened.2, world)
      | .ok request => (.ok (.suspend [] request), opened.2, world) := by
  simp only [enquiry, run_bind, Logic.run_context]
  cases (ctx.initiateSession advisor).2.send (Codec.fixed "octet" 1) _ 1 <;> rfl

theorem keepsToPrimitives : enquiry.KeepsToPrimitives := by
  intro input logic known ctx world
  cases input with
  | resume state value =>
      cases known
      exact ⟨.refl, fun _ _ impossible => by cases impossible⟩
  | start args =>
      cases known
      rw [run_start]
      cases built : (ctx.initiateSession advisor).2.send (Codec.fixed "octet" 1)
        (ctx.initiateSession advisor).1 1 with
      | error error =>
          simp only [built]
          exact ⟨.initiate .refl, fun _ _ impossible => by cases impossible⟩
      | ok request =>
          simp only [built]
          refine ⟨.initiate .refl, ?_⟩
          rintro _ _ ⟨⟩
          exact ⟨_, .initiate .refl, .send built, .refl⟩

theorem execution_offers : Recipe.Offers execution (·.KeepsToPrimitives) :=
  .of_single (fun _ _ _ made => by cases made; rfl) keepsToPrimitives

/-- What the request to start the flow through a session comes to before any flow logic runs. -/
def prepared (session : SessionId) : Prepared :=
  ⟨⟨{ Checkpoint.new Echo.flow owner "enquiry" .epoch with
    sessions := .ofList [(session, .new client)]
    startArgs := some []
    initiatedBy := some session }, []⟩, .start []⟩

theorem opens (session : SessionId) :
    Plan.Opens Echo.settings (begin session) none (prepared session) where
  live _ impossible := by cases impossible
  prepares := by rfl

/-- The entrance at which the flow is started. -/
def entrance (session : SessionId) : Entrance Unit where
  exec := ⟨0, owner, .ofList [("enquiry", enquiry)], .json⟩
  draft := (prepared session).draft.running
  fiber := .create Echo.flow "enquiry" enquiry
  call := .start []
  world := ()

/-- One dispatcher that has handled nothing yet. -/
def fleet : Fleet Unit Unit (List Record) :=
  .launch (fun _ => Host.fresh execution 1 1000 ()) []

/-- The flow is to be started, and no checkpoint of it was found. -/
def asked (session : SessionId) : List (Fleet.Move Unit Unit) :=
  [.submit () Echo.settings (begin session), .advance 0]

/-- It is started, and what it sends is handed over. -/
def answered (session : SessionId) : List (Fleet.Move Unit Unit) :=
  asked session ++ [.advance 0, .advance 0, .advance 0]

theorem reached (session : SessionId) : (prepared session).Reaches Echo.settings
    ((fleet.run (fun _ => .collecting) (asked session)).hosts ()) (entrance session) :=
  .started rfl rfl rfl (show Fiber.forFlow _ Echo.flow "enquiry" = _ from rfl)

theorem suspends : ∃ request continuation result,
    ((entrance Echo.session).run Echo.settings).result = .ok (.suspended request continuation) ∧
      (entrance Echo.session).apply Echo.settings (.suspended request continuation) = .ok result :=
  ⟨_, _, _, rfl, rfl⟩

theorem startsTidy (dispatcher : Unit) (settings : Settings) (event : Event)
    (member : .submit dispatcher settings event ∈ asked Echo.session ++ [.advance 0, .advance 0]) :
    event.StartsTidy := by
  intro request initiator payload initiated number named
  simp only [asked, List.mem_append, List.mem_cons, Fleet.Move.submit.injEq, reduceCtorEq,
    List.not_mem_nil, or_false] at member
  obtain ⟨_, _, rfl⟩ := member
  cases payload
  cases initiated
  exact absurd named (Thanks.session_foreign number)

/-- To whom something is sent on a session if the flow is started through one. -/
def addressees (session id : SessionId) : List Identity :=
  (fleet.handed (fun _ => .collecting) (answered session)).flatMap
    fun handover => Record.addressees Echo.flow id handover.records

end Samples.Enquiry

namespace Fleet

variable {π : Type}

/-- However the work of any number of dispatchers interleaves, breaks off and starts again: if flow
logic keeps to the primitives, and is not started through a session with a name that it gives to another
one, it opens its sessions under names that no session of the checkpoint has and no other session which
it opens at that entrance. Once an outcome that is no failure has been written, these sessions are there,
each with the party for whom it was opened. And if the event of the entrance gets as far as the store,
then whatever was or will be published for them in the whole run is addressed to these parties. -/
theorem opens_new_sessions [DecidableEq δ] (publishers : δ → Publisher π) (recipes : δ → Recipe σ)
    (primitives : ∀ dispatcher, (recipes dispatcher).Offers (·.KeepsToPrimitives))
    (capacity ttl : δ → Nat) (world : δ → σ) (published : π) (moves later : List (Move σ δ))
    (ticket : Nat)
    (starts : ∀ dispatcher settings event, .submit dispatcher settings event ∈ moves ++ later →
      event.StartsTidy) :
    let hosts dispatcher :=
      Host.fresh (recipes dispatcher) (capacity dispatcher) (ttl dispatcher) (world dispatcher)
    let before := (launch hosts published).run publishers moves
    let all := moves ++ .advance ticket :: later
    let after := (launch hosts published).run publishers all
    ∀ errand found prepared entrance, before.errands[ticket]? = some errand →
      errand.stage = .loaded found →
      Plan.Opens errand.settings errand.event found prepared →
      prepared.Reaches errand.settings (before.hosts errand.dispatcher) entrance →
      let effects := (entrance.run errand.settings).context.effects
      effects.Fresh entrance.draft.checkpoint ∧
        ∀ outcome result, (entrance.run errand.settings).result = .ok outcome →
          (∀ error, outcome ≠ .failed error) →
          entrance.apply errand.settings outcome = .ok result →
          ∀ id party, (id, party) ∈ effects.initiated →
            Checkpoint.party? (some result.1.checkpoint) id = some party ∧
              ∀ write ∈ after.writes, write.ticket = ticket →
                Checkpoint.party? (after.stored.get? errand.event.flowId) id = some party ∧
                  ∀ handover ∈ (launch hosts published).handed publishers all,
                    ∀ other ∈ Record.addressees errand.event.flowId id handover.records,
                      other = party := by
  intro hosts before all after errand found prepared entrance known stage opens reached effects
  have courteous : ∀ dispatcher, (recipes dispatcher).Offers (·.Courteous False) := by
    intro dispatcher number owner exec name flow built offered
    exact ⟨primitives dispatcher number owner exec name flow built offered, False.elim⟩
  have kept : (Law.opening recipes : Law σ δ).Kept := Law.opening_kept courteous
  have launched : (Law.opening recipes).Sound (launch hosts published) :=
    Law.sound_launch hosts published fun dispatcher => Host.Stocked.fresh _ _ _ _
  have fresh : effects.Fresh entrance.draft.checkpoint := by
    have sound := Law.sound_of_run kept publishers launched moves fun _ _ _ member =>
      starts _ _ _ (List.mem_append_left _ member)
    exact sound.fresh courteous (List.mem_of_getElem? known) stage opens reached
  refine ⟨fresh, fun outcome result ran succeeds applied id party member => ?_⟩
  have opened := Draft.applyOutcome_opens fresh succeeds applied member
  refine ⟨opened, fun write wrote mine => ?_⟩
  have sound := Law.sound_of_run kept publishers launched all fun _ _ _ member =>
    starts _ _ _ (by simpa [all] using member)
  have stored : Checkpoint.party? (after.stored.get? errand.event.flowId) id = some party := by
    have pursues := (pursues_advance publishers (settled_run publishers hosts published moves) known
      stage).run publishers later
    have same : after = (before.advance publishers ticket).run publishers later :=
      run_append publishers _ moves _
    obtain ⟨commit, ⟨_, planned⟩, event, checkpoint, _⟩ := pursues.wrote write (same ▸ wrote) mine
    obtain ⟨prepared', followed, opens', ends, rfl⟩ := Plan.ofEvent_followed planned
    cases opens.prepares.symm.trans opens'.prepares
    obtain ⟨last, final, leads, finished, concluded⟩ := ends.from reached
    have written : Checkpoint.party? (some write.checkpoint) id = some party := by
      rw [checkpoint]
      exact Entrance.keeps_party ran applied leads finished concluded opened
    rw [sound.stored]
    exact (sound.lines _).keeps_party write (List.mem_filter.2 ⟨wrote, by simp [event]⟩) written
  refine ⟨stored, fun handover handed other addressed => ?_⟩
  have logged := logged_run publishers hosts published all
  have named := sound.addressee_of_handed logged handed addressed
  exact Option.some.inj (named.symm.trans stored)

/-- An enquiry opens a new session with the advisor, and what it sends there goes to the advisor. -/
theorem opens_new_sessions_of_enquiry :
    let id : SessionId := .own Echo.flow 2
    let effects := ((Enquiry.entrance Echo.session).run Echo.settings).context.effects
    effects.initiated = [(id, Enquiry.advisor)] ∧
      effects.Fresh (Enquiry.entrance Echo.session).draft.checkpoint ∧
      Enquiry.addressees Echo.session id = [Enquiry.advisor] ∧
      ∀ other ∈ Enquiry.addressees Echo.session id, other = Enquiry.advisor := by
  intro id effects
  have initiated : effects.initiated = [(id, Enquiry.advisor)] := by decide +kernel
  obtain ⟨request, continuation, result, ran, applied⟩ := Enquiry.suspends
  obtain ⟨fresh, settles⟩ := opens_new_sessions (fun _ => .collecting) (fun _ => Enquiry.execution)
    (fun _ => Enquiry.execution_offers) (fun _ => 1) (fun _ => 1000) (fun _ => ()) []
    (Enquiry.asked Echo.session) [.advance 0, .advance 0] 0 Enquiry.startsTidy
    ⟨(), Echo.settings, Enquiry.begin Echo.session, .loaded none⟩ none _ _ rfl rfl
    (Enquiry.opens Echo.session) (Enquiry.reached Echo.session)
  obtain ⟨_, published⟩ := settles _ result ran (fun _ impossible => by cases impossible) applied id
    Enquiry.advisor (initiated ▸ List.mem_cons_self)
  obtain ⟨write, wrote, mine⟩ : ∃ write ∈ (Enquiry.fleet.run (fun _ => .collecting)
      (Enquiry.answered Echo.session)).writes, write.ticket = 0 := by decide +kernel
  refine ⟨initiated, fresh, by decide +kernel, fun other member => ?_⟩
  obtain ⟨handover, handed, addressed⟩ := List.mem_flatMap.1 member
  exact (published write wrote mine).2 handover handed other addressed

/-- An enquiry that is started through a session with the name of its own next one opens no new session,
and what it sends to the advisor goes to the client. -/
theorem opens_known_session_of_enquiry :
    let id : SessionId := .own Echo.flow 2
    enquiry.KeepsToPrimitives ∧
      (Enquiry.prepared id).Reaches Echo.settings
        ((Enquiry.fleet.run (fun _ => .collecting) (Enquiry.asked id)).hosts ()) (Enquiry.entrance id) ∧
      ((Enquiry.entrance id).run Echo.settings).context.effects.initiated = [(id, Enquiry.advisor)] ∧
      (Enquiry.entrance id).draft.checkpoint.sessions.contains id ∧
      Enquiry.addressees id id = [Enquiry.client] :=
  ⟨Enquiry.keepsToPrimitives, Enquiry.reached _, by decide +kernel, by decide +kernel,
    by decide +kernel⟩

end Fleet

end DurableFlow
