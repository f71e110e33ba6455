import DurableFlow.Proofs.Alarms
import DurableFlow.Proofs.Handovers

/-! # The end of a flow

A flow ends in many ways, and each of them ends the batch of its write with the same two records:
`Checkpoint.Announced`. No other write speaks of the end, and no write follows, so an errand that still
holds an earlier checkpoint of the flow comes to nothing. What is handed over for the flow once it is
over was written before: `Fleet.Over`.
-/

namespace DurableFlow

open Samples Stateful

variable {σ δ π : Type}

/-- How records speak of the end of the flow of a checkpoint: not at all as long as it goes on, and
last of all once it is over. -/
inductive Checkpoint.Announced (cp : Checkpoint) : List Record → Prop where
  | goesOn {records : List Record} (live : cp.isTerminal = false)
      (lasting : ∀ record ∈ records, record.isFinal = false) : Announced cp records
  | ended {said : List Record} {detail : Option String} {expiresAt : Timestamp}
      (terminal : cp.isTerminal) (lasting : ∀ record ∈ said, record.isFinal = false) :
      Announced cp (said ++
        [.flowStatus cp.flowId cp.status detail, .scheduleCleanup cp.flowId expiresAt])

/-- A batch that says that a flow is over. -/
def Handover.Ends (handover : Handover δ) (flow : FlowId) : Prop :=
  ∃ record ∈ handover.records, record.flowId = flow ∧ record.isFinal

theorem Checkpoint.Announced.terminal {cp : Checkpoint} {records : List Record}
    (announced : cp.Announced records) {record : Record} (member : record ∈ records)
    (final : record.isFinal) : cp.isTerminal := by
  cases announced with
  | goesOn live lasting =>
      rw [lasting record member] at final
      cases final
  | ended terminal lasting => exact terminal

theorem Draft.Reports.announced {before after : Draft} {flow : FlowId}
    (reports : before.Reports after) (rings : before.Rings flow) :
    after.checkpoint.Announced after.records := by
  obtain ⟨said, announced, ⟨_, talk, saying, talks⟩, _, records, announces⟩ := reports
  have lasting : ∀ record ∈ said.records, record.isFinal = false := by
    intro record member
    rw [saying] at member
    rcases List.mem_append.1 member with before | said
    · exact rings.lasting record before
    · exact (talks record said).lasting
  rw [records]
  cases terminal : after.checkpoint.isTerminal with
  | false =>
      refine .goesOn terminal fun record member => ?_
      rcases List.mem_append.1 member with before | here
      · exact lasting record before
      · exact announces.lasting terminal record here
  | true =>
      cases announces with
      | goesOn live =>
          rw [terminal] at live
          cases live
      | retrying retrying wait =>
          rw [Checkpoint.isTerminal, retrying] at terminal
          cases terminal
      | finished => exact .ended terminal lasting

theorem Plan.Leads.announced {settings : Settings} {event : Event} {loaded : Option Checkpoint}
    {commit : Commit σ} (leads : Leads settings event loaded commit)
    (isOf : Checkpoint.IsOf loaded event.flowId) :
    commit.written.Announced commit.records ∧
      ∀ record ∈ commit.records, record.flowId = event.flowId := by
  obtain ⟨draft, checkpoint, records, followed⟩ := leads.reports isOf
  have stamped {records : List Record} (announced : draft.checkpoint.Announced records) :
      commit.written.Announced records := by
    rw [Commit.written, checkpoint]
    cases announced with
    | goesOn live lasting => exact .goesOn live lasting
    | ended terminal lasting => exact .ended terminal lasting
  rw [records]
  rcases followed with ⟨before, reports, rings⟩ | ⟨cp, _, live, _, _, status, talk⟩
  · exact ⟨stamped (reports.announced rings), (reports.mine rings).2⟩
  · have still : draft.checkpoint.isTerminal = false := by
      rw [Checkpoint.isTerminal, status]
      exact live
    exact ⟨stamped (.goesOn still fun record member => (talk record member).lasting),
      fun record member => (talk record member).flowId⟩

namespace Fleet

namespace Law.Line

variable {law : Law σ δ} {flow : FlowId} {writes : List Write}

theorem announced (led : law.Led) (line : law.Line flow writes) : ∀ write ∈ writes,
    write.checkpoint.Announced write.records ∧ ∀ record ∈ write.records, record.flowId = flow := by
  induction line with
  | nil => simp
  | write line mine allowed planned ih =>
      intro write member
      rcases List.mem_append.1 member with before | here
      · exact ih write before
      · rw [List.mem_singleton.1 here]
        subst mine
        exact (led planned).announced (line.isOf led (.last _))

theorem live_before (led : law.Led) (line : law.Line flow writes) :
    writes.Pairwise fun earlier _ => earlier.checkpoint.isTerminal = false := by
  induction line with
  | nil => exact .nil
  | @write writes _ _ _ _ _ line mine allowed planned ih =>
      refine List.pairwise_append.2 ⟨ih, List.pairwise_singleton .., fun write member _ _ => ?_⟩
      rcases List.eq_nil_or_concat writes with rfl | ⟨init, last, rfl⟩
      · cases member
      · rw [List.concat_eq_append] at member ih planned
        rcases List.mem_append.1 member with before | here
        · exact (List.pairwise_append.1 ih).2.2 write before last List.mem_cons_self
        · rw [List.mem_singleton.1 here]
          exact (led planned).live _ (by simp [Write.last?])

/-- A write that ends its flow is the last one. -/
theorem last_of_terminal (led : law.Led) (line : law.Line flow writes) {write : Write}
    (member : write ∈ writes) (terminal : write.checkpoint.isTerminal) :
    writes.getLast? = some write := by
  have live := line.live_before led
  rcases List.eq_nil_or_concat writes with rfl | ⟨init, last, rfl⟩
  · cases member
  · rw [List.concat_eq_append] at member live ⊢
    rcases List.mem_append.1 member with before | here
    · rw [(List.pairwise_append.1 live).2.2 write before last List.mem_cons_self] at terminal
      cases terminal
    · rw [List.mem_singleton.1 here, List.getLast?_concat]

theorem eq_nil_of_over (led : law.Led) {more : List Write} (line : law.Line flow (writes ++ more))
    {cp : Checkpoint} (last : Write.last? writes = some cp) (terminal : cp.isTerminal) : more = [] := by
  obtain ⟨write, ends, rfl⟩ := Option.map_eq_some_iff.1 last
  have member := List.mem_of_getLast? ends
  cases more with
  | nil => rfl
  | cons next rest =>
      have live := (List.pairwise_append.1 (line.live_before led)).2.2 write member next
        List.mem_cons_self
      rw [live] at terminal
      cases terminal

end Law.Line

/-- Nothing has become of a flow since it was over: nothing was written for it, no errand of it has
committed anything, and all that was handed over for it had been written by then. -/
structure Still (flow : FlowId) (fleet after : Fleet σ δ π) (handed : List (Handover δ)) : Prop where
  commits : ∀ (ticket : Nat) (errand : Errand σ δ), after.errands[ticket]? = some errand →
    errand.event.flowId = flow → errand.stage.isCommitted →
      ∃ before : Errand σ δ, fleet.errands[ticket]? = some before ∧ before.stage.isCommitted
  awaits : ∀ (ticket : Nat) (errand : Errand σ δ) (commit : Commit σ) (version : Nat),
    after.errands[ticket]? = some errand → errand.event.flowId = flow →
      errand.stage = .written commit version → fleet.errands[ticket]? = some errand
  hands : ∀ handover ∈ handed, ∀ record ∈ handover.records, record.flowId = flow →
    ∃ (errand : Errand σ δ) (commit : Commit σ) (version : Nat),
      fleet.errands[handover.ticket]? = some errand ∧ errand.stage = .written commit version ∧
        handover.records = commit.records

namespace Still

variable {flow : FlowId} {fleet middle after : Fleet σ δ π} {log : List (Handover δ)}

theorem refl (flow : FlowId) (fleet : Fleet σ δ π) : Still flow fleet fleet [] where
  commits _ errand known _ committed := ⟨errand, known, committed⟩
  awaits _ _ _ _ known _ _ := known
  hands _ member := by cases member

theorem moves (still : Still flow fleet middle log) {ticket : Nat} {errand : Errand σ δ}
    {next : Stage σ} (known : middle.errands[ticket]? = some errand)
    (moved : after.errands = middle.errands.set ticket { errand with stage := next })
    (commits : errand.event.flowId = flow → next.isCommitted → errand.stage.isCommitted)
    (unwritten : errand.event.flowId = flow → ∀ commit version, next ≠ .written commit version) :
    Still flow fleet after log where
  commits place other found mine committed := by
    rw [moved, get?_set known] at found
    split at found
    next here =>
      subst here
      cases found
      exact still.commits _ _ known mine (commits mine committed)
    next => exact still.commits place other found mine committed
  awaits place other commit version found mine stage := by
    rw [moved, get?_set known] at found
    split at found
    · cases found
      exact absurd stage (unwritten mine commit version)
    · exact still.awaits place other commit version found mine stage
  hands := still.hands

theorem step (still : Still flow fleet middle log) {prior : List (Handover δ)}
    (logged : middle.Logged prior)
    (mine : ∀ write ∈ middle.writes, ∀ record ∈ write.records, record.flowId = write.event.flowId)
    {errands : List (Errand σ δ)} {more : List Write} {handed : List (Handover δ)}
    {move : Move σ δ} (steps : middle.Steps move errands more handed) (moved : after.errands = errands)
    (others : ∀ write ∈ more, write.event.flowId ≠ flow) : Still flow fleet after (log ++ handed) := by
  cases steps with
  | rests =>
      rw [List.append_nil]
      exact ⟨moved ▸ still.commits, moved ▸ still.awaits, still.hands⟩
  | @submits errand called =>
      rw [List.append_nil]
      -- A new errand has only been called, and commits and awaits nothing yet.
      have old {place : Nat} {other : Errand σ δ} (found : after.errands[place]? = some other)
          (stage : other.stage ≠ .called) : middle.errands[place]? = some other := by
        rw [moved, List.getElem?_append] at found
        split at found
        · exact found
        · rw [List.mem_singleton.1 (List.mem_of_getElem? found)] at stage
          exact absurd called stage
      refine ⟨fun place other found mine committed => ?_, fun place other commit version found mine stage => ?_,
        still.hands⟩
      · refine still.commits place other (old found fun stage => ?_) mine committed
        rw [stage] at committed
        cases committed
      · refine still.awaits place other commit version (old found ?_) mine stage
        rw [stage]
        exact fun same => by cases same
  | moves known quiet =>
      rw [List.append_nil]
      exact still.moves known moved (fun _ => quiet.committed) fun _ => quiet.unwritten
  | @writes ticket errand commit known stage admitted =>
      rw [List.append_nil]
      -- Nothing is written for the flow any more, so that this errand is another one's.
      have foreign := others _ List.mem_cons_self
      exact still.moves known moved (fun mine => absurd mine foreign) fun mine => absurd mine foreign
  | @publishes ticket errand commit version result known stage =>
      have rests : Still flow fleet after log := still.moves known moved
        (fun _ _ => by rw [stage]; rfl) fun _ _ _ ended => by cases ended
      refine ⟨rests.commits, rests.awaits, fun handover member record among belongs => ?_⟩
      rcases List.mem_append.1 member with before | now
      · exact still.hands handover before record among belongs
      · obtain ⟨same, records⟩ := Errand.of_handed stage now
        obtain ⟨⟨write, written, _, event, batch⟩, _⟩ := logged.awaits ticket errand commit version known stage
        have ours : errand.event.flowId = flow := by
          rw [← belongs, ← event]
          exact (mine write written record (by rw [batch, ← records]; exact among)).symm
        rw [same]
        exact ⟨errand, commit, version, still.awaits _ _ _ _ known ours stage, stage, records⟩

end Still

variable [DecidableEq δ] (publishers : δ → Publisher π)

/-- A flow that is over stays as it is: from then on its events are refused and change nothing, its
errands come to nothing, and nothing is handed over for it but what had been written by then. -/
structure Over (flow : FlowId) (cp : Checkpoint) (fleet : Fleet σ δ π) (later : List (Move σ δ)) :
    Prop where
  stored : (fleet.run publishers later).stored.get? flow = some cp
  writes : Write.ofFlow (fleet.run publishers later).writes flow = Write.ofFlow fleet.writes flow
  still : Still flow fleet (fleet.run publishers later) (fleet.handed publishers later)
  discards : ∀ (dispatcher : δ) (settings : Settings) (event : Event), event.flowId = flow →
    let site := (fleet.run publishers later).site dispatcher
    (Services.handle ⟨Store.inMemory, publishers dispatcher⟩ settings event).run.run site =
      (.ok (.discarded flow (.alreadyOver cp.status)), site)

omit [DecidableEq δ] in
theorem ofFlow_eq_of_over {law : Law σ δ} (led : law.Led) {fleet after : Fleet σ δ π}
    (sound : law.Sound fleet) (later : law.Sound after) {more : List Write}
    (grown : after.writes = fleet.writes ++ more) {flow : FlowId} {cp : Checkpoint}
    (stored : fleet.stored.get? flow = some cp) (terminal : cp.isTerminal) :
    Write.ofFlow more flow = [] := by
  have line := later.lines flow
  rw [grown, Write.ofFlow, List.filter_append] at line
  exact line.eq_nil_of_over led ((sound.stored flow).symm.trans stored) terminal

omit [DecidableEq δ] in
/-- What holds of a fleet that a flow was over in before. -/
structure Since (flow : FlowId) (fleet : Fleet σ δ π) (prior : List (Handover δ))
    (middle : Fleet σ δ π) (log : List (Handover δ)) : Prop where
  sound : Law.plain.Sound middle
  grown : ∃ more, middle.writes = fleet.writes ++ more
  logged : middle.Logged (prior ++ log)
  still : Still flow fleet middle log

section Since

variable {fleet middle : Fleet σ δ π} {prior log : List (Handover δ)} {flow : FlowId} {cp : Checkpoint}

theorem Since.step (since : Since flow fleet prior middle log) (sound : Law.plain.Sound fleet)
    (stored : fleet.stored.get? flow = some cp) (terminal : cp.isTerminal) (move : Move σ δ) :
    Since flow fleet prior (middle.step publishers move) (log ++ middle.handover move) := by
  have led : (Law.plain : Law σ δ).Led := Law.plain_kept.leads
  obtain ⟨more, grown⟩ := since.grown
  obtain ⟨further, written, steps, _⟩ := step_steps publishers middle move
  have next : Law.plain.Sound (middle.step publishers move) :=
    since.sound.step Law.plain_kept publishers fun _ _ _ _ => trivial
  have all : (middle.step publishers move).writes = fleet.writes ++ (more ++ further) := by
    rw [written, grown, List.append_assoc]
  refine ⟨next, ⟨_, all⟩, ?_, since.still.step since.logged ?_ steps rfl fun write member mine => ?_⟩
  · rw [← List.append_assoc]
    exact since.logged.step steps rfl written
  · intro write member
    have among : write ∈ Write.ofFlow middle.writes write.event.flowId :=
      List.mem_filter.2 ⟨member, by simp⟩
    exact ((since.sound.lines _).announced led write among).2
  · have among : write ∈ Write.ofFlow (more ++ further) flow :=
      List.mem_filter.2 ⟨List.mem_append_right _ member, by simpa using mine⟩
    rw [ofFlow_eq_of_over led sound next all stored terminal] at among
    cases among

/-- A flow that is over stays over. -/
theorem over_of_terminal (sound : Law.plain.Sound fleet) (logged : fleet.Logged prior)
    (stored : fleet.stored.get? flow = some cp) (terminal : cp.isTerminal)
    (later : List (Move σ δ)) : Over publishers flow cp fleet later := by
  have start : Since flow fleet prior fleet [] :=
    ⟨sound, ⟨[], (List.append_nil _).symm⟩, by rwa [List.append_nil], .refl flow fleet⟩
  have since := run_handed publishers (P := Since flow fleet prior) later []
    (fun _ _ move _ since => since.step publishers sound stored terminal move) start
  obtain ⟨more, grown⟩ := since.grown
  have none := ofFlow_eq_of_over Law.plain_kept.leads sound since.sound grown stored terminal
  have same : Write.ofFlow (fleet.run publishers later).writes flow = Write.ofFlow fleet.writes flow := by
    rw [Write.ofFlow] at none ⊢
    rw [grown, List.filter_append, none, List.append_nil, Write.ofFlow]
  have kept : (fleet.run publishers later).stored.get? flow = some cp := by
    rw [since.sound.stored, same, ← sound.stored, stored]
  refine ⟨kept, same, since.still, ?_⟩
  rintro dispatcher settings event rfl site
  have planned (host : Host σ) : (Plan.ofEvent settings event (some cp)).run.run host =
      (.ok (.discard (.alreadyOver cp.status)), host) := by
    simp only [Plan.ofEvent, Option.filter_some, terminal, if_true]
    rfl
  simp only [Services.run_handle, Store.inMemory_load, site, Fleet.site, kept, planned]

end Since

omit [DecidableEq δ] in
/-- A flow is said to be over in one batch at most. -/
theorem pairwise_ends {fleet : Fleet σ δ π} {handed : List (Handover δ)}
    (sound : Law.plain.Sound fleet) (logged : fleet.Logged handed) (flow : FlowId) :
    handed.Pairwise fun first second => ¬ (first.Ends flow ∧ second.Ends flow) := by
  have led : (Law.plain : Law σ δ).Led := Law.plain_kept.leads
  have last {handover : Handover δ} (member : handover ∈ handed) (ends : handover.Ends flow) :
      ∃ write, (Write.ofFlow fleet.writes flow).getLast? = some write ∧
        write.ticket = handover.ticket := by
    obtain ⟨_, write, among, ticket, records⟩ := logged.wrote handover member
    obtain ⟨record, listed, mine, final⟩ := ends
    rw [← records] at listed
    have ours : write ∈ Write.ofFlow fleet.writes write.event.flowId :=
      List.mem_filter.2 ⟨among, by simp⟩
    obtain ⟨announced, about⟩ := (sound.lines _).announced led write ours
    rw [← about record listed, mine] at ours
    exact ⟨write, (sound.lines flow).last_of_terminal led ours (announced.terminal listed final), ticket⟩
  refine (List.pairwise_map.1 logged.once).imp_of_mem fun here there differ => ?_
  rintro ⟨first, second⟩
  obtain ⟨write, ends, ticket⟩ := last here first
  obtain ⟨other, ends', ticket'⟩ := last there second
  rw [ends] at ends'
  cases ends'
  exact differ (ticket.symm.trans ticket')

/-- Whatever flow logic does, and however the work of any number of dispatchers interleaves, breaks
off and starts again: no batch of a flow speaks of its end as long as the stored checkpoint goes on;
the batch of the write that ends it has the final status and the cleanup for its last two records, and
is handed over once at most; and from then on nothing becomes of the flow any more. -/
theorem announces_its_end_once (hosts : δ → Host σ) (published : π) (moves : List (Move σ δ))
    (flow : FlowId) :
    let start := launch hosts published
    let fleet := start.run publishers moves
    let writes := Write.ofFlow fleet.writes flow
    let handed := start.handed publishers moves
    (fleet.stored.get? flow = Write.last? writes ∧
      (∀ write ∈ writes, write.checkpoint.flowId = flow ∧
        write.checkpoint.Announced write.records) ∧
      writes.Pairwise fun earlier _ => earlier.checkpoint.isTerminal = false) ∧
    (fleet.published = handed.foldl (Handover.deliver publishers) published ∧ fleet.Logged handed ∧
      handed.Pairwise fun first second => ¬ (first.Ends flow ∧ second.Ends flow)) ∧
    ∀ cp, fleet.stored.get? flow = some cp → cp.isTerminal →
      ∀ later, Over publishers flow cp fleet later := by
  intro start fleet writes handed
  have led : (Law.plain : Law σ δ).Led := Law.plain_kept.leads
  have sound : Law.plain.Sound fleet := Law.sound_of_run Law.plain_kept publishers
    (Law.sound_launch hosts published fun _ => trivial) moves fun _ _ _ _ => trivial
  have logged : fleet.Logged handed := logged_run publishers hosts published moves
  have line := sound.lines flow
  refine ⟨⟨sound.stored flow, fun write member => ⟨?_, (line.announced led write member).1⟩,
    line.live_before led⟩, ⟨published_run publishers start moves, logged, pairwise_ends sound logged flow⟩,
    fun cp stored terminal => over_of_terminal publishers sound logged stored terminal⟩
  exact line.isOf led (.inr ⟨write, member, rfl⟩) _ rfl

/-- An item that finishes an echo is written while another dispatcher is about to give the echo up. -/
def race : List (Move Unit Bool) :=
  [.submit false Echo.settings Echo.begin, .advance 0, .advance 0, .advance 0, .advance 0,
    .submit false Echo.settings (Echo.say 1 (.data [1])),
    .submit true Echo.settings ⟨Echo.flow, .failure "too slow"⟩,
    .advance 1, .advance 2, .advance 2, .advance 1, .advance 1]

/-- The echo that has finished stays as it is, whatever happens to the errand that is too late. -/
theorem announces_its_end_once_of_race :
    let publishers (_ : Bool) := Publisher.collecting
    let fleet := (launch (fun _ => Echo.host) []).run publishers race
    ∃ cp, fleet.stored.get? Echo.flow = some cp ∧ cp.isTerminal ∧
      ∀ later, Over publishers Echo.flow cp fleet later := by
  intro publishers fleet
  have finished : (fleet.stored.get? Echo.flow).any Checkpoint.isTerminal := by decide +kernel
  have once := announces_its_end_once publishers (fun _ => Echo.host) [] race Echo.flow
  cases stored : fleet.stored.get? Echo.flow with
  | none =>
      rw [stored] at finished
      cases finished
  | some cp =>
      rw [stored] at finished
      exact ⟨cp, rfl, finished, once.2.2 cp stored finished⟩

end Fleet

end DurableFlow
