import DurableFlow.Proofs.Acknowledgements
import DurableFlow.Proofs.Handovers

/-! # Events that are delivered again

Whoever delivers an event cannot know that it was committed, and delivers it again. An item that a
session has taken in has been seen from then on, be it pending or consumed, and a flow that is stored
has been started, so the second delivery of either changes nothing: `Fleet.redelivery_discarded`.
-/

namespace DurableFlow

open Samples Stateful

/-- Whether an event brings something that is to come in once: the start of a flow, or an item. -/
def EventPayload.isDelivery : EventPayload → Bool
  | .startFlow _ => true
  | .session _ _ _ => true
  | _ => false

/-- A checkpoint to which an event brings nothing new. -/
def Checkpoint.HasTaken (cp : Checkpoint) : EventPayload → Prop
  | .startFlow _ => True
  | .session id number _ => ∀ session, cp.sessions.get? id = some session → session.hasSeen number
  | _ => False

namespace Handler

variable {cp : Checkpoint}

theorem session_of_seen (flowId : FlowId) (item : Item) {id : SessionId} {number : Nat}
    (seen : ∀ session, cp.sessions.get? id = some session → session.hasSeen number) :
    ∃ reason, session flowId id number item cp = .error reason := by
  unfold session
  split
  · exact ⟨_, rfl⟩
  next s found =>
    split
    · exact ⟨_, rfl⟩
    · exact ⟨_, by rw [if_pos (seen s found)]⟩

theorem prepare_of_taken (flowId : FlowId) (config : Config) (now : Timestamp) {payload : EventPayload} (taken : cp.HasTaken payload) :
    ∃ reason, prepare flowId payload config now (some cp) = .error (.refused reason) := by
  simp only [prepare]
  split
  next accepted =>
    cases payload with
    | startFlow request => cases accepted
    | session id number item =>
        obtain ⟨reason, refused⟩ := session_of_seen flowId item taken
        exact ⟨reason, by simp only [preprocess, refused, mapError_error]⟩
    | wakeup | confirmation | failure => cases taken
  · exact ⟨_, rfl⟩

end Handler

variable {σ δ π : Type}

/-- An event that brings nothing new is discarded, and the host is left as it is. -/
theorem Plan.ofEvent_of_taken (settings : Settings) {event : Event} {cp : Checkpoint}
    (taken : cp.HasTaken event.payload) (host : Host σ) :
    ∃ reason, (ofEvent settings event (some cp)).run.run host = (.ok (.discard reason), host) := by
  unfold ofEvent
  split
  · exact ⟨_, rfl⟩
  · obtain ⟨reason, refused⟩ := Handler.prepare_of_taken event.flowId settings.config settings.now taken
    rw [refused]
    exact ⟨reason, rfl⟩

theorem Services.handle_of_taken (publisher : Publisher π) (settings : Settings) {event : Event}
    {cp : Checkpoint} (taken : cp.HasTaken event.payload) {site : Site σ Store π}
    (stored : site.stored.get? event.flowId = some cp) :
    ∃ reason, (Services.handle ⟨Store.inMemory, publisher⟩ settings event).run.run site =
      (.ok (.discarded event.flowId reason), site) := by
  obtain ⟨reason, planned⟩ := Plan.ofEvent_of_taken settings taken site.host
  refine ⟨reason, ?_⟩
  simp only [run_handle, Store.inMemory_load, stored, planned]

theorem Intake.Accounts.seen {accepted removed : List (Nat × Item)} {session : Session}
    (accounts : Accounts accepted removed session.intake) {number : Nat} {item : Item}
    (member : (number, item) ∈ accepted) : session.hasSeen number := by
  rw [Session.hasSeen, Bool.or_eq_true, decide_eq_true_iff]
  rcases (accounts.accepted_iff number item).1 member with gone | pending
  · have counted : number ∈ removed.map Prod.fst := List.mem_map_of_mem gone
    rw [accounts.numbers, List.mem_range'_1] at counted
    simp only [Session.intake] at counted
    exact .inl (by omega)
  · exact .inr (Option.isSome_iff_exists.2 ⟨item, pending⟩)

namespace Fleet

theorem Law.Line.brought {flow : FlowId} {writes : List Write}
    (line : (Law.plain : Law σ δ).Line flow writes) (id : SessionId) :
    ∃ removed, (Intake.stored (Write.last? writes) id).Accounts
      (writes.flatMap fun write => write.event.payload.accepted id) removed := by
  induction line with
  | nil => exact ⟨[], .initial⟩
  | write line mine allowed planned ih =>
      obtain ⟨prepared, draft, arises⟩ := planned
      obtain ⟨removed, accounts⟩ := ih
      obtain ⟨gone, accounts, _⟩ := arises.accounts accounts
      refine ⟨gone, ?_⟩
      simp only [Write.last?, List.getLast?_concat, Option.map_some, List.flatMap_append,
        List.flatMap_cons, List.flatMap_nil, List.append_nil]
      exact accounts

/-- What the event of a write has brought is taken at any later time. -/
theorem Law.Line.taken {flow : FlowId} {writes : List Write}
    (line : (Law.plain : Law σ δ).Line flow writes) {write : Write} (member : write ∈ writes)
    (delivery : write.event.payload.isDelivery) :
    ∃ cp, Write.last? writes = some cp ∧ cp.HasTaken write.event.payload := by
  obtain ⟨last, ends⟩ : ∃ last, writes.getLast? = some last :=
    ⟨_, List.getLast?_eq_some_getLast (List.ne_nil_of_mem member)⟩
  have stored : Write.last? writes = some last.checkpoint := by rw [Write.last?, ends, Option.map_some]
  refine ⟨_, stored, ?_⟩
  cases payload : write.event.payload with
  | startFlow request => trivial
  | session id number item =>
      intro session found
      obtain ⟨removed, accounts⟩ := line.brought id
      rw [stored, Intake.stored_of_get? found] at accounts
      have among : (number, item) ∈ writes.flatMap fun write => write.event.payload.accepted id :=
        List.mem_flatMap.2 ⟨write, member, by simp [payload, EventPayload.accepted]⟩
      exact accounts.seen among
  | wakeup | confirmation | failure =>
      rw [payload] at delivery
      cases delivery

/-- Whatever flow logic does, and however the work of any number of dispatchers interleaves, breaks
off and starts again: an event that has started its flow or brought it an item is discarded whenever it
is handled again, by whichever dispatcher and whatever has happened in between, and the host that
handles it, the store and what was published are left as they are. -/
theorem redelivery_discarded [DecidableEq δ] (publishers : δ → Publisher π) (hosts : δ → Host σ)
    (published : π) (moves later : List (Move σ δ)) (write : Write)
    (member : write ∈ ((launch hosts published).run publishers moves).writes)
    (delivery : write.event.payload.isDelivery) (dispatcher : δ) (settings : Settings) :
    let fleet := (launch hosts published).run publishers (moves ++ later)
    let site := fleet.site dispatcher
    ∃ reason, (Services.handle ⟨Store.inMemory, publishers dispatcher⟩ settings write.event).run.run
      site = (.ok (.discarded write.event.flowId reason), site) := by
  intro fleet site
  have sound : Law.plain.Sound fleet := Law.sound_of_run Law.plain_kept publishers
    (Law.sound_launch hosts published fun _ => trivial) _ fun _ _ _ _ => trivial
  have still : write ∈ Write.ofFlow fleet.writes write.event.flowId := by
    obtain ⟨more, grown⟩ := writes_run publishers ((launch hosts published).run publishers moves) later
    refine List.mem_filter.2 ⟨?_, by simp⟩
    rw [show fleet.writes = _ from run_append publishers (launch hosts published) moves later ▸ grown]
    exact List.mem_append_left _ member
  obtain ⟨cp, last, taken⟩ := (sound.lines write.event.flowId).taken still delivery
  exact Services.handle_of_taken (publishers dispatcher) settings taken
    ((sound.stored write.event.flowId).trans last)

/-- One dispatcher starts an echo, and another brings it its second item. -/
def early : List (Move Unit Bool) :=
  [.submit false Echo.settings Echo.begin, .advance 0, .advance 0, .advance 0, .advance 0,
    .submit true Echo.settings (Echo.say 2 (.data [2])), .advance 1, .advance 1, .advance 1, .advance 1]

/-- The first item comes last, and the echo has finished. -/
def late : List (Move Unit Bool) :=
  [.submit true Echo.settings (Echo.say 1 (.data [1])), .advance 2, .advance 2, .advance 2]

/-- The second item of an echo is discarded when it is brought again, once the echo has finished. -/
theorem redelivery_discarded_of_echo :
    let start := launch (fun _ => Echo.host) []
    let publishers (_ : Bool) := Publisher.collecting
    let site := (start.run publishers (early ++ late)).site false
    ∃ write ∈ (start.run publishers early).writes, write.event = Echo.say 2 (.data [2]) ∧
      ∃ reason, (Services.handle ⟨Store.inMemory, .collecting⟩ Echo.settings write.event).run.run site =
        (.ok (.discarded write.event.flowId reason), site) := by
  intro start publishers site
  have written : (start.run publishers early).writes.map (·.event) =
      [Echo.begin, Echo.say 2 (.data [2])] := by decide +kernel
  have among : Echo.say 2 (.data [2]) ∈ (start.run publishers early).writes.map (·.event) := by
    rw [written]
    exact List.mem_cons_of_mem _ List.mem_cons_self
  obtain ⟨write, member, event⟩ := List.mem_map.1 among
  refine ⟨write, member, event, ?_⟩
  exact redelivery_discarded publishers _ [] early late write member (by rw [event]; rfl) false
    Echo.settings

end Fleet

end DurableFlow
