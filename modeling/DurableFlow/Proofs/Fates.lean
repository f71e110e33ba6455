import DurableFlow.Proofs.Acknowledgements
import DurableFlow.Proofs.Farewells

/-! # How sessions end

A session is open until its flow closes it, its flow gives it up, or the close of its counterparty is
consumed: `SessionStatus.Fares`. An act ends the sessions that it says, and records that, `Does.marks`.
A flow that keeps to the primitives asks for no act on a session that has ended, and only open ones are
ended by the end of their flow; so whatever outcome is written, its records say how the sessions fare.
-/

namespace DurableFlow

open Stateful

/-- How a session fares, by what is recorded of its end and by the items that are consumed: it stays as
it is, this flow ends it and records that once, or the close of its counterparty is consumed. -/
inductive SessionStatus.Fares :
    SessionStatus → List SessionStatus → List Item → SessionStatus → Prop where
  | stays {status : SessionStatus} {items : List Item} : Fares status [] items status
  | ended {status : SessionStatus} {items : List Item}
      (own : status = .closed ∨ status = .errored) : Fares .open [status] items status
  | lost {items : List Item} (consumed : .close ∈ items) : Fares .open [] items .closedByPeer

/-- A session from which items may be consumed. -/
def SessionStatus.Receptive (status : SessionStatus) : Prop :=
  status = .open ∨ status = .closedByPeer

namespace SessionStatus

/-- How a session stands; one that is not known is yet to be opened. -/
def find (sessions : SortedMap SessionId Session) (id : SessionId) : SessionStatus :=
  ((sessions.get? id).map (·.status)).getD .open

/-- How a session of a flow stands, be the flow stored or not. -/
def stored (loaded : Option Checkpoint) (id : SessionId) : SessionStatus :=
  (loaded.map fun cp => find cp.sessions id).getD .open

namespace Fares

variable {a b c : SessionStatus} {first second : List SessionStatus} {items more : List Item}

theorem trans (ab : Fares a first items b) (bc : Fares b second more c) :
    Fares a (first ++ second) (items ++ more) c := by
  cases ab with
  | stays =>
      cases bc with
      | stays => exact .stays
      | ended own => exact .ended own
      | lost consumed => exact .lost (List.mem_append_right _ consumed)
  | ended own =>
      cases bc with
      | stays => exact .ended own
      | ended | lost => rcases own with impossible | impossible <;> cases impossible
  | lost consumed =>
      cases bc with
      | stays => exact .lost (List.mem_append_left _ consumed)

theorem eq_of_ended (ab : Fares a first items b) (ended : a ≠ .open) : b = a := by
  cases ab with
  | stays => rfl
  | ended | lost => exact absurd rfl ended

theorem receptive (ab : Fares a [] items b) (receptive : a.Receptive) : b.Receptive := by
  cases ab with
  | stays => exact receptive
  | lost => exact .inr rfl

end Fares

variable {sessions : SortedMap SessionId Session} {id : SessionId}

theorem find_of_get? {session : Session} (found : sessions.get? id = some session) :
    find sessions id = session.status := by
  rw [find, found]
  rfl

theorem find_insert_self (sessions : SortedMap SessionId Session) (id : SessionId)
    (session : Session) : find (sessions.insert id session) id = session.status :=
  find_of_get? (SortedMap.get?_insert_self ..)

theorem find_insert_of_ne (sessions : SortedMap SessionId Session) {id other : SessionId}
    (session : Session) (differs : other ≠ id) :
    find (sessions.insert id session) other = find sessions other := by
  rw [find, find, SortedMap.get?_insert_of_ne _ _ differs]

theorem known_of_ended (ended : find sessions id ≠ .open) :
    ∃ session, sessions.get? id = some session ∧ session.status = find sessions id := by
  cases found : sessions.get? id with
  | none =>
      rw [find, found] at ended
      exact absurd rfl ended
  | some session => exact ⟨session, rfl, (find_of_get? found).symm⟩

theorem find_of_unshut {cp : Checkpoint} (unshut : ¬ Checkpoint.Shut (some cp) id) :
    find cp.sessions id = .open := by
  by_contra ended
  obtain ⟨session, found, same⟩ := known_of_ended ended
  refine unshut ⟨session, found, ?_⟩
  rw [Session.isOpen, same, decide_eq_false_iff_not]
  exact ended

theorem find_of_openSessions {cp : Checkpoint} (listed : id ∈ cp.openSessions) :
    find cp.sessions id = .open := by
  obtain ⟨session, found, isOpen⟩ := SortedMap.mem_keys_filter.1 listed
  rw [find_of_get? found]
  simpa [Session.isOpen] using isOpen

end SessionStatus

namespace Checkpoint

open SessionStatus

/-- What is consumed of a session, and how it fares. -/
def Consumed (before after : SortedMap SessionId Session) (id : SessionId) : Prop :=
  ∃ items, (Intake.find before id).Takes items (Intake.find after id) ∧
    (SessionStatus.find before id).Fares [] (items.map Prod.snd) (SessionStatus.find after id)

namespace Consumed

variable {a b c : SortedMap SessionId Session} {id : SessionId}

theorem refl (sessions : SortedMap SessionId Session) (id : SessionId) :
    Consumed sessions sessions id := ⟨[], .none, .stays⟩

theorem trans (ab : Consumed a b id) (bc : Consumed b c id) : Consumed a c id := by
  obtain ⟨first, takes, fares⟩ := ab
  obtain ⟨second, takes', fares'⟩ := bc
  refine ⟨first ++ second, takes.trans takes', ?_⟩
  rw [List.map_append]
  exact fares.trans fares'

theorem receptive (ab : Consumed a b id) (receptive : (SessionStatus.find a id).Receptive) :
    (SessionStatus.find b id).Receptive := by
  obtain ⟨_, _, fares⟩ := ab
  exact fares.receptive receptive

theorem consume (sessions : SortedMap SessionId Session) (first id : SessionId)
    (receptive : (SessionStatus.find sessions first).Receptive) :
    Consumed sessions (Checkpoint.consume sessions first).2 id := by
  cases arrived : (Intake.find sessions first).head? with
  | none =>
      rw [consume_of_stalled arrived]
      exact .refl sessions id
  | some item =>
      obtain ⟨session, found, _, consumed⟩ := consume_of_head? arrived
      by_cases here : id = first
      · subst here
        refine ⟨[((Intake.find sessions id).next, item)], ?_, ?_⟩
        · rw [find_consume_self arrived]
          exact .item arrived .none
        · rw [find_of_get? found] at receptive ⊢
          rw [consumed, SessionStatus.find_insert_self]
          cases item with
          | data payload => exact .stays
          | close =>
              rcases receptive with isOpen | lost
              · rw [isOpen]
                exact .lost List.mem_cons_self
              · rw [lost]
                exact .stays
      · refine ⟨[], ?_, ?_⟩
        · rw [find_consume_of_ne sessions here]
          exact .none
        · rw [consumed, SessionStatus.find_insert_of_ne _ _ here]
          exact .stays

theorem collect (sessions : SortedMap SessionId Session) (messages : Messages) {ids : List SessionId}
    (receptive : ∀ first ∈ ids, (SessionStatus.find sessions first).Receptive) (id : SessionId) :
    Consumed sessions (Checkpoint.collect sessions messages ids).2 id := by
  induction ids generalizing sessions messages with
  | nil => exact .refl sessions id
  | cons first rest ih =>
      rw [collect_cons]
      have consumes (other : SessionId) :=
        Consumed.consume sessions first other (receptive first List.mem_cons_self)
      refine (consumes id).trans (ih _ _ fun other listed => ?_)
      exact (consumes other).receptive (receptive other (List.mem_cons_of_mem _ listed))

theorem of_answer {sessions after : SortedMap SessionId Session} {awaited : List SessionId}
    {value : Resumed} (answer : Answer sessions awaited value after) (id : SessionId) :
    Consumed sessions after id := by
  have receptive {other : SessionId} (canDeliver : CanDeliver sessions other) :
      (SessionStatus.find sessions other).Receptive := by
    obtain ⟨session, _, found, isOpen, _⟩ := canDeliver
    rw [find_of_get? found]
    exact .inl (by simpa [Session.isOpen] using isOpen)
  cases answer with
  | ended listed found finished => exact .refl sessions id
  | closed listed canDeliver closing => exact consume sessions _ id (receptive canDeliver)
  | received canDeliver data =>
      exact collect sessions {} (fun other listed => receptive (canDeliver other listed)) id

theorem of_answered {cp : Checkpoint} {value : Resumed} {after : SortedMap SessionId Session}
    (answered : Draft.Answered cp value after) (id : SessionId) : Consumed cp.sessions after id := by
  cases answered with
  | confirmed wait => exact .refl _ id
  | taken wait answer => exact of_answer answer id

end Consumed

end Checkpoint

namespace Record

/-- How this flow has left a session, if a record says so. -/
def ending? (flow : FlowId) (id : SessionId) : Record → Option SessionStatus
  | .sessionClose flow' id' _ _ => if flow' = flow ∧ id' = id then some .closed else none
  | .sessionError flow' id' _ _ => if flow' = flow ∧ id' = id then some .errored else none
  | _ => none

/-- All that records say of how this flow has left a session. -/
def endings (flow : FlowId) (id : SessionId) (records : List Record) : List SessionStatus :=
  records.filterMap (ending? flow id)

theorem endings_append (flow : FlowId) (id : SessionId) (first second : List Record) :
    endings flow id (first ++ second) = endings flow id first ++ endings flow id second :=
  List.filterMap_append

theorem endings_eq_nil {records : List Record} (apart : ∀ record ∈ records, record.session? = none)
    (flow : FlowId) (id : SessionId) : endings flow id records = [] := by
  refine List.filterMap_eq_nil_iff.2 fun record member => ?_
  have apart := apart record member
  cases record <;> first | rfl | cases apart

end Record

namespace SessionAct

/-- How an act ends a session, if it does. -/
def ending? (id : SessionId) : SessionAct → Option SessionStatus
  | .add _ _ => none
  | .close other => if other = id then some .closed else none
  | .send _ => none
  | .giveUp _ other => if other = id then some .errored else none

/-- All ends that acts put to a session. -/
def endings (id : SessionId) (acts : List SessionAct) : List SessionStatus :=
  acts.filterMap (ending? id)

theorem own_of_endings {id : SessionId} {acts : List SessionAct} {status : SessionStatus}
    (member : status ∈ endings id acts) : status = .closed ∨ status = .errored := by
  obtain ⟨act, _, ends⟩ := List.mem_filterMap.1 member
  cases act with
  | add | send => cases ends
  | close other | giveUp reason other =>
      simp only [ending?] at ends
      split at ends <;> cases ends
      simp

theorem endings_append (id : SessionId) (first second : List SessionAct) :
    endings id (first ++ second) = endings id first ++ endings id second :=
  List.filterMap_append

theorem endings_acts (effects : Effects) (id : SessionId) :
    endings id effects.acts = endings id (effects.closed.map .close) := by
  rw [Effects.acts, endings_append]
  refine (congrArg (· ++ _) ?_).trans (List.nil_append _)
  refine List.filterMap_eq_nil_iff.2 fun act member => ?_
  obtain ⟨_, _, rfl⟩ := List.mem_map.1 member
  rfl

theorem endings_map {ids : List SessionId} (once : ids.Nodup) {act : SessionId → SessionAct}
    {id : SessionId} {status : SessionStatus}
    (ends : ∀ other, (act other).ending? id = if other = id then some status else none) :
    endings id (ids.map act) = if id ∈ ids then [status] else [] := by
  induction ids with
  | nil => rfl
  | cons first rest ih =>
      obtain ⟨new, once⟩ := List.nodup_cons.1 once
      have ih := ih once
      unfold endings at ih ⊢
      rw [List.map_cons, List.filterMap_cons, ends, ih]
      by_cases here : first = id
      · subst here
        simp [new]
      · simp [here, Ne.symm here]

end SessionAct

/-- A flow that knows a session. -/
def Checkpoint.Knows (loaded : Option Checkpoint) (id : SessionId) : Prop :=
  ∃ session, (loaded.bind fun cp => cp.sessions.get? id) = some session

theorem Checkpoint.knows_iff {cp : Checkpoint} {id : SessionId} :
    Knows (some cp) id ↔ cp.sessions.contains id := by
  rw [SortedMap.contains, Option.isSome_iff_exists]
  rfl

/-- A change of a checkpoint, with its records, by which a session fares as they say, and from which
items are consumed in order. -/
structure Fated (id : SessionId) (flow : FlowId) (before : Option Checkpoint) (records : List Record)
    (after : Option Checkpoint) : Prop where
  fares : ∃ items, (Intake.stored before id).Takes items (Intake.stored after id) ∧
    (SessionStatus.stored before id).Fares (Record.endings flow id records) (items.map Prod.snd)
      (SessionStatus.stored after id)
  knows : Checkpoint.Knows before id → Checkpoint.Knows after id

/-- A change by which a session comes to the last of some ends that are recorded of it, if there are
any. -/
def Marks (id : SessionId) (ends : List SessionStatus) (flow : FlowId) (before : Option Checkpoint)
    (records : List Record) (after : Option Checkpoint) : Prop :=
  Record.endings flow id records = ends ∧
    SessionStatus.stored after id = ends.getLastD (SessionStatus.stored before id)

theorem Fated.trans {id : SessionId} {flow : FlowId} {a b c : Option Checkpoint}
    {first second : List Record} (ab : Fated id flow a first b) (bc : Fated id flow b second c) :
    Fated id flow a (first ++ second) c := by
  obtain ⟨items, takes, fares⟩ := ab.fares
  obtain ⟨more, takes', fares'⟩ := bc.fares
  refine ⟨⟨items ++ more, takes.trans takes', ?_⟩, fun known => bc.knows (ab.knows known)⟩
  rw [Record.endings_append, List.map_append]
  exact fares.trans fares'

theorem Marks.trans {id : SessionId} {ends more : List SessionStatus} {flow : FlowId}
    {a b c : Option Checkpoint} {first second : List Record} (ab : Marks id ends flow a first b)
    (bc : Marks id more flow b second c) : Marks id (ends ++ more) flow a (first ++ second) c := by
  obtain ⟨ended, status⟩ := ab
  obtain ⟨ended', status'⟩ := bc
  refine ⟨by rw [Record.endings_append, ended, ended'], ?_⟩
  simp [status', status, List.getLastD_eq_getLast?, List.getLast?_append]

namespace Draft

open SessionStatus

variable {draft next after : Draft} {acts : List SessionAct} {id : SessionId}

theorem find_putSession (cp : Checkpoint) (id other : SessionId) (session : Session) :
    SessionStatus.find (cp.putSession other session).sessions id =
      if other = id then session.status else SessionStatus.find cp.sessions id := by
  split
  next here => exact here ▸ find_insert_self ..
  next differs => exact find_insert_of_ne _ _ (Ne.symm differs)

/-- An act ends the sessions that it says, and records that. -/
theorem perform_marks {act : SessionAct} (h : draft.perform act = .ok next) (id : SessionId) :
    draft.Emits (Marks id (act.ending? id).toList) next := by
  cases act with
  | add other counterparty =>
      cases h
      unfold Checkpoint.addSession
      split
      · exact ⟨rfl, [], (List.append_nil _).symm, rfl, rfl⟩
      next missing =>
        refine ⟨rfl, [], (List.append_nil _).symm, rfl, ?_⟩
        by_cases here : other = id
        · subst here
          have missing : draft.checkpoint.sessions.get? other = none := by
            simpa [SortedMap.contains] using missing
          simp [SessionStatus.stored, SessionStatus.find, SessionAct.ending?, missing,
            SortedMap.get?_insert_self, Session.new]
        · exact find_insert_of_ne _ _ (Ne.symm here)
  | close other =>
      simp only [perform, closeSession, bind_eq_ok, pure_eq_ok, session_ok] at h
      obtain ⟨session, found, rfl⟩ := h
      refine ⟨rfl, _, rfl, ?_, ?_⟩
      · by_cases here : other = id <;>
          simp [Record.endings, Record.ending?, SessionAct.ending?, Checkpoint.putSession, here]
      · by_cases here : other = id <;>
          simp [SessionStatus.stored, emit, find_putSession, SessionAct.ending?, here]
  | send message =>
      simp only [perform, sendMessage, bind_eq_ok, pure_eq_ok, session_ok] at h
      obtain ⟨session, found, rfl⟩ := h
      refine ⟨rfl, _, rfl, rfl, ?_⟩
      by_cases here : message.sessionId = id
      · subst here
        simp [SessionStatus.stored, emit, find_putSession, SessionAct.ending?, Session.reserve,
          find_of_get? found]
      · simp [SessionStatus.stored, emit, find_putSession, SessionAct.ending?, here]
  | giveUp reason other =>
      simp only [perform, errorSession, bind_eq_ok, pure_eq_ok, session_ok] at h
      obtain ⟨session, found, rfl⟩ := h
      refine ⟨rfl, _, rfl, ?_, ?_⟩
      · by_cases here : other = id <;>
          simp [Record.endings, Record.ending?, SessionAct.ending?, Checkpoint.putSession, here]
      · by_cases here : other = id <;>
          simp [SessionStatus.stored, emit, find_putSession, SessionAct.ending?, here]

theorem Tends.marks (tends : draft.Tends next) (id : SessionId) : draft.Emits (Marks id []) next := by
  obtain ⟨more, records, apart⟩ := tends.records
  refine ⟨tends.flowId, more, records, Record.endings_eq_nil apart _ _, ?_⟩
  exact congrArg (SessionStatus.find · id) tends.sessions

theorem Emits.marks {a b c : Draft} {ends more : List SessionStatus} (ab : a.Emits (Marks id ends) b)
    (bc : b.Emits (Marks id more) c) : a.Emits (Marks id (ends ++ more)) c :=
  ab.join (T := Marks id (ends ++ more)) Marks.trans bc

theorem Does.marks (does : Does acts draft after) (id : SessionId) :
    draft.Emits (Marks id (SessionAct.endings id acts)) after := by
  induction does with
  | nil => exact Tends.marks ⟨rfl, rfl, [], (List.append_nil _).symm, by simp⟩ id
  | @act act acts _ _ _ performed _ ih =>
      have split : SessionAct.endings id (act :: acts) =
          (act.ending? id).toList ++ SessionAct.endings id acts := by
        unfold SessionAct.endings
        cases ends : act.ending? id <;> simp [ends]
      rw [split]
      exact (perform_marks performed id).marks ih
  | tend tends _ ih => exact (tends.marks id).marks ih

theorem Does.served (does : Does acts draft after) :
    SessionsServed draft.checkpoint.sessions after.checkpoint.sessions := by
  refine does.keeps (R := fun a b => SessionsServed a.checkpoint.sessions b.checkpoint.sessions)
    (fun _ => .refl _) (fun _ _ _ => .trans) (fun draft act next performed => ?_)
    fun _ _ tends => tends.sessions ▸ .refl _
  cases act with
  | add other counterparty =>
      cases performed
      exact (addSession_work draft other counterparty).sessions
  | close other => exact ((closeSession_replaces other).work closed_served performed).sessions
  | send message => exact ((sendMessage_replaces message).work sent_served performed).sessions
  | giveUp reason other =>
      exact ((errorSession_replaces reason other).work errored_served performed).sessions

/-- By acts that end it at most once, and only if it is open, a session fares as they record. -/
theorem Does.fated (does : Does acts draft after)
    (ends : SessionAct.endings id acts = [] ∨ ∃ status, SessionAct.endings id acts = [status] ∧
      SessionStatus.find draft.checkpoint.sessions id = .open) :
    draft.Emits (Fated id) after := by
  obtain ⟨flowId, more, records, ended, status⟩ := does.marks id
  refine ⟨flowId, more, records, ⟨[], ?_, ?_⟩, fun known => ?_⟩
  · have same : Intake.stored (some after.checkpoint) id = Intake.stored (some draft.checkpoint) id :=
      does.served.find_eq id
    rw [same]
    exact .none
  · rw [ended, status]
    rcases ends with none | ⟨ending, one, isOpen⟩
    · rw [none]
      exact .stays
    · have own := SessionAct.own_of_endings (one ▸ List.mem_cons_self)
      have isOpen : SessionStatus.stored (some draft.checkpoint) id = .open := isOpen
      rw [one, isOpen]
      exact .ended own
  · rw [Checkpoint.knows_iff] at known ⊢
    rw [does.contains, known, Bool.true_or]

theorem Tends.fated (tends : draft.Tends next) (id : SessionId) : draft.Emits (Fated id) next :=
  Does.fated (.tend tends .nil) (.inl rfl)

theorem Emits.fated {a b c : Draft} (ab : a.Emits (Fated id) b) (bc : b.Emits (Fated id) c) :
    a.Emits (Fated id) c :=
  ab.join (T := Fated id) Fated.trans bc

theorem Does.fated_of_each {ids : List SessionId} {act : SessionId → SessionAct}
    {status : SessionStatus} (does : Does (ids.map act) draft after) (once : ids.Nodup)
    (isOpen : ∀ other ∈ ids, SessionStatus.find draft.checkpoint.sessions other = .open)
    (ends : ∀ other, (act other).ending? id = if other = id then some status else none) :
    draft.Emits (Fated id) after := by
  have ended := SessionAct.endings_map once ends
  refine does.fated ?_
  by_cases listed : id ∈ ids
  · exact .inr ⟨status, by rw [ended, if_pos listed], isOpen id listed⟩
  · exact .inl (by rw [ended, if_neg listed])

theorem Does.fated_of_rest {act : SessionId → SessionAct} {status : SessionStatus}
    (does : Does (draft.checkpoint.openSessions.map act) draft after)
    (ends : ∀ other, (act other).ending? id = if other = id then some status else none) :
    draft.Emits (Fated id) after :=
  does.fated_of_each (SortedMap.nodup_keys _) (fun _ => find_of_openSessions) ends

theorem Does.fated_of_parting {strict : Prop} {effects : Effects} {messages : List OutboundMessage}
    (does : Does (effects.acts ++ messages.map .send) draft after)
    (parting : effects.Parting strict draft.checkpoint messages) (id : SessionId) :
    draft.Emits (Fated id) after := by
  have closes : SessionAct.endings id (effects.acts ++ messages.map .send) =
      SessionAct.endings id (effects.closed.map .close) := by
    have sends : SessionAct.endings id (messages.map .send) = [] :=
      List.filterMap_eq_nil_iff.2 fun act member => by
        obtain ⟨_, _, rfl⟩ := List.mem_map.1 member
        rfl
    rw [SessionAct.endings_append, SessionAct.endings_acts, sends, List.append_nil]
  have ended : SessionAct.endings id (effects.closed.map .close) =
      if id ∈ effects.closed then [.closed] else [] :=
    SessionAct.endings_map parting.once fun _ => rfl
  refine does.fated ?_
  rw [closes, ended]
  split
  next closed => exact .inr ⟨_, rfl, find_of_unshut (parting.closed id closed)⟩
  next => exact .inl rfl

theorem answerWait_fated (parked : Draft) (id : SessionId) :
    parked.Emits (Fated id) parked.answerWait.1 := by
  rcases answerWait_cases parked with done | ⟨_, sessions, answered, ended⟩
  · rw [done]
    exact Tends.fated ⟨rfl, rfl, [], (List.append_nil _).symm, by simp⟩ id
  · rw [ended]
    have received := SessionsReceived.of_answered answered
    refine ⟨rfl, [], (List.append_nil _).symm, Checkpoint.Consumed.of_answered answered id, ?_⟩
    intro known
    rw [Checkpoint.knows_iff] at known ⊢
    exact (received.contains id).trans known

/-- However a flow which keeps to the primitives has been run, its sessions fare as it is recorded. -/
theorem applyOutcome_fated (strict : Prop) {outcome : FiberOutcome} {effects : Effects}
    {attempt : Attempt} {config : Config} {now : Timestamp} {result : Draft × Next}
    (parting : (∀ error, outcome ≠ .failed error) →
      effects.Parting strict draft.checkpoint outcome.messages)
    (h : draft.applyOutcome outcome effects attempt config now = .ok result) (id : SessionId) :
    draft.Emits (Fated id) result.1 := by
  have performs := applyOutcome_performs h
  cases performs with
  | suspended does status =>
      have parting := parting fun _ impossible => by cases impossible
      exact (does.fated_of_parting parting id).fated (answerWait_fated _ id)
  | completed works closes =>
      have parting := parting fun _ impossible => by cases impossible
      rw [← List.append_nil effects.acts] at works
      exact (works.fated_of_parting parting id).fated (closes.fated_of_rest fun _ => rfl)
  | retried does => exact does.fated (.inl rfl)
  | failed does => exact does.fated_of_rest fun _ => rfl

end Draft

end DurableFlow
