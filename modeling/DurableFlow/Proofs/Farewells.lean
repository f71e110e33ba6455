import DurableFlow.Proofs.Courtesy
import DurableFlow.Proofs.Outbound
import DurableFlow.Proofs.Stocks

/-! # Closes come last

A change of a checkpoint with the records that go with it is a `Farewell` if nothing is sent on a
session that was shut before or is closed on the way. Such changes compose. An act on a session is
one unless it closes or sends on a session that is shut, and a courteous flow asks for no such act.
-/

namespace DurableFlow

open Stateful Hosted

variable {σ δ : Type}

/-- Whether more may be sent on a session after an item. -/
def Sent.GoesOn : Sent → Prop
  | .data _ => True
  | .close _ => False

/-- A change of a checkpoint with its records that sends nothing on the sessions it has to spare. A
session that is shut stays so, and one that is closed is shut. -/
structure Spares (spared : SessionId → Prop) (flow : FlowId) (before : Option Checkpoint)
    (records : List Record) (after : Option Checkpoint) : Prop where
  silent : ∀ id, spared id → Record.sents flow id records = []
  stays : ∀ id, Checkpoint.Shut before id → Checkpoint.Shut after id
  shuts : ∀ id number, .close number ∈ Record.sents flow id records → Checkpoint.Shut after id

/-- A change that spares the sessions which were shut before, and if it is strict, sends nothing after
a close. -/
structure Farewell (strict : Prop) (flow : FlowId) (before : Option Checkpoint)
    (records : List Record) (after : Option Checkpoint) : Prop
    extends Spares (Checkpoint.Shut before) flow before records after where
  last : strict → ∀ id, (Record.sents flow id records).Pairwise fun sent _ => sent.GoesOn

namespace Spares

variable {spared : SessionId → Prop} {flow : FlowId} {a b c : Option Checkpoint}

theorem of_quiet {records : List Record} (quiet : ∀ id, Record.sents flow id records = [])
    (stays : ∀ id, Checkpoint.Shut a id → Checkpoint.Shut b id) : Spares spared flow a records b where
  silent id _ := quiet id
  stays := stays
  shuts id number closed := by
    rw [quiet id] at closed
    cases closed

theorem trans {first second : List Record} (ab : Spares spared flow a first b)
    (bc : Spares spared flow b second c) : Spares spared flow a (first ++ second) c where
  silent id here := by
    rw [Record.sents_append, ab.silent id here, bc.silent id here, List.append_nil]
  stays id shut := bc.stays id (ab.stays id shut)
  shuts id number closed := by
    rw [Record.sents_append] at closed
    rcases List.mem_append.1 closed with earlier | later
    · exact bc.stays id (ab.shuts id number earlier)
    · exact bc.shuts id number later

theorem of_one {record : Record} (sent : Sent) (id : SessionId)
    (sends : ∀ other, record.sent? flow other = if other = id then some sent else none)
    (allowed : ¬ spared id) (stays : ∀ other, Checkpoint.Shut a other → Checkpoint.Shut b other)
    (closes : ∀ number, sent = .close number → Checkpoint.Shut b id) :
    Spares spared flow a [record] b where
  silent other here := by
    have differs : other ≠ id := fun same => allowed (same ▸ here)
    simp [Record.sents, sends, differs]
  stays := stays
  shuts other number closed := by
    by_cases here : other = id
    · simp only [Record.sents, List.filterMap_cons, sends, here, if_true, List.filterMap_nil,
        List.mem_singleton] at closed
      exact here ▸ closes number closed.symm
    · simp [Record.sents, sends, here] at closed

end Spares

namespace Farewell

variable {strict : Prop} {flow : FlowId} {a b c : Option Checkpoint}

theorem of_quiet {records : List Record} (quiet : ∀ id, Record.sents flow id records = [])
    (stays : ∀ id, Checkpoint.Shut a id → Checkpoint.Shut b id) : Farewell strict flow a records b where
  toSpares := .of_quiet quiet stays
  last _ id := by
    rw [quiet id]
    exact .nil

theorem trans {first second : List Record} (ab : Farewell strict flow a first b)
    (bc : Farewell strict flow b second c) : Farewell strict flow a (first ++ second) c where
  toSpares :=
    ab.toSpares.trans ⟨fun id shut => bc.silent id (ab.stays id shut), bc.stays, bc.shuts⟩
  last asked id := by
    rw [Record.sents_append]
    refine List.pairwise_append.2 ⟨ab.last asked id, bc.last asked id, ?_⟩
    intro sent earlier other later
    cases sent with
    | data => trivial
    | close number =>
        rw [bc.silent id (ab.shuts id number earlier)] at later
        cases later

end Farewell

theorem Spares.farewell {strict : Prop} {flow : FlowId} {a b : Option Checkpoint}
    {records : List Record} (spares : Spares (Checkpoint.Shut a) flow a records b)
    (one : records.length ≤ 1) : Farewell strict flow a records b where
  toSpares := spares
  last _ id := by
    have short : (Record.sents flow id records).length ≤ 1 :=
      Nat.le_trans (List.length_filterMap_le _ _) one
    match sents : Record.sents flow id records with
    | [] => exact .nil
    | [_] => exact List.pairwise_singleton _ _
    | _ :: _ :: _ => simp [sents] at short

namespace Checkpoint

theorem shut_putSession (cp : Checkpoint) (id other : SessionId) (session : Session) :
    Shut (some (cp.putSession id session)) other ↔
      if other = id then session.isOpen = false else Shut (some cp) other := by
  by_cases here : other = id
  · subst here
    simp [Shut, putSession, SortedMap.get?_insert_self]
  · simp [Shut, putSession, SortedMap.get?_insert_of_ne _ _ here, here]

theorem shut_addSession (cp : Checkpoint) (id other : SessionId) (counterparty : Identity) :
    Shut (some (cp.addSession id counterparty)) other ↔ Shut (some cp) other := by
  unfold addSession
  split
  · rfl
  next missing =>
    have missing : cp.sessions.get? id = none := by simpa [SortedMap.contains] using missing
    by_cases here : other = id
    · subst here
      simp [Shut, SortedMap.get?_insert_self, missing, Session.new, Session.isOpen]
    · simp [Shut, SortedMap.get?_insert_of_ne _ _ here]

theorem shut_of_received {cp after : Checkpoint}
    (received : SessionsReceived cp.sessions after.sessions) {id : SessionId}
    (shut : Shut (some cp) id) : Shut (some after) id := by
  obtain ⟨session, found, closed⟩ := shut
  obtain ⟨session', found', _, opens⟩ := received.old id session found
  refine ⟨session', found', ?_⟩
  cases isOpen : session'.isOpen with
  | false => rfl
  | true =>
      rw [opens isOpen] at closed
      cases closed

end Checkpoint

theorem Spares.composes (spared : SessionId → Prop) : Composes (Spares spared) where
  received silent received := .of_quiet silent fun _ => Checkpoint.shut_of_received received
  trans := .trans

theorem Farewell.composes (strict : Prop) : Composes (Farewell strict) where
  received silent received := .of_quiet silent fun _ => Checkpoint.shut_of_received received
  trans := .trans

theorem SessionsReceived.contains {before after : SortedMap SessionId Session}
    (received : SessionsReceived before after) (id : SessionId) :
    after.contains id = before.contains id := by
  cases found : before.get? id with
  | none => simp [SortedMap.contains, found, received.new id found]
  | some session =>
      obtain ⟨session', found', _⟩ := received.old id session found
      simp [SortedMap.contains, found, found']

namespace SessionAct

/-- An act that does not close a session or send on one which is shut. -/
def Allowed (shut : SessionId → Prop) : SessionAct → Prop
  | .add _ _ => True
  | .close id => ¬ shut id
  | .send message => ¬ shut message.sessionId
  | .giveUp _ _ => True

/-- The session that an act shuts. -/
def Shuts : SessionAct → SessionId → Prop
  | .add _ _, _ => False
  | .close id, other => other = id
  | .send _, _ => False
  | .giveUp _ id, other => other = id

def adds : SessionAct → SessionId → Bool
  | .add id _, other => other = id
  | _, _ => false

/-- Acts that one after the other are allowed. -/
def Polite (shut : SessionId → Prop) : List SessionAct → Prop
  | [] => True
  | act :: rest => act.Allowed shut ∧ Polite (fun id => shut id ∨ act.Shuts id) rest

theorem Allowed.anti {act : SessionAct} {shut less : SessionId → Prop} (fewer : ∀ id, less id → shut id)
    (allowed : act.Allowed shut) : act.Allowed less := by
  cases act with
  | add | giveUp => trivial
  | close id => exact fun here => allowed (fewer id here)
  | send message => exact fun here => allowed (fewer _ here)

namespace Polite

variable {shut : SessionId → Prop} {rest : List SessionAct}

theorem anti {acts : List SessionAct} {shut less : SessionId → Prop} (fewer : ∀ id, less id → shut id)
    (polite : Polite shut acts) : Polite less acts := by
  induction acts generalizing shut less with
  | nil => trivial
  | cons act rest ih =>
      exact ⟨polite.1.anti fewer, ih (fun id here => here.imp_left (fewer id)) polite.2⟩

theorem adding (initiated : List (SessionId × Identity)) (polite : Polite shut rest) :
    Polite shut ((initiated.map fun (id, counterparty) => .add id counterparty) ++ rest) := by
  induction initiated with
  | nil => exact polite
  | cons new others ih => exact ⟨trivial, ih.anti fun id here => here.resolve_right False.elim⟩

theorem closing {ids : List SessionId} (unshut : ∀ id ∈ ids, ¬ shut id) (once : ids.Nodup)
    (polite : Polite (fun id => shut id ∨ id ∈ ids) rest) : Polite shut (ids.map .close ++ rest) := by
  induction ids generalizing shut with
  | nil => exact polite.anti fun id here => .inl here
  | cons id others ih =>
      obtain ⟨new, once⟩ := List.nodup_cons.1 once
      refine ⟨unshut id List.mem_cons_self, ih (fun other member => ?_) once (polite.anti ?_)⟩
      · rintro (before | here)
        · exact unshut other (List.mem_cons_of_mem _ member) before
        · have here : other = id := here
          exact new (here ▸ member)
      · intro other here
        simp only [Shuts] at here
        rw [List.mem_cons]
        exact or_assoc.1 here

theorem sending {messages : List OutboundMessage}
    (unshut : ∀ message ∈ messages, ¬ shut message.sessionId) : Polite shut (messages.map .send) := by
  induction messages with
  | nil => trivial
  | cons message others ih =>
      refine ⟨unshut message List.mem_cons_self, (ih fun other member => ?_).anti fun id here => ?_⟩
      · exact unshut other (List.mem_cons_of_mem _ member)
      · exact here.resolve_right False.elim

theorem givingUp (reason : String) (ids : List SessionId) : Polite shut (ids.map (.giveUp reason)) := by
  induction ids generalizing shut with
  | nil => trivial
  | cons id others ih => exact ⟨trivial, ih⟩

end Polite

end SessionAct

namespace Effects.Parting

variable {strict : Prop} {effects : Effects} {cp : Checkpoint} {messages : List OutboundMessage}

theorem allowed (parting : effects.Parting strict cp messages) :
    ∀ act ∈ effects.acts ++ messages.map .send, act.Allowed (Checkpoint.Shut (some cp)) := by
  intro act member
  simp only [acts, List.mem_append, List.mem_map] at member
  rcases member with (⟨_, _, rfl⟩ | ⟨id, closed, rfl⟩) | ⟨message, sent, rfl⟩
  · trivial
  · exact parting.closed id closed
  · exact parting.sent message sent

theorem polite (parting : effects.Parting strict cp messages)
    (unclosed : ∀ message ∈ messages, message.sessionId ∉ effects.closed) :
    SessionAct.Polite (Checkpoint.Shut (some cp)) (effects.acts ++ messages.map .send) := by
  rw [acts, List.append_assoc]
  refine .adding _ (.closing parting.closed parting.once (.sending fun message member => ?_))
  rintro (shut | closed)
  · exact parting.sent message member shut
  · exact unclosed message member closed

end Effects.Parting

namespace Draft

/-- An act that is allowed spares what it has to, with one record at most, and shuts at most the session
that it is about. -/
theorem perform_spares {spared : SessionId → Prop} {draft next : Draft} {act : SessionAct}
    (h : draft.perform act = .ok next) (allowed : act.Allowed spared) :
    draft.Emits (fun flow a more b => Spares spared flow a more b ∧ more.length ≤ 1) next ∧
      ∀ id, Checkpoint.Shut (some next.checkpoint) id →
        Checkpoint.Shut (some draft.checkpoint) id ∨ act.Shuts id := by
  cases act with
  | add id counterparty =>
      cases h
      have flowId := Checkpoint.flowId_addSession draft.checkpoint id counterparty
      have same (other : SessionId) := Checkpoint.shut_addSession draft.checkpoint id other counterparty
      refine ⟨⟨flowId, [], by simp, ?_, Nat.zero_le 1⟩, fun other shut => .inl ((same other).1 shut)⟩
      exact .of_quiet (fun _ => rfl) fun other => (same other).2
  | close id =>
      simp only [perform, closeSession, bind_eq_ok, pure_eq_ok, session_ok] at h
      obtain ⟨session, found, rfl⟩ := h
      refine ⟨⟨rfl, _, rfl, .of_one (.close session.nextSend) id ?_ allowed ?_ ?_, Nat.le_refl 1⟩, ?_⟩
      · simp [Record.sent?, Checkpoint.putSession, eq_comm, Session.reserve]
      · intro other shut
        simp only [emit, Checkpoint.shut_putSession]
        split
        · rfl
        · exact shut
      · rintro _ ⟨⟩
        simp [emit, Checkpoint.shut_putSession, Session.isOpen]
      · intro other shut
        simp only [emit, Checkpoint.shut_putSession] at shut
        split at shut
        next here => exact .inr here
        next => exact .inl shut
  | send message =>
      simp only [perform, sendMessage, bind_eq_ok, pure_eq_ok, session_ok] at h
      obtain ⟨session, found, rfl⟩ := h
      -- Taking a number leaves the session as open or as shut as it was.
      have same (other : SessionId) : Checkpoint.Shut (some (draft.checkpoint.putSession
          message.sessionId session.reserve.2)) other ↔ Checkpoint.Shut (some draft.checkpoint) other := by
        rw [Checkpoint.shut_putSession]
        split
        next here =>
          subst here
          simp only [Checkpoint.Shut, Option.bind_some, found, Option.some.injEq, exists_eq_left']
          rfl
        next => rfl
      refine ⟨⟨rfl, _, rfl, .of_one (.data session.nextSend) message.sessionId ?_ allowed ?_ ?_,
        Nat.le_refl 1⟩, ?_⟩
      · simp [Record.sent?, Checkpoint.putSession, eq_comm, Session.reserve]
      · exact fun other => (same other).2
      · rintro _ ⟨⟩
      · exact fun other shut => .inl ((same other).1 shut)
  | giveUp reason id =>
      simp only [perform, errorSession, bind_eq_ok, pure_eq_ok, session_ok] at h
      obtain ⟨session, found, rfl⟩ := h
      refine ⟨⟨rfl, _, rfl, ?_, Nat.le_refl 1⟩, fun other shut => ?_⟩
      · refine .of_quiet (fun _ => rfl) fun other shut => ?_
        simp only [emit, Checkpoint.shut_putSession]
        split
        · rfl
        · exact shut
      · simp only [emit, Checkpoint.shut_putSession] at shut
        split at shut
        next here => exact .inr here
        next => exact .inl shut

theorem Does.spares {acts : List SessionAct} {spared : SessionId → Prop} {draft after : Draft}
    (does : Does acts draft after) (allowed : ∀ act ∈ acts, act.Allowed spared) :
    draft.Emits (Spares spared) after := by
  have composes := Spares.composes spared
  induction does with
  | nil => exact .refl composes _
  | act performed _ ih =>
      have spares := (perform_spares performed (allowed _ List.mem_cons_self)).1.imp And.left
      exact spares.trans composes (ih fun act member => allowed act (List.mem_cons_of_mem _ member))
  | tend tends _ ih => exact (Emits.of_tends composes tends).trans composes (ih allowed)

theorem Does.farewell {strict : Prop} {acts : List SessionAct} {shut : SessionId → Prop}
    {draft after : Draft} (does : Does acts draft after) (polite : SessionAct.Polite shut acts)
    (covers : ∀ id, Checkpoint.Shut (some draft.checkpoint) id → shut id) :
    draft.Emits (Farewell strict) after := by
  have composes := Farewell.composes strict
  induction does generalizing shut with
  | nil => exact .refl composes _
  | act performed _ ih =>
      obtain ⟨⟨flowId, more, records, spares, one⟩, shuts⟩ :=
        perform_spares performed (polite.1.anti covers)
      have parts := ih polite.2 fun id here => (shuts id here).imp_left (covers id)
      exact Emits.trans composes ⟨flowId, more, records, spares.farewell one⟩ parts
  | tend tends _ ih =>
      refine (Emits.of_tends composes tends).trans composes (ih polite fun id here => covers id ?_)
      simpa [Checkpoint.Shut, tends.sessions] using here

theorem Does.parting {strict : Prop} {effects : Effects} {messages : List OutboundMessage}
    {draft after : Draft} (does : Does (effects.acts ++ messages.map .send) draft after)
    (parting : effects.Parting strict draft.checkpoint messages) :
    draft.Emits (Farewell strict) after := by
  by_cases asked : strict
  · exact does.farewell (parting.polite (parting.unclosed asked)) fun _ shut => shut
  · obtain ⟨flowId, more, records, spares⟩ := does.spares parting.allowed
    exact ⟨flowId, more, records, spares, fun strict => absurd strict asked⟩

end Draft

namespace Draft

theorem Replaces.contains {f : Draft → Except OutcomeError Draft} {id : SessionId}
    {change : Session → Session} (replaces : Replaces f id change) {draft next : Draft}
    (h : f draft = .ok next) (other : SessionId) :
    next.checkpoint.sessions.contains other = draft.checkpoint.sessions.contains other := by
  obtain ⟨session, found, same⟩ := replaces draft next h
  rw [same]
  exact SortedMap.contains_insert_of_contains (by simp [SortedMap.contains, found]) _ other

theorem Does.contains {acts : List SessionAct} {draft after : Draft} (does : Does acts draft after)
    (id : SessionId) : after.checkpoint.sessions.contains id =
      (draft.checkpoint.sessions.contains id || acts.any (·.adds id)) := by
  induction does with
  | nil => simp
  | @act act acts draft next after performed rest ih =>
      rw [ih, List.any_cons, ← Bool.or_assoc]
      congr 1
      cases act with
      | add other counterparty =>
          cases performed
          rw [Checkpoint.addSession_contains, Bool.or_comm]
          rfl
      | close other =>
          rw [(closeSession_replaces other).contains performed]
          exact (Bool.or_false _).symm
      | send message =>
          rw [(sendMessage_replaces message).contains performed]
          exact (Bool.or_false _).symm
      | giveUp reason other =>
          rw [(errorSession_replaces reason other).contains performed]
          exact (Bool.or_false _).symm
  | tend tends _ ih => rw [ih, tends.sessions]

theorem Does.tidy {effects : Effects} {more : List SessionAct} {draft after : Draft}
    (does : Does (effects.acts ++ more) draft after) (none : ∀ id, more.any (·.adds id) = false)
    {flow : FlowId}
    (tidy : Tidy flow (draft.checkpoint.opened effects.initiated).sessions) :
    Tidy flow after.checkpoint.sessions := by
  refine tidy.of_contains fun id => ?_
  have closes : (effects.closed.map SessionAct.close).any (·.adds id) = false := by
    simp [SessionAct.adds]
  rw [does.contains, Checkpoint.opened_contains, List.any_append, none, Bool.or_false, Effects.acts,
    List.any_append, closes, Bool.or_false, List.any_map]
  rfl

/-- Writing what a courteous flow leaves is a farewell, and keeps the sessions tidy. -/
theorem applyOutcome_parts {strict : Prop} {draft : Draft} {outcome : FiberOutcome}
    {effects : Effects} {attempt : Attempt} {config : Config} {now : Timestamp} {result : Draft × Next}
    (tidy : Tidy draft.checkpoint.flowId draft.checkpoint.sessions)
    (parting : (∀ error, outcome ≠ .failed error) →
      effects.Parting strict draft.checkpoint outcome.messages)
    (h : draft.applyOutcome outcome effects attempt config now = .ok result) :
    draft.Emits (Farewell strict) result.1 ∧
      Tidy draft.checkpoint.flowId result.1.checkpoint.sessions := by
  have composes := Farewell.composes strict
  have performs := applyOutcome_performs h
  cases performs with
  | @suspended request continuation parked does status =>
      have parting := parting fun _ impossible => by cases impossible
      have parts := does.parting parting
      have tidy := does.tidy (fun id => by simp [SessionAct.adds]) parting.tidy
      rcases answerWait_cases parked with done | ⟨_, sessions, answered, ended⟩
      · rw [done]
        exact ⟨parts, tidy⟩
      · have received := SessionsReceived.of_answered answered
        rw [ended]
        exact ⟨parts.trans composes (.of_received composes rfl received),
          tidy.of_contains received.contains⟩
  | @completed output middle after works closes =>
      have parting := parting fun _ impossible => by cases impossible
      have polite := parting.polite fun _ impossible => by cases impossible
      simp only [FiberOutcome.messages, List.map_nil, List.append_nil] at polite
      have worked : draft.Emits (Farewell strict) middle := works.farewell polite fun _ shut => shut
      have unshut : ∀ id ∈ middle.checkpoint.openSessions,
          ¬ Checkpoint.Shut (some middle.checkpoint) id := by
        rintro id isOpen ⟨session, found, shut⟩
        obtain ⟨other, known, opened⟩ := SortedMap.mem_keys_filter.1 isOpen
        rw [Option.bind_some, known] at found
        cases found
        rw [shut] at opened
        cases opened
      have closings : SessionAct.Polite (Checkpoint.Shut (some middle.checkpoint))
          (middle.checkpoint.openSessions.map .close ++ []) :=
        .closing unshut (SortedMap.nodup_keys _) trivial
      rw [List.append_nil] at closings
      have all := works.trans closes
      exact ⟨worked.trans composes (closes.farewell closings fun _ shut => shut),
        all.tidy (fun id => by simp [SessionAct.adds]) parting.tidy⟩
  | @retried error after does =>
      refine ⟨does.farewell trivial fun _ shut => shut, tidy.of_contains fun id => ?_⟩
      rw [does.contains, List.any_nil, Bool.or_false]
  | @failed error after does =>
      refine ⟨does.farewell (.givingUp _ _) fun _ shut => shut, tidy.of_contains fun id => ?_⟩
      rw [does.contains]
      simp [SessionAct.adds]

end Draft

end DurableFlow
