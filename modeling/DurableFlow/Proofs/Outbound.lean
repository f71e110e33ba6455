import DurableFlow.Proofs.Fleets
import DurableFlow.Proofs.SessionActs

/-! # What a flow sends

The data and closes that a flow sends on a session are numbered from one, and the session keeps the
next number. A change of a checkpoint with the records that go with it is `Numbered` if it carries on
from the number it found. Such changes compose and every act is one; a kind of changes of which that is
true is `Universal`, and comprises the writes of every flow.
-/

namespace DurableFlow

open Stateful

/-- An item that was sent on a session. -/
inductive Sent where
  | data (number : Nat)
  | close (number : Nat)
  deriving DecidableEq, Repr

def Sent.number : Sent → Nat
  | .data number => number
  | .close number => number

namespace Record

/-- What a record sends on a session of a flow. -/
def sent? (flow : FlowId) (id : SessionId) : Record → Option Sent
  | .sessionData flow' id' _ number _ =>
    if flow' = flow ∧ id' = id then some (.data number) else none
  | .sessionClose flow' id' _ number =>
    if flow' = flow ∧ id' = id then some (.close number) else none
  | _ => none

/-- What records send on a session of a flow. -/
def sents (flow : FlowId) (id : SessionId) (records : List Record) : List Sent :=
  records.filterMap (sent? flow id)

theorem sents_append (flow : FlowId) (id : SessionId) (first second : List Record) :
    sents flow id (first ++ second) = sents flow id first ++ sents flow id second :=
  List.filterMap_append

theorem sents_eq_nil {records : List Record} (apart : ∀ record ∈ records, record.session? = none)
    (flow : FlowId) (id : SessionId) : sents flow id records = [] := by
  refine List.filterMap_eq_nil_iff.2 fun record member => ?_
  have apart := apart record member
  cases record <;> first | rfl | cases apart

end Record

/-- The number of the next item on a session; one if the session is not known. -/
def Checkpoint.nextSend (cp : Option Checkpoint) (id : SessionId) : Nat :=
  ((cp.bind fun cp => cp.sessions.get? id).map (·.nextSend)).getD 1

namespace Checkpoint

theorem nextSend_of_get? {cp : Checkpoint} {id : SessionId} {session : Session}
    (found : cp.sessions.get? id = some session) : nextSend (some cp) id = session.nextSend := by
  simp [nextSend, found]

theorem nextSend_putSession (cp : Checkpoint) (id other : SessionId) (session : Session) :
    nextSend (some (cp.putSession id session)) other =
      if other = id then session.nextSend else nextSend (some cp) other := by
  by_cases here : other = id
  · subst here
    simp [nextSend, putSession, SortedMap.get?_insert_self]
  · simp [nextSend, putSession, SortedMap.get?_insert_of_ne _ _ here, here]

theorem nextSend_addSession (cp : Checkpoint) (id other : SessionId) (counterparty : Identity) :
    nextSend (some (cp.addSession id counterparty)) other = nextSend (some cp) other := by
  unfold addSession
  split
  · rfl
  next missing =>
    have missing : cp.sessions.get? id = none := by simpa [SortedMap.contains] using missing
    by_cases here : other = id
    · subst here
      simp [nextSend, SortedMap.get?_insert_self, missing, Session.new]
    · simp [nextSend, SortedMap.get?_insert_of_ne _ _ here]

theorem nextSend_of_received {cp after : Checkpoint}
    (received : SessionsReceived cp.sessions after.sessions) (id : SessionId) :
    nextSend (some after) id = nextSend (some cp) id := by
  cases found : cp.sessions.get? id with
  | none => simp [nextSend, found, received.new id found]
  | some session =>
      obtain ⟨session', found', sends, _⟩ := received.old id session found
      simp [nextSend, found, found', sends]

end Checkpoint

/-- A change of a checkpoint whose records number what they send from where it stood before to where
it stands then. -/
def Numbered (flow : FlowId) (before : Option Checkpoint) (records : List Record)
    (after : Option Checkpoint) : Prop :=
  ∀ id, let sents := Record.sents flow id records
    sents.map Sent.number = List.range' (Checkpoint.nextSend before id) sents.length ∧
      Checkpoint.nextSend after id = Checkpoint.nextSend before id + sents.length

namespace Numbered

variable {flow : FlowId} {a b c : Option Checkpoint} {first second records : List Record}

theorem trans (ab : Numbered flow a first b) (bc : Numbered flow b second c) :
    Numbered flow a (first ++ second) c := by
  intro id
  obtain ⟨numbers, next⟩ := ab id
  obtain ⟨numbers', next'⟩ := bc id
  refine ⟨?_, ?_⟩
  · rw [Record.sents_append, List.map_append, numbers, numbers', next, List.length_append,
      List.range'_append_1]
  · rw [Record.sents_append, List.length_append, next', next, Nat.add_assoc]

theorem of_quiet (quiet : ∀ id, Record.sents flow id records = [])
    (next : ∀ id, Checkpoint.nextSend b id = Checkpoint.nextSend a id) :
    Numbered flow a records b := by
  intro id
  simp [quiet id, next id]

theorem of_one {record : Record} (sent : Sent) (id : SessionId)
    (sends : ∀ other, record.sent? flow other = if other = id then some sent else none)
    (number : sent.number = Checkpoint.nextSend a id)
    (next : ∀ other, Checkpoint.nextSend b other =
      if other = id then Checkpoint.nextSend a id + 1 else Checkpoint.nextSend a other) :
    Numbered flow a [record] b := by
  intro other
  by_cases here : other = id
  · subst here
    simp [Record.sents, sends, next, number]
  · simp [Record.sents, sends, next, here]

theorem rising (numbered : Numbered flow a records b) (id : SessionId) :
    (Record.sents flow id records).Pairwise fun sent other => sent.number < other.number := by
  have increasing : ((Record.sents flow id records).map Sent.number).Pairwise (· < ·) := by
    rw [(numbered id).1]
    exact List.pairwise_lt_range' _
  exact List.pairwise_map.1 increasing

end Numbered

/-- A kind of changes of a checkpoint, with the records that go with them, to which those belong that
send nothing and at most receive on the sessions, and any two that follow each other. -/
structure Composes (R : FlowId → Option Checkpoint → List Record → Option Checkpoint → Prop) :
    Prop where
  received : ∀ {flow cp after records}, (∀ id, Record.sents flow id records = []) →
    SessionsReceived cp.sessions after.sessions → R flow (some cp) records (some after)
  trans : ∀ {flow a b c first second}, R flow a first b → R flow b second c →
    R flow a (first ++ second) c

/-- A change of a draft whose records go with the change of its checkpoint in some way. -/
structure Draft.Emits (R : FlowId → Option Checkpoint → List Record → Option Checkpoint → Prop)
    (before after : Draft) : Prop where
  flowId : after.checkpoint.flowId = before.checkpoint.flowId
  records : ∃ more, after.records = before.records ++ more ∧
    R before.checkpoint.flowId (some before.checkpoint) more (some after.checkpoint)

namespace Draft.Emits

variable {R S : FlowId → Option Checkpoint → List Record → Option Checkpoint → Prop}

theorem imp {a b : Draft} (ab : a.Emits R b)
    (weaker : ∀ {flow before records after}, R flow before records after →
      S flow before records after) : a.Emits S b := by
  obtain ⟨more, records, related⟩ := ab.records
  exact ⟨ab.flowId, more, records, weaker related⟩

theorem of_received (composes : Composes R) {draft : Draft} {cp : Checkpoint}
    (flowId : cp.flowId = draft.checkpoint.flowId)
    (received : SessionsReceived draft.checkpoint.sessions cp.sessions) :
    draft.Emits R { draft with checkpoint := cp } :=
  ⟨flowId, [], by simp, composes.received (fun _ => rfl) received⟩

theorem refl (composes : Composes R) (draft : Draft) : draft.Emits R draft :=
  of_received composes rfl (.refl _)

/-- Changes of two kinds, one after the other, are one change of a third kind. -/
theorem join {T : FlowId → Option Checkpoint → List Record → Option Checkpoint → Prop}
    (both : ∀ {flow a b c first second}, R flow a first b → S flow b second c →
      T flow a (first ++ second) c)
    {a b c : Draft} (ab : a.Emits R b) (bc : b.Emits S c) : a.Emits T c := by
  obtain ⟨first, recordsB, related⟩ := ab.records
  obtain ⟨second, recordsC, related'⟩ := bc.records
  rw [ab.flowId] at related'
  refine ⟨bc.flowId.trans ab.flowId, first ++ second, ?_, both related related'⟩
  rw [recordsC, recordsB, List.append_assoc]

theorem trans (composes : Composes R) {a b c : Draft} (ab : a.Emits R b) (bc : b.Emits R c) :
    a.Emits R c :=
  ab.join (T := R) composes.trans bc

theorem of_tends (composes : Composes R) {draft next : Draft} (tends : draft.Tends next) :
    draft.Emits R next := by
  obtain ⟨more, records, apart⟩ := tends.records
  refine ⟨tends.flowId, more, records, composes.received (Record.sents_eq_nil apart _) ?_⟩
  exact tends.sessions ▸ .refl _

end Draft.Emits

namespace Handler

/-- What an event does to the sessions of a flow before any flow logic runs: it opens the one that
the flow answers, or it keeps or takes received items, or it gives them all up. -/
inductive Readies : EventPayload → Option Checkpoint → Draft → Prop where
  | opened {request : StartRequest} {cp : Checkpoint}
      (sessions : ∀ id session, cp.sessions.get? id = some session →
        session = .new session.counterparty ∧
          ∃ initiator, request.initiatedBy = some initiator ∧ initiator.sessionId = id) :
      Readies (.startFlow request) none ⟨cp, []⟩
  | received {payload : EventPayload} {cp : Checkpoint} {draft : Draft}
      (received : SessionsReceived cp.sessions draft.checkpoint.sessions)
      (silent : ∀ flow id, Record.sents flow id draft.records = []) :
      Readies payload (some cp) draft
  | gaveUp {payload : EventPayload} {reason : String} {cp : Checkpoint} {draft : Draft}
      (does : Draft.Does (cp.openSessions.map (.giveUp reason)) ⟨cp, []⟩ draft) :
      Readies payload (some cp) draft

variable {flowId : FlowId} {payload : EventPayload} {config : Config} {now : Timestamp}
  {loaded : Option Checkpoint} {prepared : Prepared}

theorem start_readies {request : StartRequest} (h : start flowId request now none = .ok prepared) :
    Readies (.startFlow request) none prepared.draft := by
  simp only [start, Option.isSome_none, Bool.false_eq_true, if_false] at h
  split at h
  · cases h
  · cases h
    cases starter : request.initiatedBy with
    | none => exact .opened fun id session found => by cases found
    | some initiator =>
        have absent : SortedMap.contains (α := Session) {} initiator.sessionId = false := rfl
        simp only [Checkpoint.addSession, Checkpoint.new, absent, Bool.false_eq_true, if_false]
        refine .opened (SortedMap.forall_get?_insert (fun _ _ found => by cases found) ?_)
        exact ⟨rfl, initiator, starter, rfl⟩

theorem keep_received {cp : Checkpoint} {id : SessionId} {session : Session} (number : Nat)
    (item : Item) (found : cp.sessions.get? id = some session) :
    SessionsReceived cp.sessions (keep cp id session number item).sessions :=
  .insert found rfl (fun isOpen => isOpen) rfl

theorem prepare_readies (h : prepare flowId payload config now loaded = .ok prepared) :
    Readies payload loaded prepared.draft := by
  cases prepare_prepares h with
  | @started request cp served rest =>
      simp only [prepare, accepts, Option.map_none, if_true, preprocess] at h
      exact start_readies (mapError_eq_ok.1 h)
  | @kept id number item cp session found isOpen unseen waits =>
      exact .received (keep_received number item found) fun _ _ => rfl
  | @answered id number item cp after session value found isOpen unseen taken =>
      obtain ⟨_, _, sessions, _, answer, rfl⟩ := Checkpoint.takeReady?_some taken
      exact .received ((keep_received number item found).trans (.of_answer answer)) fun _ _ => rfl
  | failed failed => exact .gaveUp (Draft.fail_does failed)
  | early | awake | again | restarted | timedOut | counted | confirmed =>
      exact .received (.refl _) fun _ _ => rfl

end Handler

/-- A kind of changes to which everything belongs that happens to a checkpoint. -/
structure Universal (R : FlowId → Option Checkpoint → List Record → Option Checkpoint → Prop) : Prop
    extends Composes R where
  nothing : ∀ {flow}, R flow none [] none
  /-- A checkpoint is made with new sessions only. -/
  made : ∀ {flow cp}, (∀ id session, cp.sessions.get? id = some session →
    session = .new session.counterparty) → R flow none [] (some cp)
  act : ∀ {act} {draft next : Draft}, draft.perform act = .ok next → draft.Emits R next

namespace Universal

variable {R : FlowId → Option Checkpoint → List Record → Option Checkpoint → Prop}

theorem does (universal : Universal R) {acts : List SessionAct} {draft after : Draft}
    (does : Draft.Does acts draft after) : draft.Emits R after :=
  does.keeps (.refl universal.toComposes) (fun _ _ _ => .trans universal.toComposes)
    (fun _ _ _ => universal.act) fun _ _ => .of_tends universal.toComposes

theorem applied (universal : Universal R) {draft : Draft} {outcome : FiberOutcome}
    {effects : Effects} {attempt : Attempt} {config : Config} {now : Timestamp} {result : Draft × Next}
    (h : draft.applyOutcome outcome effects attempt config now = .ok result) :
    draft.Emits R result.1 := by
  have composes := universal.toComposes
  have performs := Draft.applyOutcome_performs h
  cases performs with
  | @suspended request continuation parked does status =>
      have parks := universal.does does
      rcases Draft.answerWait_cases parked with done | ⟨_, sessions, answered, ended⟩
      · rw [done]
        exact parks
      · rw [ended]
        exact parks.trans composes (.of_received composes rfl (.of_answered answered))
  | completed works closes => exact (universal.does works).trans composes (universal.does closes)
  | retried does | failed does => exact universal.does does

theorem settles (universal : Universal R) {settings : Settings} {attempt : Attempt}
    {draft after : Draft} (settles : draft.Settles settings attempt after) : draft.Emits R after := by
  have composes := universal.toComposes
  obtain ⟨last, _, _, _, before, applied⟩ := settles.induction (P := fun _ => draft.Emits R)
    (fun _ _ _ _ _ _ before applied =>
      before.trans composes ((universal.applied applied).trans composes
        (.of_received composes rfl (.refl _)))) (.refl composes draft)
  exact before.trans composes (universal.applied applied)

theorem readies (universal : Universal R) {flowId : FlowId} {payload : EventPayload}
    {loaded : Option Checkpoint} {draft : Draft} (readies : Handler.Readies payload loaded draft)
    (isOf : Checkpoint.IsOf loaded flowId) :
    R flowId loaded draft.records (some draft.checkpoint) := by
  cases readies with
  | opened sessions => exact universal.made fun id session found => (sessions id session found).1
  | received received silent => exact universal.received (silent _) received
  | gaveUp does =>
      obtain ⟨more, records, related⟩ := (universal.does does).records
      rw [isOf _ rfl] at related
      rw [records]
      exact related

theorem arises (universal : Universal R) {σ : Type} {settings : Settings} {event : Event}
    {loaded : Option Checkpoint} {commit : Commit σ} {prepared : Prepared} {draft : Draft}
    (arises : Plan.Arises settings event loaded commit prepared draft)
    (isOf : Checkpoint.IsOf loaded event.flowId) :
    R event.flowId loaded commit.records (some commit.written) := by
  have composes := universal.toComposes
  have readied := universal.readies (Handler.prepare_readies arises.prepares) isOf
  have flowId := (Handler.prepare_prepares arises.prepares).flowId_eq isOf
  have concluded : R event.flowId loaded draft.records (some draft.checkpoint) := by
    cases arises.settles with
    | skipped => exact readied
    | @ran first _ decision attempt enters settles =>
        have running : first.Emits R first.running := .of_received composes rfl (.refl _)
        obtain ⟨more, records, related⟩ := (running.trans composes (universal.settles settles)).records
        rw [show first.checkpoint.flowId = event.flowId from flowId] at related
        rw [records]
        exact universal.trans readied related
  have stamped : R event.flowId (some draft.checkpoint) [] (some commit.written) := by
    refine universal.received (fun _ => rfl) ?_
    rw [Commit.written, arises.checkpoint]
    exact .refl _
  have all := universal.trans concluded stamped
  rw [List.append_nil, ← arises.records] at all
  exact all

/-- All writes of a flow are a change of every such kind. -/
theorem line (universal : Universal R) {σ δ : Type} {law : Fleet.Law σ δ} (led : law.Led)
    (arising : ∀ {dispatcher settings event found} {commit : Commit σ},
      law.plan dispatcher settings event found commit →
        ∃ prepared draft, Plan.Arises settings event found commit prepared draft)
    {flow : FlowId} {writes : List Write} (line : law.Line flow writes) :
    R flow none (writes.flatMap (·.records)) (Write.last? writes) := by
  induction line with
  | nil => exact universal.nothing
  | @write writes dispatcher ticket settings event commit line mine allowed planned ih =>
      subst mine
      obtain ⟨prepared, draft, arises⟩ := arising planned
      have added := universal.arises arises (line.isOf led (.last writes))
      simp only [List.flatMap_append, List.flatMap_cons, List.flatMap_nil, List.append_nil]
      rw [Write.last?, List.getLast?_concat, Option.map_some]
      exact universal.trans ih added

end Universal

namespace Draft

/-- An act numbers the item that it sends, if it sends one. -/
theorem perform_numbered {draft next : Draft} {act : SessionAct} (h : draft.perform act = .ok next) :
    draft.Emits Numbered next := by
  cases act with
  | add id counterparty =>
      cases h
      have flowId := Checkpoint.flowId_addSession draft.checkpoint id counterparty
      exact ⟨flowId, [], by simp, .of_quiet (fun _ => rfl) fun other =>
        Checkpoint.nextSend_addSession _ _ other _⟩
  | close id =>
      simp only [perform, closeSession, bind_eq_ok, pure_eq_ok, session_ok] at h
      obtain ⟨session, found, rfl⟩ := h
      have next := Checkpoint.nextSend_of_get? found
      refine ⟨rfl, _, rfl, .of_one (.close session.nextSend) id ?_ next.symm ?_⟩
      · simp [Record.sent?, Checkpoint.putSession, eq_comm, Session.reserve]
      · simp [emit, Checkpoint.nextSend_putSession, Session.reserve, next]
  | send message =>
      simp only [perform, sendMessage, bind_eq_ok, pure_eq_ok, session_ok] at h
      obtain ⟨session, found, rfl⟩ := h
      have next := Checkpoint.nextSend_of_get? found
      refine ⟨rfl, _, rfl, .of_one (.data session.nextSend) message.sessionId ?_ next.symm ?_⟩
      · simp [Record.sent?, Checkpoint.putSession, eq_comm, Session.reserve]
      · simp [emit, Checkpoint.nextSend_putSession, Session.reserve, next]
  | giveUp reason id =>
      simp only [perform, errorSession, bind_eq_ok, pure_eq_ok, session_ok] at h
      obtain ⟨session, found, rfl⟩ := h
      have next := Checkpoint.nextSend_of_get? found
      refine ⟨rfl, _, rfl, .of_quiet (fun _ => rfl) fun other => ?_⟩
      simp only [emit, Checkpoint.nextSend_putSession]
      split
      next here => rw [here, next]
      next => rfl

end Draft

theorem Numbered.universal : Universal Numbered where
  received silent received := .of_quiet silent (Checkpoint.nextSend_of_received received)
  trans := .trans
  nothing := .of_quiet (fun _ => rfl) fun _ => rfl
  made {flow cp} fresh := by
    refine .of_quiet (fun _ => rfl) fun id => ?_
    cases found : cp.sessions.get? id with
    | none => simp [Checkpoint.nextSend, found]
    | some session =>
        rw [Checkpoint.nextSend_of_get? found, fresh id session found]
        rfl
  act := Draft.perform_numbered

namespace Fleet

variable {σ δ π : Type}

/-- Whatever flow logic does, and however the work of any number of dispatchers interleaves, breaks
off and starts again: the items that a flow has sent on a session, over its writes in the order of
their versions, are numbered 1, 2, 3, … without gap or repetition, and the next number of the session
is one more than there are. -/
theorem sends_without_gaps [DecidableEq δ] (publishers : δ → Publisher π) (hosts : δ → Host σ)
    (published : π) (moves : List (Move σ δ)) (flow : FlowId) (id : SessionId) :
    let fleet := (launch hosts published).run publishers moves
    let writes := Write.ofFlow fleet.writes flow
    let sents := Record.sents flow id (writes.flatMap (·.records))
    writes.map (·.checkpoint.version) = List.range' 1 writes.length ∧
      fleet.stored.get? flow = Write.last? writes ∧
      sents.map Sent.number = List.range' 1 sents.length ∧
      ∀ cp session, fleet.stored.get? flow = some cp → cp.sessions.get? id = some session →
        session.nextSend = sents.length + 1 := by
  have sound := Law.sound_of_run Law.plain_kept publishers
    (Law.sound_launch hosts published fun _ => trivial) moves fun _ _ _ _ => trivial
  have line := sound.lines flow
  obtain ⟨numbers, next⟩ := Numbered.universal.line Law.plain_kept.leads (fun planned => planned) line id
  refine ⟨line.numbered Law.plain_kept.leads, sound.stored flow, numbers, fun cp session stored found => ?_⟩
  rw [← sound.stored, stored, Checkpoint.nextSend_of_get? found] at next
  rw [next, Nat.add_comm]
  rfl

end Fleet

end DurableFlow
