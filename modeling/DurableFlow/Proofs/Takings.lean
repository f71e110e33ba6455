import DurableFlow.Proofs.Readiness

/-! # What a wait takes with it when it ends

A wait for session items ends altogether or not at all. What it hands over has left the sessions, and
nothing else has: `Differs` says where two checkpoints may be unlike. The sessions themselves are
compared here, not only what they take in, so that what was sent on them and whether they are open is
kept as well.
-/

namespace DurableFlow

namespace Checkpoint

open Intake

variable {sessions : SortedMap SessionId Session} {awaited : List SessionId} {id : SessionId}

/-- Two checkpoints are the same but for some of the sessions. -/
structure Differs (cp after : Checkpoint) (touched : SessionId → Prop) : Prop where
  fields : after = { cp with sessions := after.sessions }
  others : ∀ id, ¬ touched id → after.sessions.get? id = cp.sessions.get? id

/-- A session that is there and not open any more. -/
def isOver (cp : Checkpoint) (id : SessionId) : Bool :=
  (cp.sessions.get? id).any fun session => !session.isOpen

/-- The awaited sessions before the first one that is not open any more. -/
def hoped (cp : Checkpoint) (awaited : List SessionId) : List SessionId :=
  awaited.takeWhile fun id => !cp.isOver id

/-- A session has lost its next item and is as that item leaves it. -/
def Delivers (cp after : Checkpoint) (id : SessionId) (item : Item) : Prop :=
  ∃ session, cp.sessions.get? id = some session ∧ session.isOpen ∧ session.next? = some item ∧
    after.sessions.get? id = some (session.taken item)

theorem isOver_of_found {cp : Checkpoint} {session : Session}
    (found : cp.sessions.get? id = some session) : cp.isOver id = !session.isOpen := by
  rw [isOver, found]
  rfl

theorem readiness_ne_waiting_iff {cp : Checkpoint} :
    readiness cp.sessions awaited ≠ .waiting ↔
      ∀ id ∈ cp.hoped awaited, Handler.isLate cp id = false := by
  induction awaited with
  | nil => simp [readiness, hoped]
  | cons first rest ih =>
      rw [hoped, List.takeWhile_cons, readiness]
      cases found : cp.sessions.get? first with
      | none => simp [isOver, Handler.isLate, found]
      | some session =>
          rw [isOver_of_found found]
          cases isOpen : session.isOpen with
          | false => simp [isOpen]
          | true =>
              have late : Handler.isLate cp first = session.next?.isNone := by
                rw [Handler.isLate, found]
                rfl
              cases next : session.next?.isNone with
              | true => simp [late, next, isOpen]
              | false =>
                  rw [hoped] at ih
                  simpa [late, next, isOpen] using ih

theorem get?_consume_of_ne (sessions : SortedMap SessionId Session) {other : SessionId}
    (differs : other ≠ id) : (consume sessions id).2.get? other = sessions.get? other := by
  cases arrived : (find sessions id).head? with
  | none => rw [consume_of_stalled arrived]
  | some item =>
      obtain ⟨session, _, _, consumed⟩ := consume_of_head? arrived
      rw [consumed, SortedMap.get?_insert_of_ne _ _ differs]

theorem get?_consume_self {item : Item} {session : Session}
    (found : sessions.get? id = some session) (next : session.next? = some item) :
    (consume sessions id).2.get? id = some (session.taken item) := by
  have arrived : (find sessions id).head? = some item := by rw [← next?_eq_head?, found, ← next]; rfl
  obtain ⟨_, again, _, consumed⟩ := consume_of_head? arrived
  rw [found] at again
  cases again
  rw [consumed, SortedMap.get?_insert_self]

theorem CanDeliver.found (canDeliver : CanDeliver sessions id) : ∃ session item,
    sessions.get? id = some session ∧ session.isOpen ∧ session.next? = some item ∧
      (find sessions id).head? = some item := by
  obtain ⟨session, item, found, isOpen, arrived⟩ := canDeliver
  refine ⟨session, item, found, isOpen, ?_, arrived⟩
  rw [← next?_eq_head?, found] at arrived
  exact arrived

theorem get?_collect_of_not_mem (messages : Messages) (absent : id ∉ awaited) :
    (collect sessions messages awaited).2.get? id = sessions.get? id := by
  induction awaited generalizing sessions messages with
  | nil => rfl
  | cons first rest ih =>
      rw [List.mem_cons, not_or] at absent
      rw [collect_cons, ih _ absent.2, get?_consume_of_ne _ absent.1]

theorem get?_collect_of_mem (messages : Messages) (once : awaited.Nodup) (listed : id ∈ awaited)
    {session : Session} {item : Item} (found : sessions.get? id = some session)
    (next : session.next? = some item) :
    (collect sessions messages awaited).2.get? id = some (session.taken item) := by
  induction awaited generalizing sessions messages with
  | nil => cases listed
  | cons first rest ih =>
      obtain ⟨absent, once⟩ := List.nodup_cons.1 once
      rw [collect_cons]
      by_cases here : id = first
      · subst here
        rw [get?_collect_of_not_mem _ absent, get?_consume_self found next]
      · have listed := (List.mem_cons.1 listed).resolve_left here
        exact ih _ once listed ((get?_consume_of_ne sessions here).trans found)

theorem contains_gather {messages : Messages} {other : SessionId}
    (held : messages.contains id) : (gather sessions messages other).contains id := by
  unfold gather
  split
  · rw [SortedMap.contains_insert, held, Bool.or_true]
  · exact held

theorem contains_collect {messages : Messages} (held : messages.contains id) :
    (collect sessions messages awaited).1.contains id := by
  induction awaited generalizing sessions messages with
  | nil => exact held
  | cons first rest ih =>
      rw [collect_cons]
      exact ih (contains_gather held)

/-- Whatever is awaited and has data next is among the messages, however often it is listed. -/
theorem contains_collect_of_mem (messages : Messages) (listed : id ∈ awaited) {payload : Bytes}
    (arrived : (find sessions id).head? = some (.data payload)) :
    (collect sessions messages awaited).1.contains id := by
  induction awaited generalizing sessions messages with
  | nil => cases listed
  | cons first rest ih =>
      rw [collect_cons]
      by_cases here : id = first
      · subst here
        refine contains_collect ?_
        rw [SortedMap.contains, gather_of_head? messages arrived]
        rfl
      · have listed := (List.mem_cons.1 listed).resolve_left here
        exact ih _ listed (by rwa [find_consume_of_ne sessions here])

/-- The ways in which a wait ends, with all that is different afterwards. -/
inductive Taking (cp after : Checkpoint) (awaited : List SessionId) : Resumed → Prop where
  /-- A session was over before its next item came. Nothing is taken. -/
  | finished {id : SessionId} {session : Session} (listed : id ∈ awaited)
      (found : cp.sessions.get? id = some session) (ended : session.isOpen = false)
      (unchanged : after = cp) :
      Taking cp after awaited (.sessionFailed id .closedByPeer)
  /-- The next item of an open session is a close, which is all that is taken. -/
  | closed {id : SessionId} (listed : id ∈ awaited) (delivers : cp.Delivers after id .close)
      (differs : cp.Differs after (· = id)) :
      Taking cp after awaited (.sessionFailed id .closedByPeer)
  /-- Every awaited session has data next. A session that is listed once loses what it hands over. -/
  | received {messages : Messages} (names : ∀ id, messages.contains id ↔ id ∈ awaited)
      (delivers : awaited.Nodup → ∀ id ∈ awaited, ∃ payload,
        messages.get? id = some payload ∧ cp.Delivers after id (.data payload))
      (differs : cp.Differs after (· ∈ awaited)) :
      Taking cp after awaited (.messages messages)

theorem Answer.taking {cp : Checkpoint} {value : Resumed} {after : SortedMap SessionId Session}
    (answer : Answer cp.sessions awaited value after) :
    Taking cp { cp with sessions := after } awaited value := by
  cases answer with
  | ended listed found finished => exact .finished listed found finished rfl
  | closed listed canDeliver closing =>
      obtain ⟨session, item, found, isOpen, next, arrived⟩ := canDeliver.found
      obtain rfl : item = .close := Option.some.inj (arrived.symm.trans closing)
      refine .closed listed ⟨session, found, isOpen, next, get?_consume_self found next⟩ ⟨rfl, ?_⟩
      exact fun other differs => get?_consume_of_ne cp.sessions differs
  | received canDeliver data =>
      have next : ∀ id ∈ awaited, ∃ session payload, cp.sessions.get? id = some session ∧
          session.isOpen ∧ session.next? = some (.data payload) ∧
          (find cp.sessions id).head? = some (.data payload) := by
        intro id listed
        obtain ⟨session, item, found, isOpen, next, arrived⟩ := (canDeliver id listed).found
        cases item with
        | data payload => exact ⟨session, payload, found, isOpen, next, arrived⟩
        | close => exact absurd arrived (data id listed)
      refine .received (fun id => ⟨fun named => ?_, fun listed => ?_⟩) (fun once id listed => ?_)
        ⟨rfl, fun id absent => get?_collect_of_not_mem {} absent⟩
      · by_contra absent
        rw [SortedMap.contains, (collect_of_not_mem cp.sessions {} absent).2] at named
        cases named
      · obtain ⟨_, payload, _, _, _, arrived⟩ := next id listed
        exact contains_collect_of_mem {} listed arrived
      · obtain ⟨session, payload, found, isOpen, next, arrived⟩ := next id listed
        have single : awaited.count id < 2 ∨ (find cp.sessions id).tail.head? = none :=
          .inl (Nat.lt_succ_of_le (List.nodup_iff_count_le_one.1 once id))
        exact ⟨payload, (collect_once {} listed arrived single).2, session, found, isOpen, next,
          get?_collect_of_mem {} once listed found next⟩

/-- A wait that is not over leaves the checkpoint as it is, and so do those who look at it, whether it
begins or an item has just been kept. A wait that is over is answered with a failure of one session or
with the messages of all of them, and takes what it answers with and nothing else. It is over just if no
session is late that is listed before the first one that is not open any more. -/
theorem takes_all_or_nothing (cp : Checkpoint) :
    (∀ after, cp.takeReady = (none, after) →
      after = cp ∧
      (∀ records, (Draft.answerWait ⟨cp, records⟩).1 = ⟨cp, records⟩) ∧
      ∀ flowId id session number item before prepared, before.sessions.get? id = some session →
        Handler.keep before id session number item = cp →
        Handler.session flowId id number item before = .ok prepared →
        prepared = ⟨⟨cp, [.sessionAck flowId id number]⟩, .skip⟩) ∧
    (∀ value after, cp.takeReady = (some value, after) →
      ∃ awaited deadline, cp.waitingFor = .sessions awaited deadline ∧
        Taking cp after awaited value) ∧
    (cp.takeReady.1.isSome ↔ ∃ awaited deadline, cp.waitingFor = .sessions awaited deadline ∧
      ∀ id ∈ cp.hoped awaited, Handler.isLate cp id = false) := by
  refine ⟨fun after unready => ?_, fun value after taken => ?_, ?_⟩
  · cases takeReady_unready unready
    refine ⟨rfl, fun records => ?_, ?_⟩
    · simp only [Draft.answerWait, unready]
      split <;> rfl
    · rintro flowId id session number item before prepared found rfl prepares
      simp only [Handler.session, found] at prepares
      split at prepares
      · cases prepares
      · split at prepares
        · cases prepares
        · rw [Handler.keep] at unready
          rw [unready] at prepares
          cases prepares
          rfl
  · obtain ⟨awaited, deadline, sessions, wait, answer, rfl⟩ :=
      takeReady?_some (takeReady?_eq_some_iff.2 taken)
    exact ⟨awaited, deadline, wait, answer.taking⟩
  · have unready : cp.takeReady? = none ↔ cp.takeReady.1 = none := Option.map_eq_none_iff
    rw [Option.isSome_iff_ne_none, ne_eq, ← unready, unready_iff_waiting]
    cases cp.waitingFor with
    | sessions awaited deadline => simp [← readiness_ne_waiting_iff]
    | start | wakeup | confirmations | nothing => simp

/-- A flow that waits for two sessions: the first one has data next, the second one a close. -/
def parley : Checkpoint :=
  { Checkpoint.new ⟨1⟩ ⟨"O=Alice", "g1"⟩ "parley" .epoch with
    waitingFor := .sessions [⟨"s1"⟩, ⟨"s2"⟩] none
    sessions := .ofList [(⟨"s1"⟩, (Session.new ⟨"O=Bob", "g1"⟩).buffer 1 (.data [7])),
      (⟨"s2"⟩, (Session.new ⟨"O=Carol", "g1"⟩).buffer 1 .close)] }

/-- Only the close is taken, and what has arrived on the first session stays there. -/
theorem takes_all_or_nothing_of_close :
    ∃ after, parley.takeReady = (some (.sessionFailed ⟨"s2"⟩ .closedByPeer), after) ∧
      after.sessions.get? ⟨"s1"⟩ = parley.sessions.get? ⟨"s1"⟩ := by
  refine ⟨_, rfl, ?_⟩
  obtain ⟨awaited, deadline, wait, taking⟩ := (takes_all_or_nothing parley).2.1 _ _ rfl
  cases taking with
  | finished _ _ _ unchanged => rw [unchanged]
  | closed _ _ differs => exact differs.others ⟨"s1"⟩ (by decide)

end Checkpoint

end DurableFlow
