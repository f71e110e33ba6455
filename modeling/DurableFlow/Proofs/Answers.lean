import DurableFlow.Proofs.Intake

/-! # How a wait for session items ends

A wait ends when every awaited session can deliver, or at the first one that never will. What leaves
a session then is what the flow is told of it, except that a wait which names a session twice takes
two items off it and hands over the second one only. `Answer.takes` says so session by session.
-/

namespace DurableFlow

open Intake

/-- What a resume value tells a flow about a session. -/
def Resumed.delivers : Resumed → SessionId → List Item
  | .messages received, id => ((received.get? id).map Item.data).toList
  | .sessionFailed other .closedByPeer, id => if other = id then [.close] else []
  | _, _ => []

/-- A wait that names a session twice is answered although the item after the next one has arrived
on that session as well. -/
def Wait.Overlooks (wait : Wait) (value : Resumed) (id : SessionId) (intake : Intake) : Prop :=
  ∃ awaited deadline received, wait = .sessions awaited deadline ∧ value = .messages received ∧
    2 ≤ awaited.count id ∧ intake.tail.head?.isSome

namespace Checkpoint

variable {sessions : SortedMap SessionId Session} {awaited : List SessionId}

/-- A session from which the next item can be taken. -/
def CanDeliver (sessions : SortedMap SessionId Session) (id : SessionId) : Prop :=
  ∃ session item, sessions.get? id = some session ∧ session.isOpen ∧
    (find sessions id).head? = some item

theorem canDeliver_of_ready (h : readiness sessions awaited = .ready) :
    ∀ id ∈ awaited, CanDeliver sessions id := by
  induction awaited with
  | nil => simp
  | cons first rest ih =>
      simp only [readiness] at h
      split at h
      · cases h
      next session found =>
        split at h
        · cases h
        next isOpen =>
          split at h
          · cases h
          next arrived =>
            intro id listed
            rcases List.mem_cons.1 listed with rfl | listed
            · obtain ⟨item, next⟩ := Option.ne_none_iff_exists'.1 (by simpa using arrived)
              refine ⟨session, item, found, by simpa using isOpen, ?_⟩
              rw [← next?_eq_head?, found]
              exact next
            · exact ih h id listed

theorem mem_of_ended {id : SessionId} (h : readiness sessions awaited = .ended id) :
    id ∈ awaited ∧ ∃ session, sessions.get? id = some session ∧ session.isOpen = false := by
  induction awaited with
  | nil => cases h
  | cons first rest ih =>
      simp only [readiness] at h
      split at h
      · cases h
      next session found =>
        split at h
        next isOver =>
          cases h
          exact ⟨List.mem_cons_self, session, found, by simpa using isOver⟩
        next =>
          split at h
          · cases h
          · obtain ⟨listed, finished⟩ := ih h
            exact ⟨List.mem_cons_of_mem _ listed, finished⟩

theorem isClosing_iff {id : SessionId} :
    isClosing sessions id ↔ (find sessions id).head? = some .close := by
  rw [isClosing, decide_eq_true_iff, next?_eq_head?]

/-- The ways in which a wait for session items ends. -/
inductive Answer (sessions : SortedMap SessionId Session) (awaited : List SessionId) :
    Resumed → SortedMap SessionId Session → Prop where
  | ended {id session} (listed : id ∈ awaited) (found : sessions.get? id = some session)
      (finished : session.isOpen = false) :
      Answer sessions awaited (.sessionFailed id .closedByPeer) sessions
  | closed {id} (listed : id ∈ awaited) (canDeliver : CanDeliver sessions id)
      (closing : (find sessions id).head? = some .close) :
      Answer sessions awaited (.sessionFailed id .closedByPeer) (consume sessions id).2
  | received (canDeliver : ∀ id ∈ awaited, CanDeliver sessions id)
      (data : ∀ id ∈ awaited, (find sessions id).head? ≠ some .close) :
      Answer sessions awaited (.messages (collect sessions {} awaited).1)
        (collect sessions {} awaited).2

/-- A wait that is not over leaves the checkpoint as it is. -/
theorem takeReady_unready {cp after : Checkpoint} (h : cp.takeReady = (none, after)) :
    after = cp := by
  unfold takeReady at h
  split at h
  · split at h
    · cases h
      rfl
    · cases h
    · split at h <;> cases h
  · cases h
    rfl

theorem takeReady?_eq_none_iff {cp : Checkpoint} :
    cp.takeReady? = none ↔ cp.takeReady = (none, cp) := by
  unfold takeReady?
  rcases taken : cp.takeReady with ⟨_ | value, after⟩
  · simp [takeReady_unready taken]
  · simp

theorem takeReady?_eq_some_iff {cp after : Checkpoint} {value : Resumed} :
    cp.takeReady? = some (value, after) ↔ cp.takeReady = (some value, after) := by
  unfold takeReady?
  rcases cp.takeReady with ⟨_ | given, left⟩ <;> simp

theorem takeReady?_some {cp after : Checkpoint} {value : Resumed}
    (h : cp.takeReady? = some (value, after)) : ∃ awaited deadline sessions,
      cp.waitingFor = .sessions awaited deadline ∧ Answer cp.sessions awaited value sessions ∧
        after = { cp with sessions } := by
  rw [takeReady?_eq_some_iff] at h
  unfold takeReady at h
  split at h
  next awaited deadline wait =>
    refine ⟨awaited, deadline, after.sessions, wait, ?_⟩
    split at h
    · cases h
    next id ended =>
      cases h
      obtain ⟨listed, session, found, finished⟩ := mem_of_ended ended
      exact ⟨.ended listed found finished, rfl⟩
    next ready =>
      have canDeliver := canDeliver_of_ready ready
      split at h
      next id closing =>
        cases h
        have listed := List.mem_of_find?_eq_some closing
        have closing := isClosing_iff.1 (List.find?_some closing)
        exact ⟨.closed listed (canDeliver id listed) closing, rfl⟩
      next data =>
        cases h
        refine ⟨.received canDeliver fun id listed closing => ?_, rfl⟩
        exact List.find?_eq_none.1 data id listed (isClosing_iff.2 closing)
  · cases h

namespace Answer

variable {value : Resumed} {after : SortedMap SessionId Session}

theorem kind_eq (answer : Answer sessions awaited value after) : value.kind = .messages := by
  cases answer <;> rfl

theorem received_takes (canDeliver : ∀ id ∈ awaited, CanDeliver sessions id)
    (data : ∀ id ∈ awaited, (find sessions id).head? ≠ some .close) (id : SessionId) :
    ∃ items, (find sessions id).Takes items (find (collect sessions {} awaited).2 id) ∧
      ((items.map Prod.snd).Sublist
          ((Resumed.messages (collect sessions {} awaited).1).delivers id) ↔
        ¬ (2 ≤ awaited.count id ∧ (find sessions id).tail.head?.isSome)) := by
  by_cases listed : id ∈ awaited
  · obtain ⟨session, item, _, _, arrived⟩ := canDeliver id listed
    cases item with
    | close => exact absurd arrived (data id listed)
    | data payload =>
        by_cases twice : 2 ≤ awaited.count id ∧ (find sessions id).tail.head?.isSome
        · obtain ⟨second, follows⟩ := Option.isSome_iff_exists.1 twice.2
          obtain ⟨items, takes⟩ := collect_twice {} twice.1 arrived follows
          refine ⟨_, takes, iff_of_false (fun told => ?_) (not_not_intro twice)⟩
          have short : ((Resumed.messages (collect sessions {} awaited).1).delivers id).length ≤ 1 := by
            cases got : (collect sessions {} awaited).1.get? id <;> simp [Resumed.delivers, got]
          have := told.length_le
          simp only [List.map_cons, List.length_cons] at this
          omega
        · have single : awaited.count id < 2 ∨ (find sessions id).tail.head? = none := by
            rw [Decidable.not_and_iff_not_or_not, Nat.not_le] at twice
            simpa using twice
          obtain ⟨tail, got⟩ := collect_once {} listed arrived single
          refine ⟨[((find sessions id).next, .data payload)], ?_, ?_⟩
          · rw [tail]
            exact .item arrived .none
          · simp [Resumed.delivers, got, twice]
  · obtain ⟨same, got⟩ := collect_of_not_mem sessions {} listed
    refine ⟨[], by rw [same]; exact .none, ?_⟩
    simp [List.count_eq_zero_of_not_mem listed]

/-- What leaves a session is what the flow is told about it, unless the wait overlooks an item. No
payload is handed over that has not left its session. -/
theorem takes (answer : Answer sessions awaited value after) (deadline : Option Timestamp)
    (id : SessionId) : ∃ items, (find sessions id).Takes items (find after id) ∧
      ((items.map Prod.snd).Sublist (value.delivers id) ↔
        ¬ (Wait.sessions awaited deadline).Overlooks value id (find sessions id)) ∧
      ∀ payload, .data payload ∈ value.delivers id → .data payload ∈ items.map Prod.snd := by
  cases answer with
  | @ended other session listed found finished =>
      refine ⟨[], .none, by simp [Wait.Overlooks], ?_⟩
      intro payload delivered
      simp only [Resumed.delivers] at delivered
      split at delivered <;> simp at delivered
  | @closed other listed canDeliver closing =>
      by_cases here : id = other
      · subst here
        refine ⟨[((find sessions id).next, .close)], ?_, ?_, ?_⟩
        · rw [find_consume_self closing]
          exact .item closing .none
        · simp [Resumed.delivers, Wait.Overlooks]
        · simp [Resumed.delivers]
      · refine ⟨[], ?_, by simp [Wait.Overlooks], ?_⟩
        · rw [find_consume_of_ne sessions here]
          exact .none
        · simp [Resumed.delivers, Ne.symm here]
  | received canDeliver data =>
      obtain ⟨items, takes, told⟩ := received_takes canDeliver data id
      obtain ⟨others, again, got⟩ := collect_takes sessions {} awaited id
      cases takes.unique again
      refine ⟨items, takes, ?_, ?_⟩
      · rw [told, Wait.Overlooks]
        constructor
        · rintro kept ⟨_, _, _, wait, _, twice⟩
          cases wait
          exact kept twice
        · exact fun kept twice => kept ⟨awaited, deadline, _, rfl, rfl, twice⟩
      · intro payload delivered
        have held : (collect sessions {} awaited).1.get? id = some payload := by
          simpa [Resumed.delivers] using delivered
        exact (got payload held).resolve_left fun empty => by cases empty

end Answer

end Checkpoint

end DurableFlow
