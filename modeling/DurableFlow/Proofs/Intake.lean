import DurableFlow.Checkpoint
import DurableFlow.Proofs.Maps

/-! # What sessions take in

For its inbound items a session counts the next one and keeps those that have arrived early:
`Intake`. Items leave it one by one from the front, `Intake.Takes`, whatever a wait asks for.
What a wait takes off the sessions that it lists is collected session by session: a session that is
listed twice loses two items, of which only the last is kept.
-/

namespace DurableFlow

/-- The inbound side of a session. -/
structure Intake where
  /-- The number of the next item to be consumed. -/
  next : Nat
  pending : SortedMap Nat Item

/-- The inbound side of a session. -/
def Session.intake (session : Session) : Intake := ⟨session.nextReceive, session.pending⟩

namespace Intake

/-- A session on which nothing has arrived. -/
def initial : Intake := ⟨1, {}⟩

/-- The inbound side of a session, be it known or not. -/
def find (sessions : SortedMap SessionId Session) (id : SessionId) : Intake :=
  ((sessions.get? id).map Session.intake).getD initial

/-- The next item, if it has arrived. -/
def head? (intake : Intake) : Option Item := intake.pending.get? intake.next

/-- The intake without its next item. -/
def tail (intake : Intake) : Intake := ⟨intake.next + 1, intake.pending.erase intake.next⟩

/-- Items leave an intake from the front. -/
inductive Takes : Intake → List (Nat × Item) → Intake → Prop where
  | none {intake} : Takes intake [] intake
  | item {intake after item items} (arrived : intake.head? = some item)
      (rest : Takes intake.tail items after) : Takes intake ((intake.next, item) :: items) after

/-- Items are counted from one, and none is kept that was consumed. -/
structure Sound (intake : Intake) : Prop where
  one_le : 1 ≤ intake.next
  next_le : ∀ n item, intake.pending.get? n = some item → intake.next ≤ n

/-- What an earlier intake holds and a later one does not, in the order of the numbers. -/
def removed (before after : Intake) : List (Nat × Item) :=
  before.pending.entries.filter fun entry => !after.pending.contains entry.1

theorem sound_initial : initial.Sound := ⟨Nat.le_refl 1, fun _ _ h => by cases h⟩

theorem get?_tail {intake : Intake} {n : Nat} :
    intake.tail.pending.get? n = if n = intake.next then none else intake.pending.get? n := by
  simp [tail, SortedMap.get?_erase]

theorem Sound.tail {intake : Intake} (sound : intake.Sound) : intake.tail.Sound where
  one_le := Nat.le_add_left 1 intake.next
  next_le n item h := by
    rw [get?_tail] at h
    split at h
    · cases h
    next other =>
      have := sound.next_le n item h
      exact Nat.lt_of_le_of_ne this (Ne.symm other)

namespace Takes

theorem trans {a b c : Intake} {first second : List (Nat × Item)} (ab : a.Takes first b)
    (bc : b.Takes second c) : a.Takes (first ++ second) c := by
  induction ab with
  | none => exact bc
  | item arrived _ ih => exact .item arrived (ih bc)

theorem sound {a b : Intake} {items : List (Nat × Item)} (takes : a.Takes items b)
    (sound : a.Sound) : b.Sound := by
  induction takes with
  | none => exact sound
  | item _ _ ih => exact ih sound.tail

theorem next_eq {a b : Intake} {items : List (Nat × Item)} (takes : a.Takes items b) :
    b.next = a.next + items.length := by
  induction takes with
  | none => rfl
  | item _ _ ih =>
      rw [ih]
      simp only [tail, List.length_cons]
      omega

theorem numbers {a b : Intake} {items : List (Nat × Item)} (takes : a.Takes items b) :
    items.map Prod.fst = List.range' a.next items.length := by
  induction takes with
  | none => rfl
  | item _ _ ih =>
      rw [List.map_cons, ih]
      rfl

theorem get?_iff {a b : Intake} {items : List (Nat × Item)} (takes : a.Takes items b) {n : Nat}
    {item : Item} :
    a.pending.get? n = some item ↔ (n, item) ∈ items ∨ b.pending.get? n = some item := by
  induction takes with
  | none => simp
  | @item intake after first items arrived rest ih =>
      rw [List.mem_cons, or_assoc, ← ih, get?_tail]
      by_cases here : n = intake.next
      · subst here
        have held : intake.pending.get? intake.next = some first := arrived
        simp [held, eq_comm]
      · simp [here]

theorem unique {a b : Intake} {items others : List (Nat × Item)} (takes : a.Takes items b)
    (again : a.Takes others b) : items = others := by
  induction takes generalizing others with
  | none =>
      cases again with
      | none => rfl
      | item _ rest =>
          have := rest.next_eq
          simp only [tail] at this
          omega
  | item arrived rest ih =>
      cases again with
      | none =>
          have := rest.next_eq
          simp only [tail] at this
          omega
      | item also later =>
          rw [arrived] at also
          cases also
          rw [ih later]

theorem removed_eq {a b : Intake} {items : List (Nat × Item)} (takes : a.Takes items b)
    (sound : a.Sound) : a.removed b = items := by
  induction takes with
  | none =>
      refine List.filter_eq_nil_iff.2 fun entry member => ?_
      simp [SortedMap.contains, SortedMap.mem_entries.1 member]
  | @item intake after first items arrived rest ih =>
      have entries : intake.pending.entries = (intake.next, first) :: intake.tail.pending.entries :=
        SortedMap.entries_eq_cons arrived fun n item held =>
          Nat.isLE_compare.2 (sound.next_le n item held)
      have gone : after.pending.contains intake.next = false := by
        cases held : after.pending.get? intake.next with
        | none => simp [SortedMap.contains, held]
        | some item =>
            have := rest.get?_iff.2 (.inr held)
            rw [get?_tail, if_pos rfl] at this
            cases this
      have kept := ih sound.tail
      unfold removed at kept ⊢
      rw [entries, List.filter_cons, if_pos (by simp [gone]), kept]

end Takes

theorem next?_eq_head? (sessions : SortedMap SessionId Session) (id : SessionId) :
    (sessions.get? id).bind Session.next? = (find sessions id).head? := by
  unfold find
  cases sessions.get? id <;> rfl

theorem find_insert_self (sessions : SortedMap SessionId Session) (id : SessionId)
    (session : Session) : find (sessions.insert id session) id = session.intake := by
  rw [find, SortedMap.get?_insert_self]
  rfl

theorem find_insert_of_ne (sessions : SortedMap SessionId Session) {id other : SessionId}
    (session : Session) (differs : other ≠ id) :
    find (sessions.insert id session) other = find sessions other := by
  rw [find, find, SortedMap.get?_insert_of_ne _ _ differs]

end Intake

/-- A session that has lost its next item. -/
def Session.taken (session : Session) (item : Item) : Session :=
  { session with
    status := match item with
      | .close => .closedByPeer
      | .data _ => session.status
    nextReceive := session.nextReceive + 1
    pending := session.pending.erase session.nextReceive }

/-- The payload an item carries. -/
def Item.payload? : Item → Option Bytes
  | .data payload => some payload
  | .close => none

namespace Checkpoint

open Intake

variable {sessions : SortedMap SessionId Session} {id : SessionId}

theorem consume_of_head? {item : Item} (arrived : (find sessions id).head? = some item) :
    ∃ session, sessions.get? id = some session ∧ (session.taken item).intake = (find sessions id).tail ∧
      consume sessions id = (item.payload?, sessions.insert id (session.taken item)) := by
  unfold find at arrived ⊢
  cases found : sessions.get? id with
  | none =>
      rw [found] at arrived
      cases arrived
  | some session =>
      rw [found] at arrived
      have next : session.next? = some item := arrived
      refine ⟨session, rfl, rfl, ?_⟩
      rw [consume, found]
      cases item <;> simp [Session.consume?, Session.taken, next, Item.payload?]

theorem consume_of_stalled (stalled : (find sessions id).head? = none) :
    consume sessions id = (none, sessions) := by
  rw [← next?_eq_head?] at stalled
  unfold consume
  cases found : sessions.get? id with
  | none => rfl
  | some session =>
      rw [found] at stalled
      have next : session.next? = none := stalled
      simp [Session.consume?, next]

theorem find_consume_self {item : Item} (arrived : (find sessions id).head? = some item) :
    find (consume sessions id).2 id = (find sessions id).tail := by
  obtain ⟨session, _, tail, consumed⟩ := consume_of_head? arrived
  rw [consumed, find_insert_self, tail]

theorem find_consume_of_ne (sessions : SortedMap SessionId Session) {id other : SessionId}
    (differs : other ≠ id) : find (consume sessions id).2 other = find sessions other := by
  cases arrived : (find sessions id).head? with
  | none => rw [consume_of_stalled arrived]
  | some item =>
      obtain ⟨session, _, _, consumed⟩ := consume_of_head? arrived
      rw [consumed, find_insert_of_ne _ _ differs]

/-- The messages after one session was consumed. -/
def gather (sessions : SortedMap SessionId Session) (messages : Messages) (id : SessionId) :
    Messages :=
  match (consume sessions id).1 with
  | some payload => messages.insert id payload
  | none => messages

theorem collect_cons (messages : Messages) (rest : List SessionId) :
    collect sessions messages (id :: rest) =
      collect (consume sessions id).2 (gather sessions messages id) rest := by
  rw [collect, gather]
  rcases consume sessions id with ⟨_ | _, _⟩ <;> rfl

theorem gather_of_ne (messages : Messages) {other : SessionId} (differs : other ≠ id) :
    (gather sessions messages id).get? other = messages.get? other := by
  unfold gather
  split
  · rw [SortedMap.get?_insert_of_ne _ _ differs]
  · rfl

theorem gather_of_head? (messages : Messages) {payload : Bytes}
    (arrived : (find sessions id).head? = some (.data payload)) :
    (gather sessions messages id).get? id = some payload := by
  obtain ⟨_, _, _, consumed⟩ := consume_of_head? arrived
  rw [gather, consumed]
  exact SortedMap.get?_insert_self ..

theorem consume_takes (sessions : SortedMap SessionId Session) (messages : Messages)
    (id : SessionId) : ∃ items, (find sessions id).Takes items (find (consume sessions id).2 id) ∧
      ∀ payload, (gather sessions messages id).get? id = some payload →
        messages.get? id = some payload ∨ .data payload ∈ items.map Prod.snd := by
  cases arrived : (find sessions id).head? with
  | none =>
      rw [gather, consume_of_stalled arrived]
      exact ⟨[], .none, fun _ got => .inl got⟩
  | some item =>
      rw [find_consume_self arrived]
      refine ⟨_, .item arrived .none, fun payload got => ?_⟩
      obtain ⟨_, _, _, consumed⟩ := consume_of_head? arrived
      rw [gather, consumed] at got
      cases item with
      | close => exact .inl got
      | data held =>
          simp only [Item.payload?, SortedMap.get?_insert_self] at got
          cases got
          exact .inr (by simp)

section Collect

variable (sessions : SortedMap SessionId Session) (messages : Messages) {ids : List SessionId}

theorem collect_of_not_mem (absent : id ∉ ids) :
    find (collect sessions messages ids).2 id = find sessions id ∧
      (collect sessions messages ids).1.get? id = messages.get? id := by
  induction ids generalizing sessions messages with
  | nil => exact ⟨rfl, rfl⟩
  | cons first rest ih =>
      rw [List.mem_cons, not_or] at absent
      obtain ⟨differs, absent⟩ := absent
      rw [collect_cons]
      obtain ⟨intake, received⟩ :=
        ih (consume sessions first).2 (gather sessions messages first) absent
      exact ⟨intake.trans (find_consume_of_ne sessions differs),
        received.trans (gather_of_ne messages differs)⟩

variable {sessions}

theorem collect_of_stalled (stalled : (find sessions id).head? = none) :
    find (collect sessions messages ids).2 id = find sessions id ∧
      (collect sessions messages ids).1.get? id = messages.get? id := by
  induction ids generalizing sessions messages with
  | nil => exact ⟨rfl, rfl⟩
  | cons first rest ih =>
      rw [collect_cons]
      by_cases here : id = first
      · subst here
        have same : gather sessions messages id = messages := by
          rw [gather, consume_of_stalled stalled]
        rw [consume_of_stalled stalled, same]
        exact ih messages stalled
      · have kept := find_consume_of_ne sessions here
        rw [← kept] at stalled
        obtain ⟨intake, received⟩ := ih (gather sessions messages first) stalled
        exact ⟨intake.trans kept, received.trans (gather_of_ne messages here)⟩

variable (sessions) in
theorem collect_takes (ids : List SessionId) (id : SessionId) : ∃ items,
    (find sessions id).Takes items (find (collect sessions messages ids).2 id) ∧
      ∀ payload, (collect sessions messages ids).1.get? id = some payload →
        messages.get? id = some payload ∨ .data payload ∈ items.map Prod.snd := by
  induction ids generalizing sessions messages with
  | nil => exact ⟨[], .none, fun _ got => .inl got⟩
  | cons first rest ih =>
      rw [collect_cons]
      obtain ⟨items, later, got⟩ := ih (consume sessions first).2 (gather sessions messages first)
      by_cases here : id = first
      · subst here
        obtain ⟨earlier, takes, gathered⟩ := consume_takes sessions messages id
        refine ⟨earlier ++ items, takes.trans later, fun payload collected => ?_⟩
        rw [List.map_append, List.mem_append]
        rcases got payload collected with before | taken
        · exact (gathered payload before).imp_right .inl
        · exact .inr (.inr taken)
      · rw [find_consume_of_ne sessions here] at later
        rw [gather_of_ne messages here] at got
        exact ⟨items, later, got⟩

theorem collect_takes_head {item : Item} (listed : id ∈ ids)
    (arrived : (find sessions id).head? = some item) : ∃ items,
    (find sessions id).Takes (((find sessions id).next, item) :: items)
      (find (collect sessions messages ids).2 id) := by
  induction ids generalizing sessions messages with
  | nil => cases listed
  | cons first rest ih =>
      rw [collect_cons]
      by_cases here : id = first
      · subst here
        obtain ⟨items, later, _⟩ :=
          collect_takes (consume sessions id).2 (gather sessions messages id) rest id
        rw [find_consume_self arrived] at later
        exact ⟨items, .item arrived later⟩
      · have listed := (List.mem_cons.1 listed).resolve_left here
        rw [← find_consume_of_ne sessions here] at arrived ⊢
        exact ih (gather sessions messages first) listed arrived

/-- A session that is listed once, or that has nothing after its next item, delivers that item. -/
theorem collect_once {payload : Bytes} (listed : id ∈ ids)
    (arrived : (find sessions id).head? = some (.data payload))
    (single : ids.count id < 2 ∨ (find sessions id).tail.head? = none) :
    find (collect sessions messages ids).2 id = (find sessions id).tail ∧
      (collect sessions messages ids).1.get? id = some payload := by
  induction ids generalizing sessions messages with
  | nil => cases listed
  | cons first rest ih =>
      rw [collect_cons]
      by_cases here : id = first
      · subst here
        have received := gather_of_head? messages arrived
        have tail := find_consume_self arrived
        by_cases again : id ∈ rest
        · have stalled : (find sessions id).tail.head? = none := by
            refine single.resolve_left fun few => ?_
            have := List.count_pos_iff.2 again
            rw [List.count_cons_self] at few
            omega
          rw [← tail] at stalled
          obtain ⟨intake, kept⟩ := collect_of_stalled (gather sessions messages id) stalled
          exact ⟨intake.trans tail, kept.trans received⟩
        · obtain ⟨intake, kept⟩ :=
            collect_of_not_mem (consume sessions id).2 (gather sessions messages id) again
          exact ⟨intake.trans tail, kept.trans received⟩
      · have listed := (List.mem_cons.1 listed).resolve_left here
        rw [List.count_cons_of_ne (Ne.symm here)] at single
        rw [← find_consume_of_ne sessions here] at arrived single ⊢
        exact ih (gather sessions messages first) listed arrived single

/-- A session that is listed twice loses the item after its next one as well, if that has
arrived. -/
theorem collect_twice {item second : Item} (listed : 2 ≤ ids.count id)
    (arrived : (find sessions id).head? = some item)
    (follows : (find sessions id).tail.head? = some second) : ∃ items,
    (find sessions id).Takes
      (((find sessions id).next, item) :: ((find sessions id).tail.next, second) :: items)
      (find (collect sessions messages ids).2 id) := by
  induction ids generalizing sessions messages with
  | nil => cases listed
  | cons first rest ih =>
      rw [collect_cons]
      by_cases here : id = first
      · subst here
        have again : id ∈ rest := by
          rw [List.count_cons_self] at listed
          exact List.count_pos_iff.1 (by omega)
        have tail := find_consume_self arrived
        rw [← tail] at follows
        obtain ⟨items, later⟩ := collect_takes_head (gather sessions messages id) again follows
        rw [tail] at later
        exact ⟨items, .item arrived later⟩
      · rw [List.count_cons_of_ne (Ne.symm here)] at listed
        rw [← find_consume_of_ne sessions here] at arrived follows ⊢
        exact ih (gather sessions messages first) listed arrived follows

end Collect

end Checkpoint

end DurableFlow
