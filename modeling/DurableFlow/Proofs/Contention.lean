import Mathlib.Data.List.Basic
import DurableFlow.Proofs.Maps
import DurableFlow.Store

/-! # Clients that share a store

Any number of clients load from one store in memory and save to it, whatever they believe to be stored.
Each call takes effect at one point in time, so an interleaving of their calls is a list. The version of
a checkpoint is the number of contents that its flow has had so far: `Contents.Held`. All that a client
can rely on follows from that, `Exchange.Orderly`.
-/

namespace DurableFlow

/-- What a client asks of a store. -/
inductive StoreCall where
  | load (id : FlowId)
  | save (cp : Checkpoint) (expected : Nat)

inductive StoreReply where
  | loaded (result : Except StoreError (Option Checkpoint))
  | saved (result : Except StoreError SaveOutcome)
  deriving DecidableEq

/-- Answer a call. -/
def CheckpointStore.answer {τ : Type} (api : CheckpointStore τ) (stored : τ) :
    StoreCall → StoreReply × τ
  | .load id =>
    let (result, stored) := api.load id stored
    (.loaded result, stored)
  | .save cp expected =>
    let (result, stored) := api.save cp expected stored
    (.saved result, stored)

/-- A call that has taken effect, with the store before and after it. -/
structure Exchange (κ : Type) where
  client : κ
  call : StoreCall
  before : Store
  reply : StoreReply
  after : Store

/-- What the calls of some clients come to, in the order in which they take effect. -/
def Store.history {κ : Type} (store : Store) : List (κ × StoreCall) → List (Exchange κ)
  | [] => []
  | (client, call) :: rest =>
    let (reply, after) := Store.inMemory.answer store call
    ⟨client, call, store, reply, after⟩ :: Store.history after rest

namespace Exchange

variable {κ : Type}

/-- The content that an exchange has stored. -/
def content? (x : Exchange κ) : Option Checkpoint :=
  match x.call, x.reply with
  | .save cp _, .saved (.ok (.saved version)) => some { cp with version }
  | _, _ => none

/-- The contents that a flow has had, the oldest first. -/
def contents (flow : FlowId) (history : List (Exchange κ)) : List Checkpoint :=
  (history.filterMap content?).filter (·.flowId = flow)

/-- Whether an exchange is a successful save for a flow over an expected version. -/
def Wins (flow : FlowId) (expected : Nat) (x : Exchange κ) : Prop :=
  ∃ cp version, x.call = .save cp expected ∧ cp.flowId = flow ∧
    x.reply = .saved (.ok (.saved version))

/-- How a flow fares in a history. -/
structure Orderly (flow : FlowId) (history : List (Exchange κ)) : Prop where
  /-- The contents of the flow have the versions 1, 2, 3, … -/
  numbered : (contents flow history).map (·.version) = List.range' 1 (contents flow history).length
  /-- At any time the last content is stored. -/
  held : ∀ earlier x later, history = earlier ++ x :: later →
    x.before.get? flow = (contents flow earlier).getLast? ∧
      x.after.get? flow = (contents flow (earlier ++ [x])).getLast?
  /-- Of all saves that expect one version, at most one succeeds. -/
  single : ∀ expected, history.Pairwise fun x y => ¬ (x.Wins flow expected ∧ y.Wins flow expected)
  /-- A save that succeeds over the version that was loaded, by its client or another one, replaces what
  was loaded, and nothing was stored in between. -/
  current : ∀ earlier x between y later found, history = earlier ++ x :: between ++ y :: later →
    x.call = .load flow → x.reply = .loaded (.ok found) →
    y.Wins flow ((found.map (·.version)).getD 0) →
    y.before.get? flow = found ∧ contents flow between = []
  /-- A conflict reports the stored version and changes nothing. -/
  conflict : ∀ x ∈ history, ∀ cp expected version, x.call = .save cp expected → cp.flowId = flow →
    x.reply = .saved (.ok (.conflict version)) →
    version = (x.before.get? flow).map (·.version) ∧ x.after = x.before
  /-- The content of a flow that is over stays. -/
  final : ∀ earlier x later cp, history = earlier ++ x :: later → x.before.get? flow = some cp →
    cp.isTerminal → ∀ y ∈ x :: later, y.after.get? flow = some cp
  /-- Only a save for the flow changes its content. -/
  apart : ∀ x ∈ history, (∀ cp expected, x.call = .save cp expected → cp.flowId ≠ flow) →
    x.after.get? flow = x.before.get? flow

/-- The ways in which a call takes effect. -/
inductive Occurs : Exchange κ → Prop where
  | loads (client : κ) (id : FlowId) (store : Store) :
      Occurs ⟨client, .load id, store, .loaded (.ok (store.get? id)), store⟩
  | saves (client : κ) {cp : Checkpoint} {expected : Nat} {store : Store}
      (admitted : store.admits cp.flowId expected) :
      Occurs ⟨client, .save cp expected, store, .saved (.ok (.saved (expected + 1))),
        store.insert cp.flowId { cp with version := expected + 1 }⟩
  | conflicts (client : κ) {cp : Checkpoint} {expected : Nat} {store : Store}
      (refused : ¬ store.admits cp.flowId expected) :
      Occurs ⟨client, .save cp expected, store,
        .saved (.ok (.conflict ((store.get? cp.flowId).map (·.version)))), store⟩

theorem occurs (client : κ) (call : StoreCall) (store : Store) :
    Occurs ⟨client, call, store, (Store.inMemory.answer store call).1,
      (Store.inMemory.answer store call).2⟩ := by
  cases call with
  | load id => exact .loads client id store
  | save cp expected =>
      by_cases admitted : store.admits cp.flowId expected
      · have saved : store.save cp expected = (.saved (expected + 1),
            store.insert cp.flowId { cp with version := expected + 1 }) := if_pos admitted
        simp only [CheckpointStore.answer, Store.inMemory, saved]
        exact .saves client admitted
      · have conflict : store.save cp expected =
            (.conflict ((store.get? cp.flowId).map (·.version)), store) := if_neg admitted
        simp only [CheckpointStore.answer, Store.inMemory, conflict]
        exact .conflicts client admitted

theorem contents_append (flow : FlowId) (first second : List (Exchange κ)) :
    contents flow (first ++ second) = contents flow first ++ contents flow second := by
  simp [contents]

theorem contents_singleton (flow : FlowId) (x : Exchange κ) :
    contents flow [x] = (x.content?.filter (·.flowId = flow)).toList := by
  cases stored : x.content? with
  | none => simp [contents, stored]
  | some cp => by_cases mine : cp.flowId = flow <;> simp [contents, stored, mine, Option.filter]

/-- A flow has had some contents, with the versions 1, 2, 3, …, and the last of them is stored. -/
structure Holds (flow : FlowId) (past : List Checkpoint) (store : Store) : Prop where
  stored : store.get? flow = past.getLast?
  numbered : past.map (·.version) = List.range' 1 past.length

namespace Holds

variable {flow : FlowId} {past : List Checkpoint} {store : Store} {x : Exchange κ}

theorem version (holds : Holds flow past store) :
    ((store.get? flow).map (·.version)).getD 0 = past.length := by
  have numbered := holds.numbered
  rw [holds.stored]
  rcases List.eq_nil_or_concat past with rfl | ⟨init, last, rfl⟩
  · rfl
  · simp only [List.concat_eq_append, List.map_append, List.length_append, List.length_singleton,
      List.range'_concat] at numbered ⊢
    have same := (List.append_inj' numbered rfl).2
    simp at same
    simp [same]
    omega

theorem of_admits (holds : Holds flow past store) {expected : Nat}
    (admitted : store.admits flow expected) : expected = past.length ∧
      ∀ cp, store.get? flow = some cp → cp.isTerminal = false := by
  have version := holds.version
  unfold Store.admits at admitted
  cases stored : store.get? flow with
  | none => simp_all
  | some cp => simp_all

theorem step (holds : Holds flow past x.before) (occurs : x.Occurs) :
    Holds flow (past ++ contents flow [x]) x.after := by
  rw [contents_singleton]
  cases occurs with
  | loads | conflicts => simpa [content?] using holds
  | @saves client cp expected store admitted =>
      by_cases mine : cp.flowId = flow
      · subst mine
        have next := (holds.of_admits admitted).1
        have numbered := holds.numbered
        constructor
        · simp [content?, Option.filter, SortedMap.get?_insert_self]
        · simp [content?, Option.filter, List.range'_concat, numbered, next]
          omega
      · have other : flow ≠ cp.flowId := fun same => mine same.symm
        have unchanged := SortedMap.get?_insert_of_ne store { cp with version := expected + 1 } other
        simp only [content?, Option.filter, mine, decide_false, Bool.false_eq_true, if_false,
          Option.toList_none, List.append_nil]
        exact ⟨unchanged.trans holds.stored, holds.numbered⟩

/-- A save that succeeds for a flow adds a content, over the version that was stored. -/
theorem of_wins (holds : Holds flow past x.before) (occurs : x.Occurs) {expected : Nat}
    (wins : x.Wins flow expected) : expected = past.length ∧ (contents flow [x]).length = 1 := by
  obtain ⟨cp, version, asked, mine, replied⟩ := wins
  cases occurs with
  | loads => cases asked
  | conflicts => cases replied
  | saves client admitted =>
      cases asked
      subst mine
      exact ⟨(holds.of_admits admitted).1, by simp [contents_singleton, content?, Option.filter]⟩

theorem of_terminal (holds : Holds flow past x.before) (occurs : x.Occurs) {cp : Checkpoint}
    (stored : x.before.get? flow = some cp) (terminal : cp.isTerminal) : x.after.get? flow = some cp := by
  cases occurs with
  | loads | conflicts => exact stored
  | @saves client other expected store admitted =>
      by_cases mine : other.flowId = flow
      · subst mine
        have live := (holds.of_admits admitted).2 cp stored
        simp [terminal] at live
      · exact (SortedMap.get?_insert_of_ne _ _ fun same => mine same.symm).trans stored

end Holds

variable {flow : FlowId} {past : List Checkpoint} {store : Store} {calls : List (κ × StoreCall)}

/-- At every point of a history a call takes effect, and the store has what was saved before. -/
theorem of_history {earlier later : List (Exchange κ)} {x : Exchange κ}
    (holds : Holds flow past store) (split : store.history calls = earlier ++ x :: later) :
    x.Occurs ∧ Holds flow (past ++ contents flow earlier) x.before ∧
      ∃ more, x :: later = x.before.history more := by
  induction calls generalizing store past earlier with
  | nil => simp [Store.history] at split
  | cons head rest ih =>
      obtain ⟨client, call⟩ := head
      have first := occurs client call store
      rw [Store.history] at split
      cases earlier with
      | nil =>
          obtain ⟨rfl, rfl⟩ := List.cons.inj split
          exact ⟨first, by simpa [contents] using holds, (client, call) :: rest, rfl⟩
      | cons y others =>
          obtain ⟨rfl, rest⟩ := List.cons.inj split
          have next := ih (holds.step first) rest
          rwa [List.append_assoc, ← contents_append] at next

theorem single_of_history (holds : Holds flow past store) (expected : Nat) :
    (store.history calls).Pairwise fun x y => ¬ (x.Wins flow expected ∧ y.Wins flow expected) := by
  induction calls generalizing store past with
  | nil => exact .nil
  | cons head rest ih =>
      obtain ⟨client, call⟩ := head
      have first := occurs client call store
      have next := holds.step first
      refine .cons ?_ (ih next)
      rintro y mem ⟨wins, again⟩
      obtain ⟨earlier, later, split⟩ := List.append_of_mem mem
      obtain ⟨occurs, holdsLater, -⟩ := of_history next split
      have before := holds.of_wins first wins
      have after := holdsLater.of_wins occurs again
      simp only [List.length_append] at after
      omega

theorem final_of_history {cp : Checkpoint} (holds : Holds flow past store)
    (stored : store.get? flow = some cp) (terminal : cp.isTerminal) :
    ∀ y ∈ store.history calls, y.after.get? flow = some cp := by
  induction calls generalizing store past with
  | nil => simp [Store.history]
  | cons head rest ih =>
      obtain ⟨client, call⟩ := head
      have first := occurs client call store
      have stays := holds.of_terminal first stored terminal
      intro y mem
      rcases List.mem_cons.mp mem with rfl | later
      · exact stays
      · exact ih (holds.step first) stays y later

/-- However clients interleave their calls on an empty store, every flow fares well. -/
theorem orderly_of_history (calls : List (κ × StoreCall)) (flow : FlowId) :
    Orderly flow (Store.history {} calls) := by
  have empty : Holds flow [] ({} : Store) := ⟨rfl, rfl⟩
  have at_split {earlier later : List (Exchange κ)} {x : Exchange κ}
      (split : Store.history {} calls = earlier ++ x :: later) :
      x.Occurs ∧ Holds flow (contents flow earlier) x.before ∧
        ∃ more, x :: later = x.before.history more := of_history empty split
  have at_mem {x : Exchange κ} (mem : x ∈ Store.history {} calls) : x.Occurs := by
    obtain ⟨earlier, later, split⟩ := List.append_of_mem mem
    exact (at_split split).1
  have after_split {earlier later : List (Exchange κ)} {x : Exchange κ}
      (split : Store.history {} calls = earlier ++ x :: later) :
      Holds flow (contents flow (earlier ++ [x])) x.after := by
    obtain ⟨occurs, holds, -⟩ := at_split split
    rw [contents_append]
    exact holds.step occurs
  constructor
  case numbered =>
    rcases List.eq_nil_or_concat (Store.history {} calls) with none | ⟨earlier, x, split⟩
    · simp [none, contents]
    · rw [List.concat_eq_append] at split
      rw [split]
      exact (after_split split).numbered
  case held =>
    intro earlier x later split
    exact ⟨(at_split split).2.1.stored, (after_split split).stored⟩
  case single => exact single_of_history empty
  case current =>
    intro earlier x between y later found split asked replied wins
    rw [List.append_assoc, List.cons_append] at split
    obtain ⟨occurs, holds, -⟩ := at_split split
    have loaded : found = x.before.get? flow := by
      cases occurs <;> simp_all
    rw [← List.cons_append, ← List.append_assoc] at split
    obtain ⟨occursLater, holdsLater, -⟩ := at_split split
    -- Both versions count the contents so far.
    have same := (holdsLater.of_wins occursLater wins).1
    rw [loaded, holds.version, contents_append, List.length_append] at same
    have none : contents flow (x :: between) = [] := List.length_eq_zero_iff.mp (by omega)
    constructor
    · rw [holdsLater.stored, contents_append, none, List.append_nil, loaded, holds.stored]
    · rw [← List.singleton_append, contents_append] at none
      exact (List.append_eq_nil_iff.mp none).2
  case conflict =>
    intro x mem cp expected version asked mine replied
    cases at_mem mem <;> simp_all
  case final =>
    intro earlier x later cp split stored terminal
    obtain ⟨-, holds, more, rest⟩ := at_split split
    rw [rest]
    exact final_of_history holds stored terminal
  case apart =>
    intro x mem other
    cases at_mem mem with
    | loads | conflicts => rfl
    | saves => exact SortedMap.get?_insert_of_ne _ _ fun same => other _ _ rfl same.symm

end Exchange

end DurableFlow
