import Mathlib.Data.List.Nodup
import DurableFlow.Proofs.Stages

/-! # Writes and batches

What dispatchers have done is known by what they have written and what they have handed over, in this
order. A write replaces the last checkpoint of its flow, so the versions of the writes of a flow count
them: `Write.Numbered`.
-/

namespace DurableFlow

/-- A write that has succeeded. -/
structure Write where
  ticket : Nat
  settings : Settings
  event : Event
  /-- The checkpoint as it is stored. -/
  checkpoint : Checkpoint
  /-- What is to be published now that it is stored. -/
  records : List Record

namespace Write

variable {writes : List Write}

/-- The batches that are to be handed over for a write: one, unless it is empty. -/
def batches (write : Write) : List (List Record) :=
  if write.records.isEmpty then [] else [write.records]

/-- The writes of a flow. -/
def ofFlow (writes : List Write) (flow : FlowId) : List Write :=
  writes.filter (·.event.flowId = flow)

/-- The checkpoint of a flow after its writes. -/
def last? (writes : List Write) : Option Checkpoint := writes.getLast?.map (·.checkpoint)

/-- A checkpoint that a flow has, or has had, after some of its writes. -/
def Past (writes : List Write) (found : Option Checkpoint) : Prop :=
  found = none ∨ ∃ write ∈ writes, found = some write.checkpoint

theorem Past.last (writes : List Write) : Past writes (last? writes) := by
  unfold last?
  cases found : writes.getLast? with
  | none => exact .inl rfl
  | some write => exact .inr ⟨write, List.mem_of_getLast? found, rfl⟩

theorem Past.append {more : List Write} {flow : FlowId} {found : Option Checkpoint}
    (past : Past (ofFlow writes flow) found) : Past (ofFlow (writes ++ more) flow) found := by
  refine past.imp_right fun ⟨write, member, same⟩ => ⟨write, ?_, same⟩
  rw [ofFlow, List.filter_append]
  exact List.mem_append_left _ member

/-- The writes of a flow have the versions 1, 2, 3, … in this order. -/
def Numbered (writes : List Write) : Prop :=
  writes.map (·.checkpoint.version) = List.range' 1 writes.length

namespace Numbered

theorem concat_iff {write : Write} : Numbered (writes ++ [write]) ↔
    Numbered writes ∧ write.checkpoint.version = writes.length + 1 := by
  rw [Numbered, List.map_append, List.length_append, List.length_singleton, List.range'_concat,
    List.map_singleton, Nat.one_mul, Nat.add_comm 1]
  constructor
  · intro same
    obtain ⟨earlier, last⟩ := List.append_inj' same rfl
    exact ⟨earlier, List.singleton_inj.1 last⟩
  · rintro ⟨earlier, last⟩
    exact congrArg₂ (· ++ [·]) earlier last

theorem concat (numbered : Numbered writes) {write : Write}
    (version : write.checkpoint.version = writes.length + 1) : Numbered (writes ++ [write]) :=
  concat_iff.2 ⟨numbered, version⟩

theorem version_last (numbered : Numbered writes) :
    ((last? writes).map (·.version)).getD 0 = writes.length := by
  rcases List.eq_nil_or_concat' writes with rfl | ⟨init, last, rfl⟩
  · rfl
  · simp [last?, (concat_iff.1 numbered).2]

theorem unique (numbered : Numbered writes) {first second : Write} (here : first ∈ writes)
    (there : second ∈ writes) (same : first.checkpoint.version = second.checkpoint.version) :
    first = second := by
  have nodup : (writes.map (·.checkpoint.version)).Nodup := by
    rw [numbered]
    exact List.nodup_range'
  exact List.inj_on_of_nodup_map nodup here there same

/-- Only the last checkpoint of a flow has the version of the last one. -/
theorem eq_last (numbered : Numbered writes) {found : Option Checkpoint} (past : Past writes found)
    (same : (found.map (·.version)).getD 0 = writes.length) : found = last? writes := by
  rcases past with rfl | ⟨write, member, rfl⟩
  · rw [List.eq_nil_of_length_eq_zero same.symm]
    rfl
  · have version := numbered.version_last
    cases last : writes.getLast? with
    | none =>
        rw [List.getLast?_eq_none_iff.1 last] at member
        cases member
    | some final =>
        rw [last?, last] at version ⊢
        rw [numbered.unique member (List.mem_of_getLast? last) (same.trans version.symm)]
        rfl

end Numbered

end Write

/-- A batch of records that was handed over to the publisher of a dispatcher. -/
structure Handover (δ : Type) where
  dispatcher : δ
  ticket : Nat
  records : List Record

namespace Handover

variable {δ π : Type}

/-- Hand a batch over to the publisher of its dispatcher. -/
def deliver (publishers : δ → Publisher π) (published : π) (handover : Handover δ) : π :=
  ((publishers handover.dispatcher).publish handover.records published).2

/-- The batches that were handed over under a ticket. -/
def batches (handed : List (Handover δ)) (ticket : Nat) : List (List Record) :=
  (handed.filter (·.ticket = ticket)).map (·.records)

theorem batches_append_of_ne {handed more : List (Handover δ)} {ticket : Nat}
    (others : ∀ handover ∈ more, handover.ticket ≠ ticket) :
    batches (handed ++ more) ticket = batches handed ticket := by
  have none : more.filter (·.ticket = ticket) = [] :=
    List.filter_eq_nil_iff.2 fun handover member => by simpa using others handover member
  simp only [batches, List.filter_append, none, List.append_nil]

end Handover

end DurableFlow
