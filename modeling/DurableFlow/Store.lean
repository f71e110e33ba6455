import DurableFlow.Checkpoint

/-! # Stores of checkpoints

A store keeps one checkpoint per flow. Writing is conditional: the writer says which version it
expects to replace, and loses if the stored one is another or is that of a flow that is over. A
stored checkpoint carries the version after the one it replaced.
-/

namespace DurableFlow

inductive StoreError where
  | serialization (reason : String)
  | unavailable (reason : String)
  | backend (reason : String)
  deriving DecidableEq, Repr

def StoreError.message : StoreError → String
  | .serialization reason => "serialization error: " ++ reason
  | .unavailable reason => "store unavailable: " ++ reason
  | .backend reason => "store error: " ++ reason

inductive SaveOutcome where
  | saved (version : Nat)
  /-- Another writer came first; with the stored version, if there is a checkpoint. -/
  | conflict (current : Option Nat)
  deriving DecidableEq, Repr

/-- What the engine needs of a store with the internal state `τ`. -/
structure CheckpointStore (τ : Type) where
  load : FlowId → τ → Except StoreError (Option Checkpoint) × τ
  /-- Write a checkpoint that replaces the expected version. -/
  save : Checkpoint → Nat → τ → Except StoreError SaveOutcome × τ

abbrev Store := SortedMap FlowId Checkpoint

namespace Store

/-- The version stored for a flow; zero if there is none. -/
def version (store : Store) (id : FlowId) : Nat := ((store.get? id).map (·.version)).getD 0

/-- Whether a checkpoint may be written over the expected version. -/
def admits (store : Store) (id : FlowId) (expected : Nat) : Bool :=
  match store.get? id with
  | none => expected = 0
  | some current => current.version = expected && !current.isTerminal

/-- Write a checkpoint if the expected version is stored and the flow is not over. -/
def save (store : Store) (cp : Checkpoint) (expected : Nat) : SaveOutcome × Store :=
  if store.admits cp.flowId expected then
    (.saved (expected + 1), store.insert cp.flowId { cp with version := expected + 1 })
  else (.conflict ((store.get? cp.flowId).map (·.version)), store)

/-- The store in memory as the engine uses it. It never fails. -/
def inMemory : CheckpointStore Store where
  load id store := (.ok (store.get? id), store)
  save cp expected store :=
    let (outcome, store) := store.save cp expected
    (.ok outcome, store)

end Store

end DurableFlow
