import DurableFlow.Publisher
import DurableFlow.Store

/-! # Services that fail on demand

A fault is armed and strikes the next time its service is used. A store can also lose a race or its
checkpoint just before a write, or lose the continuations of what it loads.
-/

namespace DurableFlow

inductive SaveFault where
  | fail (error : StoreError)
  /-- Another writer is faster by one version. -/
  | steal
  /-- The stored checkpoint disappears first. -/
  | vanish
  deriving DecidableEq, Repr

structure FaultyStore where
  stored : Store
  loadFault : Option StoreError
  saveFault : Option SaveFault
  /-- Whether checkpoints are loaded without their continuation. -/
  forgetful : Bool

namespace FaultyStore

def new : FaultyStore := ⟨{}, none, none, false⟩

def load (id : FlowId) (store : FaultyStore) :
    Except StoreError (Option Checkpoint) × FaultyStore :=
  match store.loadFault with
  | some error => (.error error, { store with loadFault := none })
  | none =>
    let found := store.stored.get? id
    if store.forgetful then (.ok (found.map fun cp => { cp with continuation := none }), store)
    else (.ok found, store)

/-- What another writer leaves who is faster: the stored checkpoint at its next version or, if
there is none, the one that is being written. -/
def overtaken (store : Store) (cp : Checkpoint) : Store :=
  let cp := (store.get? cp.flowId).getD cp
  (store.save cp cp.version).2

def save (cp : Checkpoint) (expected : Nat) (store : FaultyStore) :
    Except StoreError SaveOutcome × FaultyStore :=
  let calm := { store with saveFault := none }
  let write := fun (stored : Store) =>
    let (outcome, stored) := stored.save cp expected
    (.ok outcome, { calm with stored })
  match store.saveFault with
  | none => write store.stored
  | some (.fail error) => (.error error, calm)
  | some .steal => write (overtaken store.stored cp)
  | some .vanish => write (store.stored.erase cp.flowId)

def service : CheckpointStore FaultyStore := ⟨load, save⟩

end FaultyStore

structure FaultyPublisher where
  published : List Record
  fault : Option PublishError

namespace FaultyPublisher

def new : FaultyPublisher := ⟨[], none⟩

def publish (records : List Record) (publisher : FaultyPublisher) :
    Except PublishError Unit × FaultyPublisher :=
  match publisher.fault with
  | some error => (.error error, { publisher with fault := none })
  | none => (.ok (), { publisher with published := publisher.published ++ records })

def service : Publisher FaultyPublisher := ⟨publish⟩

end FaultyPublisher

end DurableFlow
