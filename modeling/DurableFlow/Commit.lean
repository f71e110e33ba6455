import DurableFlow.Host.Run

/-! # What an event leads to

`Plan.ofEvent` is all that lies between loading the checkpoint of a flow and writing it: the event
does its part, and the fiber is run if need be. The result says what is to be written over which
version, and what is to be published once it is written.
-/

namespace DurableFlow

def Decision.runs : Decision → Bool
  | .skip => false
  | _ => true

/-- What handling an event wants to write. -/
structure Commit (σ : Type) where
  checkpoint : Checkpoint
  /-- The version that the checkpoint is to replace. -/
  expected : Nat
  /-- What is to be published once it is written. -/
  records : List Record
  /-- Whether the fiber was run. -/
  ran : Bool
  suspended : Option (Hosted.Suspended σ)

namespace Commit

variable {σ : Type}

/-- Keep the fiber of a flow whose checkpoint was written at a version, carry a fiber that was not
run over to that version, and drop any other. -/
def settleCache (commit : Commit σ) (version instant : Nat) (cache : FiberCache σ) :
    FiberCache σ :=
  let cp := commit.checkpoint
  match commit.suspended with
  | some suspended => cache.put instant version cp.owner suspended.exec suspended.fiber
  | none =>
    if commit.ran || cp.isTerminal then cache.remove cp.flowId
    else cache.advance cp.flowId commit.expected version

end Commit

/-- What is to be done about an event. -/
inductive Plan (σ : Type) where
  | discard (reason : Refusal)
  | commit (commit : Commit σ)

namespace Plan

variable {σ : Type}

/-- Let an event do its part on a checkpoint that applies to it, and run the fiber. -/
def ofPrepared (settings : Settings) (expected : Nat) (prepared : Prepared) :
    Hosted σ (Plan σ) := do
  let (draft, suspended) ← Hosted.follow settings prepared
  return .commit {
    checkpoint := { draft.checkpoint with updatedAt := settings.now }
    expected
    records := draft.records
    ran := prepared.decision.runs
    suspended }

/-- What is to be done about an event, given the checkpoint that is stored. -/
def ofEvent (settings : Settings) (event : Event) (loaded : Option Checkpoint) :
    Hosted σ (Plan σ) :=
  match loaded.filter Checkpoint.isTerminal with
  | some cp => return .discard (.alreadyOver cp.status)
  | none =>
    match Handler.prepare event.flowId event.payload settings.config settings.now loaded with
    | .error (.refused reason) => return .discard reason
    | .error (.time error) => throw (.time error)
    | .ok prepared => ofPrepared settings ((loaded.map (·.version)).getD 0) prepared

end Plan

end DurableFlow
