import DurableFlow.Commit

/-! # Handling an event

An event is handled in steps: load the checkpoint, plan, write the checkpoint, and publish the
records. Nothing leaves the host before the conditional write has succeeded, so an event that fails
or loses a race leaves no trace in the store and publishes nothing.
-/

namespace DurableFlow

/-- What the engine needs from outside: a store and a publisher, with internal states `τ` and `π`. -/
structure Services (τ π : Type) where
  store : CheckpointStore τ
  publisher : Publisher π

/-- A host with the states of the services it uses. -/
structure Site (σ τ π : Type) where
  host : Host σ
  stored : τ
  published : π

/-- A computation on a site that may stop early; what it did to the site stays. -/
abbrev Sited (σ τ π α : Type) := ExceptT Stop (StateM (Site σ τ π)) α

namespace Services

variable {σ τ π α : Type} (services : Services τ π)

def onHost (computation : Hosted σ α) : Sited σ τ π α := do
  let site ← get
  let (result, host) := computation.run.run site.host
  set { site with host }
  ExceptT.mk (pure result)

def load (id : FlowId) : Sited σ τ π (Option Checkpoint) := do
  let site ← get
  let (result, stored) := services.store.load id site.stored
  set { site with stored }
  ExceptT.mk (pure (result.mapError fun error => .error (.store error)))

/-- Write a checkpoint over the version it is to replace. -/
def save (cp : Checkpoint) (expected : Nat) : Sited σ τ π SaveOutcome := do
  let site ← get
  let (result, stored) := services.store.save cp expected site.stored
  set { site with stored }
  ExceptT.mk (pure (result.mapError fun error => .error (.store error)))

/-- Publish the records of a flow, if there are any. -/
def publish (id : FlowId) (records : List Record) : Sited σ τ π Unit := do
  if records.isEmpty then return ()
  let site ← get
  let (result, published) := services.publisher.publish records site.published
  set { site with published }
  ExceptT.mk (pure (result.mapError fun error => .error (.publish id error)))

/-- Write what an event has led to, and publish the records that go with it. -/
def commit (settings : Settings) (id : FlowId) (commit : Commit σ) :
    Sited σ τ π ProcessingOutcome := do
  match ← services.save commit.checkpoint commit.expected with
  | .conflict current => throw (.error (.conflict id commit.expected current))
  | .saved version =>
    modify fun site => { site with host := { site.host with
      cache := commit.settleCache version settings.instant site.host.cache } }
    services.publish id commit.records
    return .committed id version commit.checkpoint.status

def handle (settings : Settings) (event : Event) : Sited σ τ π ProcessingOutcome := do
  let loaded ← services.load event.flowId
  match ← onHost (Plan.ofEvent settings event loaded) with
  | .discard reason => return .discarded event.flowId reason
  | .commit commit => services.commit settings event.flowId commit

end Services

end DurableFlow
