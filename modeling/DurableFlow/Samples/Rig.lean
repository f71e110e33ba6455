import DurableFlow.Engine
import DurableFlow.Faults
import DurableFlow.Samples.Environments

/-! # An engine for trying things out

The engine runs the sample flows on services that fail on demand. One identity has no environment.
-/

namespace DurableFlow.Samples

abbrev Rig := Engine Nat FaultyStore FaultyPublisher

def services : Services FaultyStore FaultyPublisher :=
  ⟨FaultyStore.service, FaultyPublisher.service⟩

def storeFault (kind : String) : StoreError :=
  match kind with
  | "unavailable" => .unavailable "db down"
  | "serialization" => .serialization "bad row"
  | _ => .backend "disk full"

def saveFault (kind : String) : SaveFault :=
  match kind with
  | "steal" => .steal
  | "vanish" => .vanish
  | _ => .fail (storeFault kind)

def publishFault (kind : String) : PublishError :=
  if kind = "rejected" then .rejected "too large" else .unavailable "broker down"

namespace Rig

/-- An engine that has nothing in memory, over a store. -/
def new (names : TypeNames) (config : Config) (now : Timestamp) (store : FaultyStore)
    (budget : Nat) : Rig :=
  Engine.new config now 1000000
    ⟨⟨.new (factory names ["O=NoContext"]), .ofConfig config, budget⟩, store, .new⟩

def store (rig : Rig) : FaultyStore := rig.site.stored

def onStore (rig : Rig) (change : FaultyStore → FaultyStore) : Rig :=
  rig.modifySite fun site => { site with stored := change site.stored }

def setRows (rig : Rig) (stored : Store) : Rig := rig.onStore fun store => { store with stored }

def onHost (rig : Rig) (change : Host Nat → Host Nat) : Rig :=
  rig.modifySite fun site => { site with host := change site.host }

def onPublisher (rig : Rig) (change : FaultyPublisher → FaultyPublisher) : Rig :=
  rig.modifySite fun site => { site with published := change site.published }

def arm? (rig : Rig) (use kind : String) : Option Rig :=
  match use with
  | "load" => some (rig.onStore fun store => { store with loadFault := some (storeFault kind) })
  | "save" => some (rig.onStore fun store => { store with saveFault := some (saveFault kind) })
  | "publish" =>
    some (rig.onPublisher fun publisher => { publisher with fault := some (publishFault kind) })
  | _ => none

/-- Lose all that is in memory. The clocks, the configuration and the world stay. -/
def restart (names : TypeNames) (rig : Rig) : Rig :=
  let fresh := new names rig.source.current rig.now rig.store rig.site.host.world
  { fresh with instant := rig.instant }

def advance (rig : Rig) (millis : Nat) : Except TimeError Rig := do
  return { rig with now := ← rig.now.add millis, instant := rig.instant + millis }

/-- The records of all flows, those of a flow in the order in which they were published. -/
def records (rig : Rig) : List Record :=
  rig.site.published.published.mergeSort fun a b => (compare a.flowId b.flowId).isLE

end Rig

end DurableFlow.Samples
