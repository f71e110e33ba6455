import DurableFlow.Environment
import DurableFlow.FiberCache

/-! # Hosts

A host is where fibers run: the environments of the identities, the fibers kept in memory, and the
world that flow logic can observe and change. None of it is durable.
-/

namespace DurableFlow

structure Host (σ : Type) where
  environments : Environments σ
  cache : FiberCache σ
  world : σ

namespace Host

variable {σ : Type}

/-- Put the environment of an identity into maintenance. Its kept fibers go with its context. -/
def beginMaintenance (host : Host σ) (owner : Identity) : Host σ :=
  { host with
    environments := host.environments.beginMaintenance owner
    cache := host.cache.evictOwner owner }

/-- The context of an identity. If it has to be built, its environment is put into maintenance
meanwhile if `disturbed`. -/
def acquire (host : Host σ) (owner : Identity) (disturbed : Bool) :
    Except EnvironmentError (ExecutionContext σ) × Host σ :=
  let meanwhile := if disturbed then (·.beginMaintenance owner) else id
  let (result, environments) := host.environments.acquireDuring meanwhile owner
  let built := host.environments.built < environments.built
  let cache := if built && disturbed then host.cache.evictOwner owner else host.cache
  (result, { host with environments, cache })

def endMaintenance (host : Host σ) (owner : Identity) : Host σ :=
  { host with environments := host.environments.endMaintenance owner }

end Host

end DurableFlow
