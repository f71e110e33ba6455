import DurableFlow.Host
import DurableFlow.Samples.Environments

/-! # Environments for trying things out

Contexts are built for the sample flows, and it is noted for whom. Maintenance can be made to begin
while a context is built. Contexts are numbered in the order in which they are first handed out.
-/

namespace DurableFlow.Samples

/-- A host and what was noted about its environments. -/
structure Bench where
  host : Host Nat
  /-- For whom a context was built, or the attempt made. -/
  built : List Identity
  /-- The serial numbers of the contexts that were handed out. -/
  seen : List Nat
  /-- Whether maintenance begins while the next context is built. -/
  disturbed : Bool

namespace Bench

def new (names : TypeNames) (broken : List String) : Bench :=
  ⟨⟨Environments.new (factory names broken), FiberCache.ofConfig Config.default, 0⟩, [], [], false⟩

def acquire (bench : Bench) (owner : Identity) :
    Except EnvironmentError (ExecutionContext Nat) × Bench :=
  let (result, host) := bench.host.acquire owner bench.disturbed
  let called := bench.host.environments.built < host.environments.built
  let seen := match result with
    | .ok exec => if bench.seen.contains exec.serial then bench.seen else bench.seen ++ [exec.serial]
    | .error _ => bench.seen
  (result, {
    host
    built := if called then bench.built ++ [owner] else bench.built
    seen
    disturbed := bench.disturbed && !called })

def number (bench : Bench) (exec : ExecutionContext Nat) : Nat := bench.seen.idxOf exec.serial

end Bench

end DurableFlow.Samples
