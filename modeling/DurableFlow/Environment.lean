import DurableFlow.Execution

/-! # Environments of identities

Every identity has an execution context, which is built when it is first needed and kept. While
its environment is in maintenance, an identity gets no context, and beginning maintenance drops the
one that was kept. Building takes time, so maintenance may begin or end meanwhile: `acquireDuring`
is told what happened while the context was built.
-/

namespace DurableFlow

inductive EnvironmentError where
  | inMaintenance (owner : Identity)
  | unavailable (reason : String)
  /-- The context cannot be built at all. -/
  | construction (owner : Identity) (reason : String)
  deriving DecidableEq, Repr

namespace EnvironmentError

def message : EnvironmentError → String
  | .inMaintenance owner => "execution environment of " ++ owner.text ++ " is in maintenance"
  | .unavailable reason => "execution environment unavailable: " ++ reason
  | .construction owner reason =>
    "execution environment of " ++ owner.text ++ " could not be constructed: " ++ reason

def isTransient : EnvironmentError → Bool
  | .construction _ _ => false
  | _ => true

end EnvironmentError

structure Environments (σ : Type) where
  /-- How the context of an identity is built, given its serial number. -/
  factory : Nat → Identity → Except String (ExecutionContext σ)
  /-- How often a context was built, or the attempt made. -/
  built : Nat
  contexts : SortedMap Identity (ExecutionContext σ)
  maintenance : SortedMap Identity Unit

namespace Environments

variable {σ : Type}

def new (factory : Nat → Identity → Except String (ExecutionContext σ)) : Environments σ :=
  ⟨factory, 0, {}, {}⟩

/-- Fail while the environment of an identity is in maintenance. -/
def validate (envs : Environments σ) (owner : Identity) : Except EnvironmentError Unit :=
  if envs.maintenance.contains owner then .error (.inMaintenance owner) else .ok ()

def beginMaintenance (envs : Environments σ) (owner : Identity) : Environments σ :=
  { envs with
    maintenance := envs.maintenance.insert owner ()
    contexts := envs.contexts.erase owner }

def endMaintenance (envs : Environments σ) (owner : Identity) : Environments σ :=
  { envs with maintenance := envs.maintenance.erase owner }

def build (envs : Environments σ) (owner : Identity) :
    Except EnvironmentError (ExecutionContext σ) × Environments σ :=
  ((envs.factory envs.built owner).mapError (.construction owner ·),
    { envs with built := envs.built + 1 })

/-- Keep a context that was built, unless maintenance has begun or another one is kept already,
which is then used instead. -/
def keep (envs : Environments σ) (owner : Identity) (exec : ExecutionContext σ) :
    Except EnvironmentError (ExecutionContext σ) × Environments σ :=
  match envs.validate owner with
  | .error error => (.error error, envs)
  | .ok () =>
    match envs.contexts.get? owner with
    | some kept => (.ok kept, envs)
    | none => (.ok exec, { envs with contexts := envs.contexts.insert owner exec })

/-- The context of an identity; `meanwhile` happens while it is built, if it has to be. -/
def acquireDuring (meanwhile : Environments σ → Environments σ) (envs : Environments σ)
    (owner : Identity) : Except EnvironmentError (ExecutionContext σ) × Environments σ :=
  match envs.validate owner with
  | .error error => (.error error, envs)
  | .ok () =>
    match envs.contexts.get? owner with
    | some kept => (.ok kept, envs)
    | none =>
      match envs.build owner with
      | (.error error, envs) => (.error error, meanwhile envs)
      | (.ok exec, envs) => (meanwhile envs).keep owner exec

def acquire (envs : Environments σ) (owner : Identity) :
    Except EnvironmentError (ExecutionContext σ) × Environments σ :=
  envs.acquireDuring id owner

end Environments

end DurableFlow
