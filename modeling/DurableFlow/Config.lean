import DurableFlow.Json.Fields
import DurableFlow.Timestamp

/-! # Configuration

Delays are given as unsigned 64-bit numbers of milliseconds and taken as signed ones of the same
bits. The delay before a retry grows by a factor from one retry to the next, up to a limit; it is
computed in doubles.
-/

namespace DurableFlow

/-- When and how often a transient failure is tried again. -/
structure RetryPolicy where
  maxRetries : Nat
  initialBackoff : UInt64
  multiplier : Float
  /-- The longest delay, in milliseconds. -/
  maxBackoff : UInt64

namespace RetryPolicy

/-- Five retries, from one second to one minute, doubling. -/
def default : RetryPolicy := ⟨5, 1000, 2.0, 60000⟩

/-- Multiply `result` by `base` to the power of `exponent` by repeated squaring. -/
def power (result base : Float) (exponent : Nat) : Float :=
  let result := if exponent % 2 = 1 then result * base else result
  if exponent < 2 then result else power result (base * base) (exponent / 2)
termination_by exponent

/-- The delay before a retry, in milliseconds; retries are counted from one. A delay that is not a
whole number is cut off, and one that is out of range is the nearest in range. -/
def backoff (policy : RetryPolicy) (attempt : Nat) : Int :=
  let factor := if 1.0 < policy.multiplier then policy.multiplier else 1.0
  let delay := policy.initialBackoff.toFloat * power 1.0 factor (min (attempt - 1) 63)
  let limit := policy.maxBackoff.toFloat
  (if delay < limit then delay else limit).toModel.toInt64.toInt

def ofJson? (doc : Json) : Option RetryPolicy := do
  let [maxRetries, initialBackoff, multiplier, maxBackoff] ← doc.fields?
    ["max_retries", "initial_backoff_ms", "backoff_multiplier", "max_backoff_ms"] | none
  return {
    maxRetries := ← maxRetries.withDefault default.maxRetries (Json.nat? Json.max32)
    initialBackoff := ← initialBackoff.withDefault default.initialBackoff fun j =>
      (j.nat? Json.max64).map UInt64.ofNat
    multiplier := ← multiplier.withDefault default.multiplier Json.float?
    maxBackoff := ← maxBackoff.withDefault default.maxBackoff fun j =>
      (j.nat? Json.max64).map UInt64.ofNat }

end RetryPolicy

structure Config where
  /-- How many flows may run at the same time; zero counts as one. -/
  schedulerPoolSize : Nat
  retry : RetryPolicy
  /-- How long a flow may wait for session items, in milliseconds. -/
  suspensionTimeout : Option UInt64
  /-- How long the checkpoint of a flow that is over is kept, in milliseconds. -/
  cleanupDelay : UInt64
  /-- How many suspended fibers are kept in memory. -/
  fiberCacheSize : Nat
  /-- How long a suspended fiber is kept in memory, in milliseconds. -/
  fiberCacheTtl : UInt64

namespace Config

/-- Eight flows at once, no timeout, a week until cleanup, ten fibers for five minutes. -/
def default : Config where
  schedulerPoolSize := 8
  retry := .default
  suspensionTimeout := none
  cleanupDelay := 604800000
  fiberCacheSize := 10
  fiberCacheTtl := 300000

instance : Inhabited Config := ⟨default⟩

def poolSize (config : Config) : Nat := max config.schedulerPoolSize 1

def delay (millis : UInt64) : Except TimeError Int := duration millis.toInt64.toInt

/-- The time a session wait may take, if it is limited. -/
def suspensionTimeout? (config : Config) : Except TimeError (Option Int) :=
  match config.suspensionTimeout with
  | none => .ok none
  | some millis => (delay millis).map some

/-- The deadline of a session wait that begins now. -/
def deadline (config : Config) (now : Timestamp) : Except TimeError (Option Timestamp) := do
  match ← config.suspensionTimeout? with
  | none => return none
  | some millis => return some (← now.add millis)

/-- When the checkpoint of a flow that is over now may be removed. -/
def expiry (config : Config) (now : Timestamp) : Except TimeError Timestamp := do
  now.add (← delay config.cleanupDelay)

/-- A delay set in the program is not negative. -/
def clamp (millis : Int) : UInt64 := UInt64.ofNat millis.toNat

def withPoolSize (config : Config) (size : Nat) : Config := { config with schedulerPoolSize := size }

def withRetry (config : Config) (retry : RetryPolicy) : Config := { config with retry }

def withSuspensionTimeout (config : Config) (millis : Int) : Config :=
  { config with suspensionTimeout := some (clamp millis) }

def withCleanupDelay (config : Config) (millis : Int) : Config :=
  { config with cleanupDelay := clamp millis }

def withFiberCache (config : Config) (size : Nat) (millis : Int) : Config :=
  { config with fiberCacheSize := size, fiberCacheTtl := clamp millis }

def ofJson? (doc : Json) : Option Config := do
  let [poolSize, retry, suspensionTimeout, cleanupDelay, cacheSize, cacheTtl] ← doc.fields?
    ["scheduler_pool_size", "retry", "suspension_timeout_ms", "cleanup_delay_ms",
      "fiber_cache_size", "fiber_cache_ttl_ms"] | none
  let word := fun (j : Json) => (j.nat? Json.max64).map UInt64.ofNat
  return {
    schedulerPoolSize := ← poolSize.withDefault default.schedulerPoolSize (Json.nat? Json.max64)
    retry := ← retry.withDefault default.retry RetryPolicy.ofJson?
    suspensionTimeout := ← suspensionTimeout.withDefault none fun j =>
      match j with
      | .null => some none
      | _ => (word j).map some
    cleanupDelay := ← cleanupDelay.withDefault default.cleanupDelay word
    fiberCacheSize := ← cacheSize.withDefault default.fiberCacheSize (Json.nat? Json.max64)
    fiberCacheTtl := ← cacheTtl.withDefault default.fiberCacheTtl word }

end Config

/-- The current configuration and how often it was replaced. -/
structure ConfigSource where
  current : Config
  revision : Nat

namespace ConfigSource

def new (config : Config) : ConfigSource := ⟨config, 0⟩

def update (source : ConfigSource) (config : Config) : ConfigSource := ⟨config, source.revision + 1⟩

/-- Whether a subscriber that last looked at a revision has missed a replacement. -/
def changedSince (source : ConfigSource) (seen : Nat) : Bool := seen < source.revision

end ConfigSource

end DurableFlow
