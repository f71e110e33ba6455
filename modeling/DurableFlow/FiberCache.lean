import DurableFlow.Config
import DurableFlow.Fiber

/-! # Fibers kept in memory

A suspended fiber may be kept between two events, which saves reading its continuation. It is
handed out only for the version of the checkpoint it was parked at and to the execution context
that built it. Entries expire, and the oldest one makes room in a full cache. Times are
milliseconds of a clock that never goes back.
-/

namespace DurableFlow

structure CacheEntry (σ : Type) where
  fiber : Fiber σ
  version : Nat
  owner : Identity
  exec : ExecutionContext σ
  insertedAt : Nat

/-- Kept fibers by flow. A capacity of zero keeps nothing. -/
structure FiberCache (σ : Type) where
  capacity : Nat
  /-- How long an entry is good for, in milliseconds. -/
  ttl : Nat
  entries : SortedMap FlowId (CacheEntry σ)

namespace FiberCache

variable {σ : Type}

def new (capacity ttl : Nat) : FiberCache σ := ⟨capacity, ttl, {}⟩

def ofConfig (config : Config) : FiberCache σ :=
  new config.fiberCacheSize config.fiberCacheTtl.toNat

def disabled : FiberCache σ := new 0 0

def isFresh (cache : FiberCache σ) (now : Nat) (entry : CacheEntry σ) : Bool :=
  now - entry.insertedAt < cache.ttl

def oldest? : List (FlowId × CacheEntry σ) → Option FlowId
  | [] => none
  | entry :: rest =>
    some (rest.foldl (fun best e => if e.2.insertedAt < best.2.insertedAt then e else best) entry).1

/-- Keep a suspended fiber that was committed at a version. -/
def put (cache : FiberCache σ) (now version : Nat) (owner : Identity) (exec : ExecutionContext σ)
    (fiber : Fiber σ) : FiberCache σ :=
  if cache.capacity = 0 ∨ fiber.state ≠ .suspended then cache
  else
    let fresh := cache.entries.filter fun _ entry => cache.isFresh now entry
    let roomy :=
      if !fresh.contains fiber.flowId && cache.capacity ≤ fresh.size then
        match oldest? fresh.entries with
        | some id => fresh.erase id
        | none => fresh
      else fresh
    { cache with entries := roomy.insert fiber.flowId ⟨fiber, version, owner, exec, now⟩ }

/-- Remove the entry of a flow, and hand out its fiber if it fits version and context. -/
def take (cache : FiberCache σ) (now : Nat) (id : FlowId) (version : Nat)
    (exec : ExecutionContext σ) : Option (Fiber σ) × FiberCache σ :=
  match cache.entries.get? id with
  | none => (none, cache)
  | some entry =>
    let cache := { cache with entries := cache.entries.erase id }
    if entry.version = version ∧ entry.exec.serial = exec.serial ∧ cache.isFresh now entry then
      (some entry.fiber, cache)
    else (none, cache)

def remove (cache : FiberCache σ) (id : FlowId) : FiberCache σ :=
  { cache with entries := cache.entries.erase id }

/-- Carry the entry of a flow over a commit that did not run its fiber. -/
def advance (cache : FiberCache σ) (id : FlowId) (source target : Nat) : FiberCache σ :=
  match cache.entries.get? id with
  | none => cache
  | some entry =>
    if entry.version = source then
      { cache with entries := cache.entries.insert id { entry with version := target } }
    else cache.remove id

def evictOwner (cache : FiberCache σ) (owner : Identity) : FiberCache σ :=
  { cache with entries := cache.entries.filter fun _ entry => entry.owner ≠ owner }

/-- The number of entries, expired ones included. -/
def size (cache : FiberCache σ) : Nat := cache.entries.size

end FiberCache

end DurableFlow
