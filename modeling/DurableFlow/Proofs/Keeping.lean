import DurableFlow.FiberCache
import DurableFlow.Proofs.Maps

/-! # What a cache of fibers hands out

Each call of a cache takes effect at one point in time, so a list of calls is all that can happen to
it. Whatever is kept then was put in by a call that still counts: nothing has replaced or withdrawn it
since, and its version was carried along without a gap, `Kept`. The ways in which a call can treat an
entry are those of `Fate`.
-/

namespace DurableFlow

variable {σ : Type}

/-- What is asked of a cache of fibers. -/
inductive CacheCall (σ : Type) where
  | put (version : Nat) (owner : Identity) (exec : ExecutionContext σ) (fiber : Fiber σ)
  | take (id : FlowId) (version : Nat) (exec : ExecutionContext σ)
  | remove (id : FlowId)
  | advance (id : FlowId) (source target : Nat)
  | evictOwner (owner : Identity)

/-- A call and what the clock says then. -/
structure TimedCall (σ : Type) where
  instant : Nat
  call : CacheCall σ

namespace CacheCall

/-- A suspended fiber of a flow is put in. -/
def Parks (call : CacheCall σ) (id : FlowId) : Prop :=
  match call with
  | .put _ _ _ fiber => fiber.state = .suspended ∧ fiber.flowId = id
  | _ => False

/-- Whatever is kept for a flow of an owner goes. -/
def Withdraws (call : CacheCall σ) (id : FlowId) (owner : Identity) : Prop :=
  match call with
  | .take other _ _ => other = id
  | .remove other => other = id
  | .evictOwner other => other = owner
  | _ => False

/-- The versions between which an entry of a flow is to be carried. -/
def advance? (id : FlowId) : CacheCall σ → Option (Nat × Nat)
  | .advance other source target => if other = id then some (source, target) else none
  | _ => none

end CacheCall

/-- Steps that lead from one version to another, each from where the one before has led. -/
inductive Carries (first : Nat) : List (Nat × Nat) → Nat → Prop where
  | stay : Carries first [] first
  | step {steps : List (Nat × Nat)} {source : Nat} (carries : Carries first steps source)
      (target : Nat) : Carries first (steps ++ [(source, target)]) target

namespace FiberCache

/-- Let a call take effect. -/
def after (cache : FiberCache σ) (timed : TimedCall σ) : FiberCache σ :=
  match timed.call with
  | .put version owner exec fiber => cache.put timed.instant version owner exec fiber
  | .take id version exec => (cache.take timed.instant id version exec).2
  | .remove id => cache.remove id
  | .advance id source target => cache.advance id source target
  | .evictOwner owner => cache.evictOwner owner

/-- Let one call take effect after another. -/
def run (cache : FiberCache σ) (calls : List (TimedCall σ)) : FiberCache σ := calls.foldl after cache

/-- An entry for a flow is that of the last suspended fiber of the flow that was put in, which nothing
has withdrawn since, and its version is where the later steps of the flow have led. -/
structure Kept (calls : List (TimedCall σ)) (id : FlowId) (entry : CacheEntry σ) : Prop where
  suspended : entry.fiber.state = .suspended
  flowId : entry.fiber.flowId = id
  parked : ∃ earlier version since,
    calls = earlier ++
      ⟨entry.insertedAt, .put version entry.owner entry.exec entry.fiber⟩ :: since ∧
    (∀ timed ∈ since, ¬ timed.call.Parks id ∧ ¬ timed.call.Withdraws id entry.owner) ∧
    Carries version (since.filterMap (·.call.advance? id)) entry.version

/-- What a call makes of what a cache holds for a flow. -/
inductive Fate (cache : FiberCache σ) (timed : TimedCall σ) (id : FlowId) :
    Option (CacheEntry σ) → Option (CacheEntry σ) → Prop where
  | missing : Fate cache timed id none none
  | spared {entry : CacheEntry σ} (unparked : ¬ timed.call.Parks id)
      (unwithdrawn : ¬ timed.call.Withdraws id entry.owner)
      (steady : timed.call.advance? id = none) : Fate cache timed id (some entry) (some entry)
  | parked {before : Option (CacheEntry σ)} {version : Nat} {owner : Identity}
      {exec : ExecutionContext σ} {fiber : Fiber σ}
      (asked : timed.call = .put version owner exec fiber) (suspended : fiber.state = .suspended)
      (mine : fiber.flowId = id) :
      Fate cache timed id before (some ⟨fiber, version, owner, exec, timed.instant⟩)
  | carried {entry : CacheEntry σ} {target : Nat}
      (asked : timed.call = .advance id entry.version target) :
      Fate cache timed id (some entry) (some { entry with version := target })
  | mismatched {entry : CacheEntry σ} {source target : Nat}
      (asked : timed.call = .advance id source target) (differs : entry.version ≠ source) :
      Fate cache timed id (some entry) none
  | withdrawn {entry : CacheEntry σ} (withdraws : timed.call.Withdraws id entry.owner) :
      Fate cache timed id (some entry) none
  | expired {entry : CacheEntry σ} {other : FlowId} (parks : timed.call.Parks other)
      (late : cache.ttl ≤ timed.instant - entry.insertedAt) : Fate cache timed id (some entry) none
  /-- A fiber of a flow that has no entry is put into a full cache, which drops an oldest entry. -/
  | crowdedOut {entry : CacheEntry σ} {other : FlowId} (parks : timed.call.Parks other)
      (new : cache.entries.contains other = false) (full : cache.size = cache.capacity)
      (oldest : ∀ flow kept, cache.entries.get? flow = some kept →
        entry.insertedAt ≤ kept.insertedAt) : Fate cache timed id (some entry) none

namespace Kept

variable {calls : List (TimedCall σ)} {id : FlowId} {entry : CacheEntry σ} {timed : TimedCall σ}

theorem extend (kept : Kept calls id entry) (unparked : ¬ timed.call.Parks id)
    (unwithdrawn : ¬ timed.call.Withdraws id entry.owner) {target : Nat}
    (leads : ∀ {first : Nat} {steps : List (Nat × Nat)}, Carries first steps entry.version →
      Carries first (steps ++ (timed.call.advance? id).toList) target) :
    Kept (calls ++ [timed]) id { entry with version := target } := by
  obtain ⟨earlier, version, since, split, undisturbed, carries⟩ := kept.parked
  refine ⟨kept.suspended, kept.flowId, earlier, version, since ++ [timed], by simp [split], ?_, ?_⟩
  · intro other member
    rcases List.mem_append.1 member with before | last
    · exact undisturbed other before
    · cases List.mem_singleton.1 last
      exact ⟨unparked, unwithdrawn⟩
  · have next : [timed].filterMap (·.call.advance? id) = (timed.call.advance? id).toList := by
      cases step : timed.call.advance? id <;> simp [step]
    rw [List.filterMap_append, next]
    exact leads carries

theorem spared (kept : Kept calls id entry) (unparked : ¬ timed.call.Parks id)
    (unwithdrawn : ¬ timed.call.Withdraws id entry.owner) (steady : timed.call.advance? id = none) :
    Kept (calls ++ [timed]) id entry :=
  kept.extend unparked unwithdrawn fun carries => by simpa [steady] using carries

theorem carried (kept : Kept calls id entry) {target : Nat}
    (asked : timed.call = .advance id entry.version target) :
    Kept (calls ++ [timed]) id { entry with version := target } :=
  kept.extend (by simp [asked, CacheCall.Parks]) (by simp [asked, CacheCall.Withdraws])
    fun carries => by simpa [asked, CacheCall.advance?] using carries.step target

theorem of_put {version : Nat} {owner : Identity} {exec : ExecutionContext σ} {fiber : Fiber σ}
    (asked : timed.call = .put version owner exec fiber) (suspended : fiber.state = .suspended)
    (mine : fiber.flowId = id) :
    Kept (calls ++ [timed]) id ⟨fiber, version, owner, exec, timed.instant⟩ := by
  refine ⟨suspended, mine, calls, version, [], ?_, by simp, .stay⟩
  rw [← asked]

end Kept

theorem foldl_oldest (rest : List (FlowId × CacheEntry σ)) (first : FlowId × CacheEntry σ) :
    let best := rest.foldl
      (fun best e => if e.2.insertedAt < best.2.insertedAt then e else best) first
    best ∈ first :: rest ∧ ∀ other ∈ first :: rest, best.2.insertedAt ≤ other.2.insertedAt := by
  induction rest generalizing first with
  | nil => simp
  | cons next rest ih =>
      simp only [List.foldl_cons, List.forall_mem_cons]
      split
      next older =>
        obtain ⟨member, below⟩ := ih next
        rw [List.forall_mem_cons] at below
        exact ⟨List.mem_cons_of_mem _ member, by omega, below⟩
      next younger =>
        obtain ⟨member, below⟩ := ih first
        rw [List.forall_mem_cons] at below
        refine ⟨?_, below.1, by omega, below.2⟩
        rcases List.mem_cons.1 member with here | later
        · exact List.mem_cons.2 (.inl here)
        · exact List.mem_cons_of_mem _ (List.mem_cons_of_mem _ later)

theorem oldest?_eq_none {entries : List (FlowId × CacheEntry σ)} (h : oldest? entries = none) :
    entries = [] := by
  cases entries with
  | nil => rfl
  | cons first rest => cases h

theorem oldest?_eq_some {entries : List (FlowId × CacheEntry σ)} {id : FlowId}
    (h : oldest? entries = some id) :
    ∃ entry, (id, entry) ∈ entries ∧ ∀ other ∈ entries, entry.insertedAt ≤ other.2.insertedAt := by
  cases entries with
  | nil => cases h
  | cons first rest =>
      obtain ⟨member, below⟩ := foldl_oldest rest first
      cases h
      exact ⟨_, member, below⟩

/-- The entries that are good at some time. -/
def fresh (cache : FiberCache σ) (now : Nat) : SortedMap FlowId (CacheEntry σ) :=
  cache.entries.filter fun _ entry => cache.isFresh now entry

/-- How room is made for a fiber among entries. -/
inductive Roomy (entries : SortedMap FlowId (CacheEntry σ)) (capacity : Nat) (id : FlowId) :
    SortedMap FlowId (CacheEntry σ) → Prop where
  | there (room : entries.contains id ∨ entries.size < capacity) : Roomy entries capacity id entries
  | made {oldest : FlowId} {entry : CacheEntry σ} (new : entries.contains id = false)
      (full : capacity ≤ entries.size) (found : entries.get? oldest = some entry)
      (least : ∀ flow kept, entries.get? flow = some kept → entry.insertedAt ≤ kept.insertedAt) :
      Roomy entries capacity id (entries.erase oldest)

theorem put_cases (cache : FiberCache σ) (now version : Nat) (owner : Identity)
    (exec : ExecutionContext σ) (fiber : Fiber σ) :
    (cache.capacity = 0 ∨ fiber.state ≠ .suspended) ∧
        cache.put now version owner exec fiber = cache ∨
      fiber.state = .suspended ∧ ∃ roomy, Roomy (cache.fresh now) cache.capacity fiber.flowId roomy ∧
        cache.put now version owner exec fiber =
          { cache with entries := roomy.insert fiber.flowId ⟨fiber, version, owner, exec, now⟩ } := by
  unfold put
  split
  next idle => exact .inl ⟨idle, rfl⟩
  next parks =>
    rw [not_or, not_not] at parks
    obtain ⟨some, suspended⟩ := parks
    refine .inr ⟨suspended, _, ?_, rfl⟩
    rw [← fresh]
    split
    next crowded =>
      simp only [Bool.and_eq_true, Bool.not_eq_true', decide_eq_true_eq] at crowded
      obtain ⟨new, full⟩ := crowded
      split
      next id oldest =>
        obtain ⟨entry, member, least⟩ := oldest?_eq_some oldest
        exact .made new full (SortedMap.mem_entries.1 member) fun flow kept found =>
          least (flow, kept) (SortedMap.mem_entries.2 found)
      next nobody =>
        have empty : (cache.fresh now).size = 0 := by
          rw [SortedMap.size, oldest?_eq_none nobody, List.length_nil]
        omega
    next roomy =>
      refine .there ?_
      cases known : (cache.fresh now).contains fiber.flowId with
      | true => exact .inl rfl
      | false => exact .inr (by simpa [known] using roomy)

theorem Roomy.size_insert_le {entries roomy : SortedMap FlowId (CacheEntry σ)} {capacity : Nat}
    {id : FlowId} (room : Roomy entries capacity id roomy) (bounded : entries.size ≤ capacity)
    (entry : CacheEntry σ) : (roomy.insert id entry).size ≤ capacity := by
  rw [SortedMap.size_insert_eq]
  cases room with
  | there room =>
      cases found : entries.get? id with
      | some kept =>
          have := SortedMap.size_erase found
          omega
      | none =>
          have new : entries.contains id = false := by rw [SortedMap.contains, found]; rfl
          have : entries.size < capacity := by simpa [new] using room
          rw [SortedMap.erase_of_get? found]
          omega
  | @made oldest _ new full found least =>
      have smaller := SortedMap.size_erase found
      have missing : (entries.erase oldest).get? id = none := by
        rw [SortedMap.contains, Option.isSome_eq_false_iff, Option.isNone_iff_eq_none] at new
        rw [SortedMap.get?_erase, new, ite_self]
      rw [SortedMap.erase_of_get? missing]
      omega

/-- No call makes a cache hold more than it has room for. -/
theorem size_after_le {cache : FiberCache σ} (bounded : cache.size ≤ cache.capacity)
    (timed : TimedCall σ) : (cache.after timed).size ≤ cache.capacity := by
  have filtered (keep : FlowId → CacheEntry σ → Bool) :
      (cache.entries.filter keep).size ≤ cache.capacity :=
    Nat.le_trans (List.length_filter_le _ _) bounded
  obtain ⟨now, call⟩ := timed
  cases call with
  | put version owner exec fiber =>
      rcases cache.put_cases now version owner exec fiber with ⟨_, same⟩ | ⟨_, roomy, room, same⟩
      · simpa only [after, same] using bounded
      · simpa only [after, same, size] using room.size_insert_le (filtered _) _
  | take id version exec =>
      simp only [after, take]
      split
      · exact bounded
      · split <;> exact filtered _
  | remove id => exact filtered _
  | advance id source target =>
      simp only [after, advance]
      split
      · exact bounded
      next entry found =>
        split
        · rw [size, SortedMap.size_insert_eq, SortedMap.size_erase found]
          exact bounded
        · exact filtered _
  | evictOwner owner => exact filtered _

theorem capacity_after (cache : FiberCache σ) (timed : TimedCall σ) :
    (cache.after timed).capacity = cache.capacity ∧ (cache.after timed).ttl = cache.ttl := by
  obtain ⟨now, call⟩ := timed
  cases call with
  | put version owner exec fiber =>
      rcases cache.put_cases now version owner exec fiber with ⟨_, same⟩ | ⟨_, _, _, same⟩ <;>
        simp only [after, same, and_self]
  | take id version exec =>
      simp only [after, take]
      split
      · exact ⟨rfl, rfl⟩
      · split <;> exact ⟨rfl, rfl⟩
  | advance id source target =>
      simp only [after, advance]
      split
      · exact ⟨rfl, rfl⟩
      · split <;> exact ⟨rfl, rfl⟩
  | remove | evictOwner => exact ⟨rfl, rfl⟩

namespace Fate

variable {cache : FiberCache σ} {id other : FlowId}

theorem of_fresh {timed : TimedCall σ} (parks : timed.call.Parks other) (apart : other ≠ id) :
    Fate cache timed id (cache.entries.get? id) ((cache.fresh timed.instant).get? id) := by
  obtain ⟨now, call⟩ := timed
  cases call with
  | put version owner exec fiber =>
      rw [fresh, SortedMap.get?_filter]
      cases cache.entries.get? id with
      | none => exact .missing
      | some entry =>
          rw [Option.filter]
          split
          · exact .spared (fun mine => apart (parks.2.symm.trans mine.2)) not_false rfl
          next late => exact .expired parks (by simpa [isFresh] using late)
  | take | remove | advance | evictOwner => cases parks

theorem of_full {timed : TimedCall σ} {entry : CacheEntry σ} (parks : timed.call.Parks other)
    (bounded : cache.size ≤ cache.capacity)
    (new : (cache.fresh timed.instant).contains other = false)
    (full : cache.capacity ≤ (cache.fresh timed.instant).size)
    (found : (cache.fresh timed.instant).get? id = some entry)
    (least : ∀ flow kept, (cache.fresh timed.instant).get? flow = some kept →
      entry.insertedAt ≤ kept.insertedAt) :
    Fate cache timed id (cache.entries.get? id) none := by
  have fewer : (cache.fresh timed.instant).size ≤ cache.size := List.length_filter_le _ _
  have all : cache.fresh timed.instant = cache.entries := by
    have same : (cache.fresh timed.instant).size = cache.entries.size :=
      Nat.le_antisymm fewer (Nat.le_trans bounded full)
    have good := List.filter_eq_self.2 (List.length_filter_eq_length_iff.1 same)
    exact SortedMap.ext_get? fun flow => congrArg (SortedMap.lookupEntry flow) good
  rw [all] at new found least
  rw [found]
  exact .crowdedOut parks new (by omega) least

theorem of_put (bounded : cache.size ≤ cache.capacity) (now version : Nat) (owner : Identity)
    (exec : ExecutionContext σ) (fiber : Fiber σ) :
    Fate cache ⟨now, .put version owner exec fiber⟩ id (cache.entries.get? id)
      ((cache.put now version owner exec fiber).entries.get? id) := by
  rcases cache.put_cases now version owner exec fiber with
    ⟨idle, same⟩ | ⟨suspended, roomy, room, same⟩
  · rw [same]
    cases found : cache.entries.get? id with
    | none => exact .missing
    | some entry =>
        have some : 0 < cache.size := List.length_pos_of_mem (SortedMap.mem_entries.2 found)
        refine .spared ?_ not_false rfl
        rintro ⟨suspended, _⟩
        rcases idle with empty | unsuspended
        · omega
        · exact unsuspended suspended
  · rw [same]
    by_cases mine : id = fiber.flowId
    · subst mine
      rw [SortedMap.get?_insert_self]
      exact .parked rfl suspended rfl
    · rw [SortedMap.get?_insert_of_ne _ _ mine]
      have parks : CacheCall.Parks (.put version owner exec fiber) fiber.flowId := ⟨suspended, rfl⟩
      have fresh : Fate cache ⟨now, .put version owner exec fiber⟩ id (cache.entries.get? id)
          ((cache.fresh now).get? id) := of_fresh parks fun same => mine same.symm
      cases room with
      | there => exact fresh
      | @made oldest entry new full found least =>
          by_cases oldestHere : id = oldest
          · subst oldestHere
            rw [SortedMap.get?_erase_self]
            exact of_full parks bounded new full found least
          · rw [SortedMap.get?_erase, if_neg (by simpa using oldestHere)]
            exact fresh

theorem of_erase {timed : TimedCall σ} (withdraws : ∀ owner, timed.call.Withdraws other owner)
    (spares : ∀ owner, id ≠ other → ¬ timed.call.Parks id ∧ ¬ timed.call.Withdraws id owner ∧
      timed.call.advance? id = none) :
    Fate cache timed id (cache.entries.get? id) ((cache.entries.erase other).get? id) := by
  rw [SortedMap.get?_erase]
  cases cache.entries.get? id with
  | none =>
      rw [ite_self]
      exact .missing
  | some entry =>
      by_cases mine : id = other
      · subst mine
        rw [if_pos Std.ReflCmp.compare_self]
        exact .withdrawn (withdraws entry.owner)
      · obtain ⟨unparked, unwithdrawn, steady⟩ := spares entry.owner mine
        rw [if_neg (by simpa using mine)]
        exact .spared unparked unwithdrawn steady

theorem of_advance (now source target : Nat) :
    Fate cache ⟨now, .advance other source target⟩ id (cache.entries.get? id)
      ((cache.advance other source target).entries.get? id) := by
  have spared (apart : id ≠ other) :
      Fate cache ⟨now, .advance other source target⟩ id (cache.entries.get? id)
        (cache.entries.get? id) := by
    cases cache.entries.get? id with
    | none => exact .missing
    | some entry => exact .spared not_false not_false (if_neg fun same => apart same.symm)
  by_cases mine : id = other
  · subst mine
    unfold advance
    cases found : cache.entries.get? id with
    | none =>
        simp only [found]
        exact .missing
    | some entry =>
        simp only
        split
        next here =>
          subst here
          rw [SortedMap.get?_insert_self]
          exact .carried rfl
        next differs =>
          rw [remove, SortedMap.get?_erase_self]
          exact .mismatched rfl differs
  · unfold advance
    split
    · exact spared mine
    · split
      · rw [SortedMap.get?_insert_of_ne _ _ mine]
        exact spared mine
      · rw [remove, SortedMap.get?_erase, if_neg (by simpa using mine)]
        exact spared mine

theorem of_evictOwner (now : Nat) (owner : Identity) :
    Fate cache ⟨now, .evictOwner owner⟩ id (cache.entries.get? id)
      ((cache.evictOwner owner).entries.get? id) := by
  rw [evictOwner, SortedMap.get?_filter]
  cases cache.entries.get? id with
  | none => exact .missing
  | some entry =>
      rw [Option.filter]
      split
      next apart =>
        rw [decide_eq_true_eq] at apart
        exact .spared not_false (fun same => apart same.symm) rfl
      next same =>
        rw [decide_eq_true_eq, not_not] at same
        exact .withdrawn same.symm

end Fate

theorem entries_take (cache : FiberCache σ) (now version : Nat) (id : FlowId)
    (exec : ExecutionContext σ) :
    (cache.take now id version exec).2.entries = cache.entries.erase id := by
  unfold take
  split
  next missing => exact (SortedMap.erase_of_get? missing).symm
  · simp only
    split <;> rfl

theorem fate_after {cache : FiberCache σ} (bounded : cache.size ≤ cache.capacity)
    (timed : TimedCall σ) (id : FlowId) :
    Fate cache timed id (cache.entries.get? id) ((cache.after timed).entries.get? id) := by
  obtain ⟨now, call⟩ := timed
  cases call with
  | put version owner exec fiber => exact .of_put bounded now version owner exec fiber
  | take other version exec =>
      rw [after, entries_take]
      exact .of_erase (fun _ => rfl) fun _ apart => ⟨not_false, fun same => apart same.symm, rfl⟩
  | remove other =>
      exact .of_erase (fun _ => rfl) fun _ apart => ⟨not_false, fun same => apart same.symm, rfl⟩
  | advance other source target => exact .of_advance now source target
  | evictOwner owner => exact .of_evictOwner now owner

/-- What is kept after a call was put in by it or is what was kept before. -/
theorem Kept.of_fate {cache : FiberCache σ} {calls : List (TimedCall σ)} {timed : TimedCall σ}
    {id : FlowId} {before later : Option (CacheEntry σ)} (fate : Fate cache timed id before later)
    (kept : ∀ entry, before = some entry → Kept calls id entry) :
    ∀ entry, later = some entry → Kept (calls ++ [timed]) id entry := by
  rintro entry rfl
  cases fate with
  | spared unparked unwithdrawn steady => exact (kept entry rfl).spared unparked unwithdrawn steady
  | parked asked suspended mine => exact .of_put asked suspended mine
  | carried asked => exact (kept _ rfl).carried asked

/-- What a cache with some capacity and time to live keeps after some calls. -/
structure Keeps (capacity ttl : Nat) (calls : List (TimedCall σ)) (cache : FiberCache σ) : Prop where
  capacity : cache.capacity = capacity
  ttl : cache.ttl = ttl
  bounded : cache.size ≤ cache.capacity
  kept : ∀ id entry, cache.entries.get? id = some entry → Kept calls id entry

theorem keeps_run (capacity ttl : Nat) (calls : List (TimedCall σ)) :
    Keeps capacity ttl calls ((new capacity ttl).run calls) := by
  induction calls using List.reverseRecOn with
  | nil => exact ⟨rfl, rfl, Nat.zero_le _, fun _ _ none => by cases none⟩
  | append_singleton calls timed ih =>
      have next : (new capacity ttl).run (calls ++ [timed]) =
          ((new capacity ttl).run calls).after timed := by simp [run]
      obtain ⟨sameCapacity, sameTtl⟩ := ((new capacity ttl).run calls).capacity_after timed
      rw [next]
      refine ⟨sameCapacity.trans ih.capacity, sameTtl.trans ih.ttl, ?_, fun id => ?_⟩
      · rw [sameCapacity]
        exact size_after_le ih.bounded timed
      · exact .of_fate (fate_after ih.bounded timed id) (ih.kept id)

theorem take_eq_some {cache : FiberCache σ} {now version : Nat} {id : FlowId}
    {exec : ExecutionContext σ} {fiber : Fiber σ} (h : (cache.take now id version exec).1 = some fiber) :
    ∃ entry, cache.entries.get? id = some entry ∧ entry.fiber = fiber ∧ entry.version = version ∧
      entry.exec.serial = exec.serial ∧ now - entry.insertedAt < cache.ttl := by
  unfold take at h
  split at h
  · cases h
  next entry found =>
    simp only at h
    split at h
    next fits =>
      cases h
      exact ⟨entry, found, rfl, fits.1, fits.2.1, by simpa [isFresh] using fits.2.2⟩
    · cases h

/-- How a cache with some capacity and time to live stands after some calls. -/
structure Trustworthy (capacity ttl : Nat) (calls : List (TimedCall σ)) (cache : FiberCache σ) :
    Prop where
  bounded : cache.size ≤ capacity
  /-- Only suspended fibers are kept, each under its own flow. -/
  suspended : ∀ id entry, cache.entries.get? id = some entry →
    entry.fiber.state = .suspended ∧ entry.fiber.flowId = id
  stores : ∀ timed version owner exec fiber, timed.call = .put version owner exec fiber →
    0 < capacity → fiber.state = .suspended → (cache.after timed).entries.get? fiber.flowId =
      some ⟨fiber, version, owner, exec, timed.instant⟩
  /-- A fiber is handed out only if it is that of the last suspended fiber of its flow that was put
  in, with that very context and less than the time to live ago, if nothing has withdrawn it since, and
  if every step since has led from the version before to the next and the last one to the version asked
  for. -/
  handsOut : ∀ now id version exec fiber, (∀ timed ∈ calls, timed.instant ≤ now) →
    (cache.take now id version exec).1 = some fiber →
    ∃ entry, Kept calls id entry ∧ entry.fiber = fiber ∧ entry.version = version ∧
      entry.exec.serial = exec.serial ∧ entry.insertedAt ≤ now ∧ now < entry.insertedAt + ttl
  /-- The next call leaves what is kept for a flow as it is, or does something to it that it may do. -/
  accounts : ∀ timed id,
    Fate cache timed id (cache.entries.get? id) ((cache.after timed).entries.get? id)

/-- Whatever is asked of a cache, and whenever, it can be trusted. -/
theorem trustworthy_run (capacity ttl : Nat) (calls : List (TimedCall σ)) :
    Trustworthy capacity ttl calls ((new capacity ttl).run calls) := by
  have keeps := keeps_run capacity ttl calls
  generalize (new capacity ttl).run calls = cache at keeps ⊢
  constructor
  case bounded => exact keeps.capacity ▸ keeps.bounded
  case suspended =>
    intro id entry found
    have kept := keeps.kept id entry found
    exact ⟨kept.suspended, kept.flowId⟩
  case stores =>
    intro timed version owner exec fiber asked roomy suspended
    have room : cache.capacity ≠ 0 := by rw [keeps.capacity]; omega
    simp only [after, asked]
    rcases cache.put_cases timed.instant version owner exec fiber with ⟨idle, _⟩ | ⟨_, _, _, same⟩
    · rcases idle with empty | unsuspended
      · exact absurd empty room
      · exact absurd suspended unsuspended
    · rw [same, SortedMap.get?_insert_self]
  case handsOut =>
    intro now id version exec fiber inTurn taken
    obtain ⟨entry, found, same, fits, serial, good⟩ := take_eq_some taken
    have kept := keeps.kept id entry found
    obtain ⟨_, _, _, split, _⟩ := kept.parked
    have before : entry.insertedAt ≤ now :=
      inTurn _ (split ▸ List.mem_append_right _ List.mem_cons_self)
    rw [keeps.ttl] at good
    exact ⟨entry, kept, same, fits, serial, before, by omega⟩
  case accounts => exact fate_after keeps.bounded

end FiberCache

end DurableFlow
