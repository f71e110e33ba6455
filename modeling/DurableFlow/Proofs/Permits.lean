import DurableFlow.Proofs.Lanes

/-! # Permits are counted

What is free and what the running jobs have is always the whole pool, and a permit that becomes free
while lanes wait goes to the one that has waited longest.
-/

namespace DurableFlow.Scheduler

variable {J : Type} {s : Scheduler J}

theorem held_some (lane : Lane J) : held (some lane) = if lane.phase.isRunning then 1 else 0 := by
  rcases lane with ⟨phase, queue⟩
  cases phase <;> rfl

theorem slots_insert (lanes : SortedMap FlowId (Lane J)) (id : FlowId) (lane : Lane J) :
    slots (lanes.insert id lane) = slots (lanes.erase id) + held (some lane) := by
  rw [slots, (SortedMap.perm_insert lanes id lane).countP_eq, List.countP_cons, held_some]
  rfl

theorem slots_erase (lanes : SortedMap FlowId (Lane J)) (id : FlowId) :
    slots (lanes.erase id) + held (lanes.get? id) = slots lanes := by
  cases found : lanes.get? id with
  | none => rw [SortedMap.erase_of_get? found]; rfl
  | some lane => rw [← slots_insert, SortedMap.insert_of_get? found]

section Sharing

variable {id : FlowId} {lane : Lane J}

theorem Permits.of_putLane (total : s.free + slots s.lanes = s.poolSize)
    (alive : ∀ other, isDead (s.lanes.get? other) = false) (lives : isDead (some lane) = false)
    (free : Nat) (balance : free + held (some lane) = s.free + held (s.lanes.get? id))
    {ids : List FlowId} (nodup : ids.Nodup)
    (waiting : ∀ other, other ∈ ids ↔ isWaiting ((s.putLane id lane).lanes.get? other))
    (scarce : ids ≠ [] → free = 0) (ready : List Turn) :
    Permits { s.putLane id lane with free, claims := ids.map fun id => ⟨.lane id, 1⟩, ready } := by
  have order : claimants { s.putLane id lane with
      free, claims := ids.map fun id => ⟨.lane id, 1⟩, ready } = ids := by
    simp [claimants, List.filterMap_map]
  constructor
  · have erased := slots_erase s.lanes id
    have inserted := slots_insert s.lanes id lane
    simp only [putLane]
    omega
  · rw [order]
  · rwa [order]
  · rwa [order]
  · rwa [order]
  · intro other
    change isDead ((s.putLane id lane).lanes.get? other) = false
    rw [get?_putLane]
    split
    · exact lives
    · exact alive other

theorem Permits.waiting_putLane (permits : s.Permits)
    (still : isWaiting (some lane) = isWaiting (s.lanes.get? id)) (other : FlowId) :
    other ∈ s.claimants ↔ isWaiting ((s.putLane id lane).lanes.get? other) := by
  rw [get?_putLane, permits.waiting]
  split
  next here => rw [here, still]
  next => rfl

theorem Permits.of_still (permits : s.Permits) (lives : isDead (some lane) = false)
    (still : isWaiting (some lane) = isWaiting (s.lanes.get? id)) {free : Nat}
    (balance : free + held (some lane) = s.free + held (s.lanes.get? id))
    (scarce : s.claimants ≠ [] → free = 0) (ready : List Turn) :
    Permits { s.putLane id lane with free, ready } := by
  have next := Permits.of_putLane permits.total permits.alive lives free balance permits.nodup
    (permits.waiting_putLane still) scarce ready
  rwa [← permits.claims] at next

theorem Permits.of_quiet (permits : s.Permits) (lives : isDead (some lane) = false)
    (still : isWaiting (some lane) = isWaiting (s.lanes.get? id))
    (same : held (some lane) = held (s.lanes.get? id)) (ready : List Turn) :
    Permits { s.putLane id lane with ready } :=
  permits.of_still lives still (by rw [same]) permits.scarce ready

theorem Permits.of_erased (permits : s.Permits) (unheld : held (s.lanes.get? id) = 0)
    (unasked : isWaiting (s.lanes.get? id) = false) :
    Permits { s with lanes := s.lanes.erase id } := by
  have counted := slots_erase s.lanes id
  rw [unheld] at counted
  have erased (other : FlowId) : (s.lanes.erase id).get? other =
      if other = id then none else s.lanes.get? other := by
    rw [SortedMap.get?_erase]
    simp only [Std.LawfulEqCmp.compare_eq_iff_eq]
  refine ⟨?_, permits.claims, permits.nodup, fun other => ?_, permits.scarce, fun other => ?_⟩
  · exact (congrArg (s.free + ·) counted).trans permits.total
  · rw [erased]
    refine (permits.waiting other).trans ?_
    split
    next here => rw [here, unasked]; rfl
    next => rfl
  · rw [erased]
    split
    · rfl
    · exact permits.alive other

theorem Permits.of_claimed (permits : s.Permits) {job : J} {queue : List J}
    (found : s.lanes.get? id = some ⟨.wanting job, queue⟩) (free : s.free = 0) :
    Permits { s.putLane id ⟨.waiting job, queue⟩ with claims := s.claims ++ [⟨.lane id, 1⟩] } := by
  have apart : id ∉ s.claimants := by
    rw [permits.waiting, found]
    exact Bool.false_ne_true
  have nodup : (s.claimants ++ [id]).Nodup := List.nodup_append_comm.mp (by simp [apart, permits.nodup])
  have waiting (other : FlowId) : other ∈ s.claimants ++ [id] ↔
      isWaiting ((s.putLane id ⟨.waiting job, queue⟩).lanes.get? other) := by
    rw [List.mem_append, List.mem_singleton, get?_putLane, permits.waiting]
    split
    next here => simp [here, isWaiting]
    next differs => simp [differs]
  have next := Permits.of_putLane permits.total permits.alive rfl s.free (by rw [found]; rfl) nodup
    waiting (fun _ => free) s.ready
  rwa [List.map_append, ← permits.claims] at next

theorem Permits.total_ended (permits : s.Permits) {job : J} {queue : List J}
    (found : s.lanes.get? id = some ⟨.running job, queue⟩) :
    s.free + 1 + slots (s.putLane id ⟨.idle, queue⟩).lanes = s.poolSize := by
  have total := permits.total
  have erased := slots_erase s.lanes id
  rw [found] at erased
  have inserted := slots_insert s.lanes id ⟨.idle, queue⟩
  simp only [held, running?, Option.isSome_some, Option.isSome_none, if_true,
    Bool.false_eq_true, if_false] at erased inserted
  simp only [putLane]
  omega

/-- The permit of a job that has ended goes to the first lane in the queue. -/
theorem Permits.of_passed (permits : s.Permits) {job nextJob : J} {queue nextQueue : List J}
    (found : s.lanes.get? id = some ⟨.running job, queue⟩) {next : FlowId} {others : List FlowId}
    (order : s.claimants = next :: others)
    (waiting : s.lanes.get? next = some ⟨.waiting nextJob, nextQueue⟩) (ready : List Turn) :
    Permits { (s.putLane id ⟨.idle, queue⟩).putLane next ⟨.running nextJob, nextQueue⟩ with
      claims := others.map fun id => ⟨.lane id, 1⟩, ready } := by
  have nodup := permits.nodup
  rw [order, List.nodup_cons] at nodup
  -- On the way from one lane to the other the permit is free.
  let between : Scheduler J := { s.putLane id ⟨.idle, queue⟩ with free := s.free + 1 }
  have apart : next ≠ id := by
    rintro rfl
    rw [found] at waiting
    cases waiting
  have alive (other : FlowId) : isDead (between.lanes.get? other) = false := by
    refine (congrArg isDead (get?_putLane s id other _)).trans ?_
    split
    · rfl
    · exact permits.alive other
  have still : between.lanes.get? next = some ⟨.waiting nextJob, nextQueue⟩ := by
    refine (get?_putLane s id next _).trans ?_
    rw [if_neg apart, waiting]
  have balance : s.free + held (some ⟨.running nextJob, nextQueue⟩) =
      between.free + held (between.lanes.get? next) := by
    rw [still]
    rfl
  have waits (other : FlowId) : other ∈ others ↔
      isWaiting ((between.putLane next ⟨.running nextJob, nextQueue⟩).lanes.get? other) := by
    have known := permits.waiting other
    rw [order, List.mem_cons] at known
    rw [get?_putLane]
    split
    next here => simp [here, nodup.1, isWaiting]
    next differs =>
      refine Iff.trans ?_ (Iff.of_eq (congrArg (isWaiting · = true) (get?_putLane s id other _).symm))
      split
      next here =>
        have out := known.not.mpr (by rw [here, found]; exact Bool.false_ne_true)
        simpa [isWaiting] using (not_or.mp out).2
      next => simpa [differs] using known
  have scarce : others ≠ [] → s.free = 0 := fun _ => permits.scarce (by simp [order])
  exact Permits.of_putLane (s := between) (permits.total_ended found) alive rfl s.free balance nodup.2
    waits scarce ready

end Sharing

/-- Every move keeps the count of permits. -/
theorem Effect.permits {move : Move J} {after : Scheduler J} (effect : Effect s move after)
    (permits : s.Permits) : after.Permits := by
  cases effect with
  | refused | rested | missed => exact permits
  | closed =>
      exact ⟨permits.total, permits.claims, permits.nodup, permits.waiting, permits.scarce, permits.alive⟩
  | opened accepting missing job ready =>
      exact permits.of_quiet rfl (by rw [missing]; rfl) (by rw [missing]; rfl) ready
  | @queued accepting id phase queue found job =>
      have alive := permits.alive id
      rw [found] at alive
      apply permits.of_quiet
      · cases phase <;> first | rfl | cases alive
      · rw [found]
        cases phase <;> rfl
      · rw [found, held_some, held_some]
  | looked found => exact permits.of_quiet rfl (by rw [found]; rfl) (by rw [found]; rfl) s.ready
  | took found looking =>
      apply permits.of_quiet rfl
      all_goals
        rw [found]
        rcases looking with rfl | rfl <;> rfl
  | left found => exact permits.of_erased (by rw [found]; rfl) (by rw [found]; rfl)
  | started found free =>
      have unclaimed : s.claimants = [] := by
        by_contra some
        have := permits.scarce some
        omega
      have balance : s.free - 1 + 1 = s.free + 0 := by omega
      exact permits.of_still rfl (by rw [found]; rfl) (by rw [found]; exact balance)
        (fun some => absurd unclaimed some) s.ready
  | claimed found free => exact permits.of_claimed found free
  | ended found unclaimed =>
      have none : s.claimants = [] := by simp [claimants, unclaimed]
      exact permits.of_still rfl (by rw [found]; rfl) (by rw [found]; rfl)
        (fun some => absurd none some) s.ready
  | passed found order waiting ready => exact permits.of_passed found order waiting ready

namespace Effect

variable {move : Move J} {after : Scheduler J} {id : FlowId}

theorem runs_putLane {other : FlowId} {lane : Lane J} (runs : (running? (s.lanes.get? id)).isSome)
    (still : id = other → (running? (some lane)).isSome) :
    (running? ((s.putLane other lane).lanes.get? id)).isSome := by
  rw [get?_putLane]
  split
  next here => exact still here
  next => exact runs

theorem runs (effect : Effect s move after) (runs : (running? (s.lanes.get? id)).isSome) :
    (running? (after.lanes.get? id)).isSome ∨ move = .finish id := by
  have other {other : FlowId} {lane : Lane J} (found : s.lanes.get? other = some lane)
      (idle : running? (some lane) = none) : id ≠ other := by
    rintro rfl
    simp [found, idle] at runs
  cases effect with
  | refused | rested | missed | closed => exact .inl runs
  | opened accepting missing job ready =>
      refine .inl (runs_putLane runs fun same => ?_)
      simp [same, missing, running?] at runs
  | queued accepting found job =>
      refine .inl (runs_putLane runs fun same => ?_)
      rename_i phase queue
      rw [same, found] at runs
      cases phase <;> exact runs
  | looked found => exact .inl (runs_putLane runs fun same => absurd same (other found rfl))
  | took found looking =>
      refine .inl (runs_putLane runs fun same => absurd same (other found ?_))
      rcases looking with rfl | rfl <;> rfl
  | @left leaving found =>
      left
      change (running? ((s.lanes.erase leaving).get? id)).isSome
      rwa [SortedMap.get?_erase, if_neg]
      exact fun same => other found rfl (Std.LawfulEqCmp.eq_of_compare same)
  | started found => exact .inl (runs_putLane runs fun _ => rfl)
  | claimed found => exact .inl (runs_putLane runs fun same => absurd same (other found rfl))
  | @ended ending job queue found unclaimed =>
      by_cases here : id = ending
      · exact .inr (here ▸ rfl)
      · exact .inl (runs_putLane runs fun same => absurd same here)
  | @passed ending job queue found next others order nextJob nextQueue waiting ready =>
      by_cases here : id = ending
      · exact .inr (here ▸ rfl)
      · exact .inl (runs_putLane (runs_putLane runs fun same => absurd same here) fun _ => rfl)

theorem ends (effect : Effect s (.finish id) after) (runs : (running? (s.lanes.get? id)).isSome) :
    running? (after.lanes.get? id) = none := by
  cases effect with
  | missed idle => simp [idle] at runs
  | ended found => simp [putLane, SortedMap.get?_insert_self, running?]
  | @passed _ job queue found next others order nextJob nextQueue waiting ready =>
      have apart : id ≠ next := by
        rintro rfl
        rw [found] at waiting
        cases waiting
      have idle : ((s.putLane id ⟨.idle, queue⟩).putLane next
          ⟨.running nextJob, nextQueue⟩).lanes.get? id = some ⟨.idle, queue⟩ := by
        rw [get?_putLane, if_neg apart, get?_putLane, if_pos rfl]
      exact congrArg running? idle

theorem satisfied {next : FlowId} {others : List FlowId} {lane : Lane J}
    (order : s.claimants = next :: others) (runs : (running? (some lane)).isSome) (ready : List Turn) :
    s.claimants = next :: claimants { s.putLane next lane with
      claims := others.map fun id => ⟨.lane id, 1⟩, ready } ∧
    (running? ((s.putLane next lane).lanes.get? next)).isSome := by
  rw [get?_putLane, if_pos rfl, order]
  exact ⟨by simp [claimants, List.filterMap_map], runs⟩

theorem claimants_cases (effect : Effect s move after) :
    (∃ added, after.claimants = s.claimants ++ added) ∨
    ∃ next, s.claimants = next :: after.claimants ∧ (running? (after.lanes.get? next)).isSome := by
  cases effect with
  | @claimed id job queue found free => exact .inl ⟨[id], by simp [claimants]⟩
  | @passed id job queue found next others order nextJob nextQueue waiting ready =>
      have order : (s.putLane id ⟨.idle, queue⟩).claimants = next :: others := order
      exact .inr ⟨next, satisfied order rfl ready⟩
  | _ => exact .inl ⟨[], (List.append_nil _).symm⟩

theorem asks (effect : Effect s (.advance id) after) {job : J} {queue : List J}
    (wants : s.lanes.get? id = some ⟨.wanting job, queue⟩) :
    isWaiting (after.lanes.get? id) ∨ (running? (after.lanes.get? id)).isSome := by
  cases effect with
  | rested busy => simp [wants, isWaiting, running?] at busy
  | started found =>
      right
      simp [putLane, SortedMap.get?_insert_self, running?]
  | claimed found =>
      left
      simp [putLane, SortedMap.get?_insert_self, isWaiting]
  | looked found | left found => cases wants.symm.trans found
  | took found looking =>
      rcases looking with rfl | rfl <;> cases wants.symm.trans found

theorem fetches (effect : Effect s (.advance id) after) {phase : Phase J} {job : J} {queue : List J}
    (looking : phase = .idle ∨ phase = .closing)
    (found : s.lanes.get? id = some ⟨phase, job :: queue⟩) :
    after.lanes.get? id = some ⟨.wanting job, queue⟩ := by
  cases effect with
  | rested busy => rcases looking with rfl | rfl <;> simp [found, isWaiting, running?] at busy
  | took same =>
      cases found.symm.trans same
      exact SortedMap.get?_insert_self _ _ _
  | looked same | left same => cases found.symm.trans same
  | started same | claimed same => rcases looking with rfl | rfl <;> cases found.symm.trans same

theorem satisfies (effect : Effect s (.finish id) after)
    (runs : (running? (s.lanes.get? id)).isSome) (waits : s.claimants ≠ []) :
    ∃ next, s.claimants = next :: after.claimants ∧ (running? (after.lanes.get? next)).isSome := by
  cases effect with
  | missed idle => simp [idle] at runs
  | ended found unclaimed => exact absurd (by simp [claimants, unclaimed]) waits
  | @passed id job queue found next others order nextJob nextQueue waiting ready =>
      have order : (s.putLane id ⟨.idle, queue⟩).claimants = next :: others := order
      exact ⟨next, satisfied order rfl ready⟩

end Effect

/-- While lanes wait for permits, a job runs. -/
theorem Permits.exists_running (permits : s.Permits) (pool : 0 < s.poolSize) (waits : s.claimants ≠ []) :
    ∃ id, (running? (s.lanes.get? id)).isSome := by
  have total := permits.total
  have scarce := permits.scarce waits
  have some : 0 < slots s.lanes := by omega
  obtain ⟨⟨id, lane⟩, listed, runs⟩ := List.countP_pos_iff.mp some
  refine ⟨id, ?_⟩
  rw [SortedMap.mem_entries.mp listed]
  rcases lane with ⟨phase, queue⟩
  cases phase <;> first | rfl | cases runs

end DurableFlow.Scheduler
