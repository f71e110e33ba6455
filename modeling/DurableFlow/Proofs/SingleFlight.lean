import DurableFlow.Proofs.Permits

/-! # One job of a flow at a time, in order, and none is lost

A scheduler is watched while calls, lanes and jobs take turns as a schedule says. What was accepted, has
started and has ended of the jobs of each flow is written down, and `Journal.Sound` relates it to the lane
of the flow. If no lane and no job is passed over for good, every job that is accepted ends: `Fair`.
-/

namespace DurableFlow.Scheduler

variable {J : Type}

/-- A scheduler and what has happened to the jobs of each flow so far, in order. -/
structure Journal (J : Type) where
  scheduler : Scheduler J
  accepted : FlowId → List J
  started : FlowId → List J
  ended : FlowId → List J

namespace Journal

/-- The journal of a scheduler that has accepted nothing. -/
def blank (poolSize : Nat) : Journal J := ⟨.new poolSize, fun _ => [], fun _ => [], fun _ => []⟩

/-- The lane of a flow. -/
def lane (journal : Journal J) (id : FlowId) : Option (Lane J) := journal.scheduler.lanes.get? id

/-- Write a move down. -/
def next (journal : Journal J) (move : Move J) : Journal J :=
  let after := journal.scheduler.move move
  { scheduler := after
    accepted id := journal.accepted id ++ journal.scheduler.accepted id move
    started id := journal.started id ++ LaneStep.started (journal.lane id) (after.lanes.get? id)
    ended id := journal.ended id ++ LaneStep.ended (journal.lane id) (after.lanes.get? id) }

/-- The journal after some moves of a schedule. -/
def after (journal : Journal J) (schedule : Nat → Move J) : Nat → Journal J
  | 0 => journal
  | n + 1 => (journal.after schedule n).next (schedule n)

/-- A journal that fits the lanes and the permits. -/
structure Sound (journal : Journal J) : Prop where
  permits : journal.scheduler.Permits
  started : ∀ id, journal.accepted id = journal.started id ++ unstarted (journal.lane id)
  ended : ∀ id, journal.started id = journal.ended id ++ (running? (journal.lane id)).toList

theorem sound_blank (poolSize : Nat) : (blank (J := J) poolSize).Sound where
  permits := by
    refine ⟨rfl, rfl, .nil, fun _ => ?_, fun some => absurd rfl some, fun _ => rfl⟩
    exact ⟨fun listed => absurd listed List.not_mem_nil, fun waits => by cases waits⟩
  started _ := rfl
  ended _ := rfl

variable {journal : Journal J}

theorem Sound.laneStep (sound : journal.Sound) (move : Move J) (id : FlowId) :
    LaneStep (journal.lane id) (journal.scheduler.accepted id move) ((journal.next move).lane id) :=
  (effect_move sound.permits move).laneStep id

theorem Sound.next (sound : journal.Sound) (move : Move J) : (journal.next move).Sound where
  permits := (effect_move sound.permits move).permits sound.permits
  started id := by
    have step := (sound.laneStep move id).unstarted_eq
    change journal.accepted id ++ _ = journal.started id ++ _ ++ _
    rw [sound.started, List.append_assoc, step, List.append_assoc]
    rfl
  ended id := by
    have step := (sound.laneStep move id).running_eq
    change journal.started id ++ _ = journal.ended id ++ _ ++ _
    rw [sound.ended, List.append_assoc, List.append_assoc]
    exact congrArg _ step

theorem Sound.after (sound : journal.Sound) (schedule : Nat → Move J) : ∀ n, (journal.after schedule n).Sound
  | 0 => sound
  | n + 1 => (sound.after schedule n).next (schedule n)

/-- How the jobs fare. -/
structure Orderly (poolSize : Nat) (journal : Journal J) : Prop where
  /-- At most one job of a flow runs, and it is the only one that has started and not ended. -/
  single : ∀ id, journal.started id = journal.ended id ++ (running? (journal.lane id)).toList
  /-- Jobs start in the order in which they were accepted and each of them once. Those that have not
  started are in the lane of their flow, and there is one. -/
  lossless : ∀ id, journal.accepted id = journal.started id ++ unstarted (journal.lane id)
  bounded : slots journal.scheduler.lanes ≤ max poolSize 1
  /-- When a shutdown returns, every accepted job has ended. -/
  drained : journal.scheduler.isDrained → ∀ id, journal.ended id = journal.accepted id

theorem Sound.drained (sound : journal.Sound) (drained : journal.scheduler.isDrained) (id : FlowId) :
    journal.ended id = journal.accepted id := by
  have gone : journal.lane id = none := by
    cases found : journal.lane id with
    | none => rfl
    | some lane =>
        have listed : (id, lane) ∈ journal.scheduler.lanes.entries := SortedMap.mem_entries.mpr found
        simp only [isDrained, Bool.and_eq_true, List.all_eq_true] at drained
        have dead := drained.2 _ listed
        have alive := sound.permits.alive id
        rw [show journal.scheduler.lanes.get? id = some lane from found] at alive
        rcases lane with ⟨phase, queue⟩
        cases phase <;> simp [Phase.isDead, isDead] at dead alive
  rw [sound.started, sound.ended, gone]
  simp [unstarted, running?]

section Runs

variable {schedule : Nat → Move J} {n : Nat}

theorem Sound.effect (sound : journal.Sound) (schedule : Nat → Move J) (n : Nat) :
    Effect (journal.after schedule n).scheduler (schedule n) (journal.after schedule (n + 1)).scheduler :=
  effect_move (sound.after schedule n).permits (schedule n)

theorem Sound.poolSize_after (sound : journal.Sound) (schedule : Nat → Move J) (n : Nat) :
    (journal.after schedule n).scheduler.poolSize = journal.scheduler.poolSize := by
  induction n with
  | zero => rfl
  | succ n ih => exact (sound.effect schedule n).poolSize.trans ih

theorem accepted_succ (id : FlowId) (n : Nat) : (journal.after schedule (n + 1)).accepted id =
    (journal.after schedule n).accepted id ++
      (journal.after schedule n).scheduler.accepted id (schedule n) := rfl

theorem ended_succ (id : FlowId) (n : Nat) : (journal.after schedule (n + 1)).ended id =
    (journal.after schedule n).ended id ++
      LaneStep.ended ((journal.after schedule n).lane id) ((journal.after schedule (n + 1)).lane id) := rfl

theorem accepted_of_closed {s : Scheduler J} (closed : s.accepting = false) (id : FlowId) (move : Move J) :
    s.accepted id move = [] := by
  cases move with
  | submit other job => simp [accepted_submit, closed]
  | advance | finish | shutdown => rfl

theorem Sound.accepted_after (sound : journal.Sound) {m n : Nat} (began : schedule m = .shutdown)
    (le : m ≤ n) (id : FlowId) :
    (journal.after schedule n).accepted id = (journal.after schedule m).accepted id := by
  have closed (d : Nat) : (journal.after schedule (m + 1 + d)).scheduler.accepting = false := by
    induction d with
    | zero =>
        change ((journal.after schedule m).scheduler.move (schedule m)).accepting = false
        rw [began]
        rfl
    | succ d ih => exact (sound.effect schedule (m + 1 + d)).closed_of_closed ih
  obtain ⟨d, rfl⟩ := Nat.exists_eq_add_of_le le
  clear le
  induction d with
  | zero => rfl
  | succ d ih =>
      have none : (journal.after schedule (m + d)).scheduler.accepted id (schedule (m + d)) = [] := by
        cases d with
        | zero => rw [Nat.add_zero, began]; rfl
        | succ d =>
            have shut := closed d
            rw [Nat.add_right_comm] at shut
            exact accepted_of_closed shut id _
      rw [← Nat.add_assoc, accepted_succ, none, List.append_nil, ih]

theorem ended_le (id : FlowId) {m n : Nat} (le : m ≤ n) :
    ((journal.after schedule m).ended id).length ≤ ((journal.after schedule n).ended id).length := by
  induction le with
  | refl => exact Nat.le_refl _
  | step _ ih =>
      rw [Nat.succ_eq_add_one, ended_succ, List.length_append]
      omega

theorem accepted_le (id : FlowId) {m n : Nat} (le : m ≤ n) :
    (journal.after schedule m).accepted id <+: (journal.after schedule n).accepted id := by
  induction le with
  | refl => exact List.prefix_refl _
  | step _ ih => exact ih.trans (List.prefix_append _ _)

end Runs

section Liveness

variable {schedule : Nat → Move J}

/-- A schedule in which no lane and no running job is passed over for good. -/
structure Fair (journal : Journal J) (schedule : Nat → Move J) : Prop where
  advances : ∀ n id, ((journal.after schedule n).lane id).isSome → ∃ m ≥ n, schedule m = .advance id
  finishes : ∀ n id, (running? ((journal.after schedule n).lane id)).isSome →
    ∃ m ≥ n, schedule m = .finish id

/-- What lasts until a move makes something else happen, which is bound to come, does not last. -/
theorem leads {P Q : Nat → Prop} {move : Move J} {n : Nat} (start : P n)
    (comes : ∃ m ≥ n, schedule m = move) (lasts : ∀ k, P k → P (k + 1) ∨ Q (k + 1))
    (fires : ∀ k, P k → schedule k = move → Q (k + 1)) : ∃ m ≥ n, Q m := by
  obtain ⟨m, le, here⟩ := comes
  obtain ⟨d, rfl⟩ := Nat.exists_eq_add_of_le le
  clear le
  induction d generalizing n with
  | zero => exact ⟨n + 1, Nat.le_succ n, fires n start here⟩
  | succ d ih =>
      rcases lasts n start with still | changed
      · obtain ⟨m, le, later⟩ := ih still (by rwa [Nat.add_right_comm])
        exact ⟨m, Nat.le_of_succ_le le, later⟩
      · exact ⟨n + 1, Nat.le_succ n, changed⟩

variable (sound : journal.Sound) (fair : journal.Fair schedule)

include sound fair in
theorem ends_of_running {id : FlowId} {count n : Nat}
    (runs : (running? ((journal.after schedule n).lane id)).isSome)
    (le : count ≤ ((journal.after schedule n).ended id).length) :
    ∃ m ≥ n, count < ((journal.after schedule m).ended id).length := by
  refine leads (P := fun k => (running? ((journal.after schedule k).lane id)).isSome ∧
    count ≤ ((journal.after schedule k).ended id).length) ⟨runs, le⟩ (fair.finishes n id runs) ?_ ?_
  · rintro k ⟨runs, le⟩
    rw [ended_succ, List.length_append]
    obtain ⟨job, runs⟩ := Option.isSome_iff_exists.mp runs
    cases later : running? ((journal.after schedule (k + 1)).lane id) with
    | none =>
        right
        simp [LaneStep.ended, runs, later]
        omega
    | some job =>
        left
        exact ⟨rfl, by omega⟩
  · rintro k ⟨runs, le⟩ here
    have effect := sound.effect schedule k
    rw [here] at effect
    have ended : running? ((journal.after schedule (k + 1)).lane id) = none := effect.ends runs
    rw [ended_succ, List.length_append]
    obtain ⟨job, runs⟩ := Option.isSome_iff_exists.mp runs
    simp [LaneStep.ended, runs, ended]
    omega

include sound fair in
theorem running_of_waiting {id : FlowId} (pool : 0 < journal.scheduler.poolSize) {n : Nat}
    {front back : List FlowId}
    (place : (journal.after schedule n).scheduler.claimants = front ++ id :: back) :
    ∃ m ≥ n, (running? ((journal.after schedule m).lane id)).isSome := by
  induction h : front.length using Nat.strongRecOn generalizing front back n with
  | ind ahead ih =>
      have pool : 0 < (journal.after schedule n).scheduler.poolSize := by
        rwa [sound.poolSize_after]
      obtain ⟨other, runs⟩ := (sound.after schedule n).permits.exists_running pool (by simp [place])
      -- The first of those that wait goes on, which is this lane or one ahead of it.
      have pops {k : Nat} {back : List FlowId}
          (place : (journal.after schedule k).scheduler.claimants = front ++ id :: back)
          (popped : ∃ next, (journal.after schedule k).scheduler.claimants =
            next :: (journal.after schedule (k + 1)).scheduler.claimants ∧
            (running? ((journal.after schedule (k + 1)).lane next)).isSome) :
          (running? ((journal.after schedule (k + 1)).lane id)).isSome ∨
            ∃ front' back', front'.length < ahead ∧
              (journal.after schedule (k + 1)).scheduler.claimants = front' ++ id :: back' := by
        obtain ⟨next, order, runs⟩ := popped
        rw [order] at place
        cases front with
        | nil =>
            obtain ⟨rfl, -⟩ := List.cons.inj place
            exact .inl runs
        | cons _ front =>
            refine .inr ⟨front, back, ?_, (List.cons.inj place).2⟩
            rw [← h]
            exact Nat.lt_succ_self _
      obtain ⟨m, le, moved⟩ := leads
        (P := fun k => (∃ back, (journal.after schedule k).scheduler.claimants = front ++ id :: back) ∧
          (running? ((journal.after schedule k).lane other)).isSome)
        (Q := fun k => (running? ((journal.after schedule k).lane id)).isSome ∨
          ∃ front' back', front'.length < ahead ∧
            (journal.after schedule k).scheduler.claimants = front' ++ id :: back')
        ⟨⟨back, place⟩, runs⟩ (fair.finishes n other runs)
        (by
          rintro k ⟨⟨back, place⟩, runs⟩
          have effect := sound.effect schedule k
          rcases effect.runs runs with still | here
          · rcases effect.claimants_cases with ⟨added, grown⟩ | popped
            · exact .inl ⟨⟨back ++ added, by rw [grown, place, List.append_assoc]; rfl⟩, still⟩
            · exact .inr (pops place popped)
          · rw [here] at effect
            exact .inr (pops place (effect.satisfies runs (by simp [place]))))
        (by
          rintro k ⟨⟨back, place⟩, runs⟩ here
          have effect := sound.effect schedule k
          rw [here] at effect
          exact pops place (effect.satisfies runs (by simp [place])))
      rcases moved with runs | ⟨front', back', less, place'⟩
      · exact ⟨m, le, runs⟩
      · obtain ⟨l, le', runs⟩ := ih _ less place' rfl
        exact ⟨l, Nat.le_trans le le', runs⟩

include sound fair in
theorem running_of_wanting {id : FlowId} (pool : 0 < journal.scheduler.poolSize) {n : Nat} {job : J}
    {queue : List J} (wants : (journal.after schedule n).lane id = some ⟨.wanting job, queue⟩) :
    ∃ m ≥ n, (running? ((journal.after schedule m).lane id)).isSome := by
  obtain ⟨m, le, waits | runs⟩ := leads
    (P := fun k => ∃ queue, (journal.after schedule k).lane id = some ⟨.wanting job, queue⟩)
    (Q := fun k => isWaiting ((journal.after schedule k).lane id) ∨
      (running? ((journal.after schedule k).lane id)).isSome)
    ⟨queue, wants⟩ (fair.advances n id (by simp [wants]))
    (by
      rintro k ⟨queue, wants⟩
      have step := (sound.after schedule k).laneStep (schedule k) id
      rw [wants] at step
      exact step.of_wanting)
    (by
      rintro k ⟨queue, wants⟩ here
      have effect := sound.effect schedule k
      rw [here] at effect
      exact effect.asks wants)
  · have listed := ((sound.after schedule m).permits.waiting id).mpr waits
    obtain ⟨front, back, place⟩ := List.append_of_mem listed
    obtain ⟨l, le', runs⟩ := running_of_waiting sound fair pool place
    exact ⟨l, Nat.le_trans le le', runs⟩
  · exact ⟨m, le, runs⟩

include sound fair in
theorem running_of_unstarted {id : FlowId} (pool : 0 < journal.scheduler.poolSize) {n : Nat}
    (more : unstarted ((journal.after schedule n).lane id) ≠ []) :
    ∃ m ≥ n, (running? ((journal.after schedule m).lane id)).isSome := by
  cases found : (journal.after schedule n).lane id with
  | none => simp [found, unstarted] at more
  | some lane =>
      rcases lane with ⟨phase, queue⟩
      have looks (looking : phase = .idle ∨ phase = .closing) (nonempty : queue ≠ []) :
          ∃ m ≥ n, (running? ((journal.after schedule m).lane id)).isSome := by
        obtain ⟨job, queue, rfl⟩ := List.exists_cons_of_ne_nil nonempty
        obtain ⟨m, le, queue, wants⟩ := leads
          (P := fun k => ∃ queue, (journal.after schedule k).lane id = some ⟨phase, job :: queue⟩)
          (Q := fun k => ∃ queue, (journal.after schedule k).lane id = some ⟨.wanting job, queue⟩)
          ⟨queue, found⟩ (fair.advances n id (by simp [found]))
          (by
            rintro k ⟨queue, found⟩
            have step := (sound.after schedule k).laneStep (schedule k) id
            rw [found] at step
            exact step.of_looking looking)
          (by
            rintro k ⟨queue, found⟩ here
            have effect := sound.effect schedule k
            rw [here] at effect
            exact ⟨queue, effect.fetches looking found⟩)
        obtain ⟨l, le', runs⟩ := running_of_wanting sound fair pool wants
        exact ⟨l, Nat.le_trans le le', runs⟩
      cases phase with
      | idle => exact looks (.inl rfl) (by simpa [found, unstarted] using more)
      | closing => exact looks (.inr rfl) (by simpa [found, unstarted] using more)
      | wanting job => exact running_of_wanting sound fair pool found
      | waiting job =>
          have listed := ((sound.after schedule n).permits.waiting id).mpr (congrArg isWaiting found)
          obtain ⟨front, back, place⟩ := List.append_of_mem listed
          exact running_of_waiting sound fair pool place
      | running job => exact ⟨n, Nat.le_refl n, by rw [found]; rfl⟩
      | dead =>
          have alive := (sound.after schedule n).permits.alive id
          cases (congrArg isDead found).symm.trans alive

include sound fair in
theorem ends_of_accepted (pool : 0 < journal.scheduler.poolSize) (id : FlowId) (n count : Nat)
    (le : count ≤ ((journal.after schedule n).accepted id).length) :
    ∃ m ≥ n, count ≤ ((journal.after schedule m).ended id).length := by
  induction count with
  | zero => exact ⟨n, Nat.le_refl n, Nat.zero_le _⟩
  | succ count ih =>
      obtain ⟨m, later, reached⟩ := ih (by omega)
      have sound' := sound.after schedule m
      by_cases more : count < ((journal.after schedule m).ended id).length
      · exact ⟨m, later, more⟩
      have grown : ((journal.after schedule n).accepted id).length ≤
          ((journal.after schedule m).accepted id).length := (accepted_le id later).length_le
      have unfinished : running? ((journal.after schedule m).lane id) ≠ none ∨
          unstarted ((journal.after schedule m).lane id) ≠ [] := by
        by_contra none
        rw [not_or, not_not, not_not] at none
        have all := sound'.started id
        rw [sound'.ended id, none.1, none.2] at all
        have := congrArg List.length all
        simp at this
        omega
      obtain ⟨l, later', runs⟩ : ∃ l ≥ m, (running? ((journal.after schedule l).lane id)).isSome := by
        rcases unfinished with runs | unstarted
        · exact ⟨m, Nat.le_refl m, Option.isSome_iff_ne_none.mpr runs⟩
        · exact running_of_unstarted sound fair pool unstarted
      obtain ⟨k, later'', ended⟩ := ends_of_running sound fair runs
        (Nat.le_trans reached (ended_le id later'))
      exact ⟨k, by omega, ended⟩

include sound fair in
/-- Every accepted job ends, and those of a flow in their order. -/
theorem ends_all (pool : 0 < journal.scheduler.poolSize) (id : FlowId) (n : Nat) :
    ∃ m ≥ n, (journal.after schedule n).accepted id <+: (journal.after schedule m).ended id := by
  obtain ⟨m, later, enough⟩ := ends_of_accepted sound fair pool id n _ (Nat.le_refl _)
  have sound' := sound.after schedule m
  have whole : (journal.after schedule m).ended id <+: (journal.after schedule m).accepted id := by
    rw [sound'.started, sound'.ended, List.append_assoc]
    exact List.prefix_append _ _
  exact ⟨m, later, List.prefix_of_prefix_length_le (accepted_le id later) whole enough⟩

end Liveness

theorem Sound.orderly (sound : journal.Sound) {poolSize : Nat}
    (size : journal.scheduler.poolSize = max poolSize 1) : journal.Orderly poolSize where
  single := sound.ended
  lossless := sound.started
  bounded := by
    have total := sound.permits.total
    omega
  drained := sound.drained

end Journal

open Journal in
/-- The lanes of a scheduler work as they should, whatever a schedule does: jobs of a flow run one at a
time in the order in which they were accepted, no job is lost or started twice, no more jobs run than the
pool has permits, and nothing is accepted after a shutdown began. In a fair schedule every accepted job
ends. -/
theorem single_flight (poolSize : Nat) (schedule : Nat → Move J) :
    (∀ n, ((blank poolSize).after schedule n).Orderly poolSize) ∧
    (∀ m n, schedule m = .shutdown → m ≤ n →
      ((blank poolSize).after schedule n).accepted = ((blank poolSize).after schedule m).accepted) ∧
    ((blank poolSize).Fair schedule → ∀ id n, ∃ m ≥ n,
      ((blank poolSize).after schedule n).accepted id <+: ((blank poolSize).after schedule m).ended id) := by
  have sound := sound_blank (J := J) poolSize
  refine ⟨fun n => (sound.after schedule n).orderly (sound.poolSize_after schedule n),
    fun m n began le => funext (sound.accepted_after began le), fun fair id n => ?_⟩
  have pool : 0 < (blank (J := J) poolSize).scheduler.poolSize := Nat.le_max_right _ _
  exact ends_all sound fair pool id n

/-- Jobs are submitted one after the other, and then every flow has its turn, over and over again. -/
def roundRobin (jobs : List (FlowId × J)) (n : Nat) : Move J :=
  match jobs[n]? with
  | some (id, job) => .submit id job
  | none =>
    let turn := n - jobs.length
    if turn % 2 = 0 then .advance ⟨.ofNat 128 (turn / 2)⟩ else .finish ⟨.ofNat 128 (turn / 2)⟩

theorem fair_roundRobin (journal : Journal J) (jobs : List (FlowId × J)) :
    journal.Fair (roundRobin jobs) := by
  have flow (other : FlowId) (n : Nat) :
      (⟨.ofNat 128 (other.value.toNat + 2 ^ 128 * n)⟩ : FlowId) = other := by
    refine congrArg FlowId.mk (BitVec.eq_of_toNat_eq ?_)
    rw [BitVec.toNat_ofNat, Nat.add_mul_mod_self_left, Nat.mod_eq_of_lt other.value.isLt]
  have later (turn : Nat) : jobs[jobs.length + turn]? = none :=
    List.getElem?_eq_none (Nat.le_add_right _ _)
  -- The turn of a flow that begins after `n` turns, counted in pairs.
  constructor
  · intro n other _
    have half : 2 * (other.value.toNat + 2 ^ 128 * n) / 2 = other.value.toNat + 2 ^ 128 * n := by omega
    refine ⟨jobs.length + 2 * (other.value.toNat + 2 ^ 128 * n), by omega, ?_⟩
    simp only [roundRobin, later, Nat.add_sub_cancel_left]
    rw [if_pos (by omega), half, flow]
  · intro n other _
    have half : (2 * (other.value.toNat + 2 ^ 128 * n) + 1) / 2 = other.value.toNat + 2 ^ 128 * n := by
      omega
    refine ⟨jobs.length + (2 * (other.value.toNat + 2 ^ 128 * n) + 1), by omega, ?_⟩
    simp only [roundRobin, later, Nat.add_sub_cancel_left]
    rw [if_neg (by omega), half, flow]

open Journal in
/-- Two jobs of one flow, and one of another flow between them, share a single permit: those of the one
flow end in the order in which they were submitted, and the other one ends too. -/
theorem single_flight_of_roundRobin :
    let jobs := [(⟨7⟩, "first"), (⟨8⟩, "other"), (⟨7⟩, "second")]
    let journal := (blank 1).after (roundRobin jobs)
    (∃ m ≥ 3, ["first", "second"] <+: (journal m).ended ⟨7⟩) ∧
      ∃ m ≥ 3, ["other"] <+: (journal m).ended ⟨8⟩ := by
  intro jobs journal
  have ends := (single_flight 1 (roundRobin jobs)).2.2 (fair_roundRobin _ _)
  exact ⟨ends ⟨7⟩ 3, ends ⟨8⟩ 3⟩

end DurableFlow.Scheduler
