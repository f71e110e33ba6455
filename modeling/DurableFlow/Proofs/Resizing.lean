import Mathlib.Algebra.GroupWithZero.Nat
import Mathlib.Data.List.Perm.Basic
import DurableFlow.Proofs.Permits

/-! # A pool that is resized

A pool grows at once, but shrinks only as jobs end: the permits that are to go are claimed behind the lanes
that wait. Until they are there, more permits are about than the pool is large. Every change keeps account
of them, `Scheduler.Balances`, and so does a run, `Scheduler.Pool.Accounted`. What is still to be withdrawn
when the pool grows again comes on top of its new size.
-/

namespace DurableFlow

/-- The flow whose lane makes a claim. -/
def Claimant.lane? : Claimant → Option FlowId
  | .lane id => some id
  | .withdrawal => none

@[simp] theorem Claimant.lane?_lane (id : FlowId) : (Claimant.lane id).lane? = some id := rfl

@[simp] theorem Claimant.lane?_withdrawal : Claimant.withdrawal.lane? = none := rfl

/-- The permits that a claim still lacks for a withdrawal. -/
def Claim.due : Claim → Nat
  | ⟨.lane _, _⟩ => 0
  | ⟨.withdrawal, missing⟩ => missing

@[simp] theorem Claim.due_lane (id : FlowId) (missing : Nat) :
    (Claim.mk (.lane id) missing).due = 0 := rfl

@[simp] theorem Claim.due_withdrawal (missing : Nat) :
    (Claim.mk .withdrawal missing).due = missing := rfl

/-- The permits that a turn is to withdraw. -/
def Turn.due : Turn → Nat
  | .lane _ => 0
  | .withdraw permits => permits

namespace Scheduler

variable {J : Type} {s : Scheduler J}

/-- The permits that are still to be withdrawn. -/
def outstanding (s : Scheduler J) : Nat :=
  (s.claims.map Claim.due).sum + (s.ready.map Turn.due).sum

theorem claimants_eq (s : Scheduler J) : s.claimants = s.claims.filterMap (·.claimant.lane?) := rfl

/-- Lanes claim one permit each. -/
def Single (claims : List Claim) : Prop :=
  ∀ claim ∈ claims, claim.claimant.lane?.isSome → claim.missing = 1

/-- Permits are handed out to claims: some are left, some claimants are served, and some claims are not. -/
structure Serves (permits : Nat) (claims : List Claim) (left : Nat) (served : List Claimant)
    (unserved : List Claim) : Prop where
  single : Single unserved
  order : claims.filterMap (·.claimant.lane?) =
    served.filterMap Claimant.lane? ++ unserved.filterMap (·.claimant.lane?)
  total : (claims.map Claim.due).sum + (served.filterMap Claimant.lane?).length + left =
    permits + (unserved.map Claim.due).sum
  le : (unserved.map Claim.due).sum ≤ (claims.map Claim.due).sum

theorem serve_serves (permits : Nat) {claims : List Claim} (single : Single claims) :
    Serves permits claims (serve permits claims).1 (serve permits claims).2.1
      (serve permits claims).2.2 := by
  induction claims generalizing permits with
  | nil => exact ⟨single, rfl, by simp [serve], Nat.le_refl _⟩
  | cons claim rest ih =>
      obtain ⟨first, others⟩ := List.forall_mem_cons.mp single
      rcases claim with ⟨claimant, missing⟩
      have more := ih (permits - missing) others
      simp only [serve]
      generalize serve (permits - missing) rest = again at more ⊢
      rcases again with ⟨less, next, later⟩
      obtain ⟨singles, order, total, le⟩ := more
      simp only at order total le
      by_cases enough : missing ≤ permits
      · simp only [enough, if_true]
        cases claimant with
        | lane id =>
            obtain rfl : missing = 1 := first rfl
            exact ⟨singles, by simp [order], by simp; omega, by simpa using le⟩
        | withdrawal =>
            exact ⟨singles, by simpa [List.filterMap_cons] using order,
              by simp [List.filterMap_cons]; omega, by simp; omega⟩
      · simp only [enough, if_false]
        cases claimant with
        | lane id =>
            -- A lane claims a single permit, so there was none.
            obtain rfl : missing = 1 := first rfl
            obtain rfl : permits = 0 := by omega
            exact ⟨single, rfl, by simp, Nat.le_refl _⟩
        | withdrawal =>
            have whole : Single (⟨.withdrawal, missing - permits⟩ :: rest) :=
              List.forall_mem_cons.mpr ⟨fun lane => absurd lane Bool.false_ne_true, others⟩
            exact ⟨whole, rfl, by simp; omega, by simp⟩

/-- Lanes that have claims are waiting, and claim one permit each. -/
structure Queued (s : Scheduler J) : Prop where
  single : Single s.claims
  nodup : s.claimants.Nodup
  waiting : ∀ id ∈ s.claimants, isWaiting (s.lanes.get? id)

theorem slots_putLane (s : Scheduler J) (id : FlowId) (lane : Lane J) :
    slots (s.putLane id lane).lanes + held (s.lanes.get? id) = slots s.lanes + held (some lane) := by
  have inserted := slots_insert s.lanes id lane
  have erased := slots_erase s.lanes id
  simp only [putLane]
  omega

/-- What comes of a scheduler when some of its lanes are given a permit each. -/
structure Unblocks (s : Scheduler J) (ids : List FlowId) (after : Scheduler J) : Prop where
  poolSize : after.poolSize = s.poolSize
  free : after.free = s.free
  claims : after.claims = s.claims
  due : (after.ready.map Turn.due).sum = (s.ready.map Turn.due).sum
  slots : slots after.lanes = slots s.lanes + ids.length
  others : ∀ id ∉ ids, after.lanes.get? id = s.lanes.get? id

theorem Unblocks.trans {ids others : List FlowId} {between after : Scheduler J}
    (first : Unblocks s ids between) (second : Unblocks between others after) :
    Unblocks s (ids ++ others) after where
  poolSize := second.poolSize.trans first.poolSize
  free := second.free.trans first.free
  claims := second.claims.trans first.claims
  due := second.due.trans first.due
  slots := by rw [second.slots, first.slots, List.length_append, Nat.add_assoc]
  others id missing := by
    rw [List.mem_append, not_or] at missing
    exact (second.others id missing.2).trans (first.others id missing.1)

theorem unblock_lane {id : FlowId} (waits : isWaiting (s.lanes.get? id)) :
    Unblocks s [id] (s.unblock (.lane id)) := by
  unfold isWaiting at waits
  split at waits
  next job queue found =>
    have unblocked : s.unblock (.lane id) =
        { s.putLane id ⟨.running job, queue⟩ with ready := s.ready ++ [.lane id] } := by
      simp only [unblock, found]
    have slots := slots_putLane s id ⟨.running job, queue⟩
    rw [found] at slots
    rw [unblocked]
    refine ⟨rfl, rfl, rfl, by simp [Turn.due], slots, fun other missing => ?_⟩
    have differs : other ≠ id := fun same => missing (List.mem_singleton.mpr same)
    exact (get?_putLane s id other _).trans (if_neg differs)
  next => cases waits

theorem unblocks (served : List Claimant) (nodup : (served.filterMap Claimant.lane?).Nodup)
    (waiting : ∀ id ∈ served.filterMap Claimant.lane?, isWaiting (s.lanes.get? id)) :
    Unblocks s (served.filterMap Claimant.lane?) (served.foldl unblock s) := by
  induction served generalizing s with
  | nil => exact ⟨rfl, rfl, rfl, rfl, rfl, fun _ _ => rfl⟩
  | cons claimant rest ih =>
      cases claimant with
      | withdrawal => exact ih nodup waiting
      | lane id =>
          rw [List.filterMap_cons_some (Claimant.lane?_lane id)] at nodup waiting ⊢
          obtain ⟨apart, nodup⟩ := List.nodup_cons.mp nodup
          obtain ⟨first, others⟩ := List.forall_mem_cons.mp waiting
          have given := unblock_lane first
          -- The other lanes still wait: no lane is served twice.
          have still : ∀ other ∈ rest.filterMap Claimant.lane?,
              isWaiting ((s.unblock (.lane id)).lanes.get? other) := by
            intro other member
            have differs : other ∉ [id] := fun same => apart (List.mem_singleton.mp same ▸ member)
            rw [given.others other differs]
            exact others other member
          exact given.trans (ih nodup still)

/-- Some permits are added to the pool, and what is still to be withdrawn takes the rest of the
difference. -/
structure Gains (permits : Nat) (s after : Scheduler J) : Prop where
  poolSize : after.poolSize = s.poolSize
  queued : after.Queued
  total : after.free + slots after.lanes + s.outstanding =
    s.free + slots s.lanes + permits + after.outstanding
  le : after.outstanding ≤ s.outstanding

theorem Queued.grant (queued : s.Queued) (permits : Nat) : Gains permits s (s.grant permits) := by
  have serves := serve_serves permits queued.single
  unfold Scheduler.grant
  generalize serve permits s.claims = result at serves ⊢
  obtain ⟨left, served, unserved⟩ := result
  obtain ⟨single, order, total, le⟩ := serves
  simp only at single order total le ⊢
  have nodup := queued.nodup
  have waiting := queued.waiting
  rw [claimants_eq, order] at nodup waiting
  obtain ⟨first, rest, apart⟩ := List.nodup_append.mp nodup
  obtain ⟨poolSize, free, claims, due, slots, others⟩ :=
    unblocks (s := { s with free := s.free + left, claims := unserved }) served first
      fun id member => waiting id (List.mem_append_left _ member)
  simp only at poolSize free claims due slots others
  refine ⟨poolSize, ⟨?_, ?_, fun id member => ?_⟩, ?_, ?_⟩
  · rwa [claims]
  · rwa [claimants_eq, claims]
  · rw [claimants_eq, claims] at member
    rw [others id fun other => apart id other id member rfl]
    exact waiting id (List.mem_append_right _ member)
  · simp only [outstanding]
    rw [free, slots, claims, due]
    omega
  · simp only [outstanding]
    rw [claims, due]
    omega

theorem Gains.refl (queued : s.Queued) : Gains 0 s s := ⟨rfl, queued, rfl, Nat.le_refl _⟩

theorem Queued.not_mem (queued : s.Queued) {id : FlowId} (still : isWaiting (s.lanes.get? id) = false) :
    id ∉ s.claimants := by
  intro member
  rw [queued.waiting id member] at still
  cases still

theorem Queued.putLane (queued : s.Queued) {id : FlowId} {lane : Lane J} (free : Nat) (ready : List Turn)
    (waits : id ∈ s.claimants → isWaiting (some lane)) :
    Queued { s.putLane id lane with free, ready } where
  single := queued.single
  nodup := queued.nodup
  waiting other member := by
    refine (congrArg isWaiting (get?_putLane s id other lane)).trans ?_
    split
    next here => exact waits (here ▸ member)
    next => exact queued.waiting other member

theorem Gains.of_putLane (queued : s.Queued) {id : FlowId} {lane : Lane J} {free : Nat}
    {ready : List Turn} (waits : id ∈ s.claimants → isWaiting (some lane))
    (balance : free + held (some lane) = s.free + held (s.lanes.get? id))
    (due : (ready.map Turn.due).sum = (s.ready.map Turn.due).sum) :
    Gains 0 s { s.putLane id lane with free, ready } where
  poolSize := rfl
  queued := queued.putLane free ready waits
  total := by
    have slots := slots_putLane s id lane
    simp only [outstanding, due]
    change free + Scheduler.slots (s.putLane id lane).lanes + _ = _
    simp only [Scheduler.putLane] at slots ⊢
    omega
  le := by
    simp only [outstanding, due]
    exact Nat.le_refl _

theorem Gains.of_stop (queued : s.Queued) {id : FlowId} {job : J} {queue : List J} {lane : Lane J}
    (found : s.lanes.get? id = some ⟨.running job, queue⟩) (stopped : held (some lane) = 0) :
    Gains 0 s ((s.putLane id lane).grant 1) := by
  have claimless : id ∉ s.claimants := queued.not_mem (by rw [found]; rfl)
  have between : Queued (s.putLane id lane) :=
    queued.putLane s.free s.ready fun member => absurd member claimless
  have gains := between.grant 1
  have slots := slots_putLane s id lane
  have ran : held (s.lanes.get? id) = 1 := by rw [found]; rfl
  refine ⟨gains.poolSize, gains.queued, ?_, gains.le⟩
  have total := gains.total
  change _ + s.outstanding = s.free + _ + 1 + _ at total
  omega

theorem Queued.erase (queued : s.Queued) {id : FlowId} (claimless : id ∉ s.claimants) :
    Queued { s with lanes := s.lanes.erase id } where
  single := queued.single
  nodup := queued.nodup
  waiting other member := by
    have apart : other ≠ id := fun same => claimless (same ▸ member)
    exact (congrArg isWaiting (SortedMap.get?_erase_of_ne s.lanes apart)).trans
      (queued.waiting other member)

/-- Take up the withdrawal that is at a place among the turns. -/
def collect (s : Scheduler J) (place : Nat) : Scheduler J :=
  match s.ready[place]? with
  | some (.withdraw permits) => { s with ready := s.ready.eraseIdx place }.withdraw permits
  | _ => s

namespace Queued

theorem submit (queued : s.Queued) (id : FlowId) (job : J) : Gains 0 s (s.move (.submit id job)) := by
  have fresh (idle : isWaiting (s.lanes.get? id) = false) (slotless : held (s.lanes.get? id) = 0) :
      Gains 0 s { s.putLane id ⟨.idle, [job]⟩ with ready := s.ready ++ [.lane id] } :=
    .of_putLane queued (fun member => absurd member (queued.not_mem idle)) (by rw [slotless]; rfl)
      (by simp [Turn.due])
  simp only [move, Scheduler.submit]
  cases s.accepting with
  | false => exact .refl queued
  | true =>
      cases found : s.lanes.get? id with
      | none => exact fresh (by rw [found]; rfl) (by rw [found]; rfl)
      | some lane =>
          rcases lane with ⟨phase, queue⟩
          have kept : isWaiting (some ⟨phase, queue ++ [job]⟩) = isWaiting (s.lanes.get? id) ∧
              held (some ⟨phase, queue ++ [job]⟩) = held (s.lanes.get? id) := by
            rw [found]
            cases phase <;> exact ⟨rfl, rfl⟩
          have longer : Gains 0 s (s.putLane id ⟨phase, queue ++ [job]⟩) :=
            .of_putLane queued (fun member => kept.1 ▸ queued.waiting id member) (by rw [kept.2]) rfl
          cases phase with
          | dead => exact fresh (by rw [found]; rfl) (by rw [found]; rfl)
          | _ => exact longer

theorem acquire (queued : s.Queued) {id : FlowId} {job : J} {queue : List J}
    (found : s.lanes.get? id = some ⟨.wanting job, queue⟩) : Gains 0 s (s.acquire id) := by
  have claimless : id ∉ s.claimants := queued.not_mem (by rw [found]; rfl)
  simp only [Scheduler.acquire, found]
  split
  next free =>
    refine .of_putLane queued (fun member => absurd member claimless) ?_ rfl
    rw [found]
    change s.free - 1 + 1 = s.free + 0
    omega
  next scarce =>
    have none : s.free = 0 := by omega
    have order : claimants { s.putLane id ⟨.waiting job, queue⟩ with
        free := 0, claims := s.claims ++ [⟨.lane id, 1⟩] } = s.claimants ++ [id] := by
      simp [claimants]
    have slots : slots (s.putLane id ⟨.waiting job, queue⟩).lanes = slots s.lanes := by
      have slots := slots_putLane s id ⟨.waiting job, queue⟩
      rwa [found] at slots
    simp only [claim, Scheduler.putLane, none] at order slots ⊢
    refine ⟨rfl, ⟨?_, ?_, fun other member => ?_⟩, ?_, ?_⟩
    · exact List.forall_mem_append.mpr ⟨queued.single, by simp⟩
    · rw [order]
      exact List.nodup_append_comm.mp (by simp [claimless, queued.nodup])
    · rw [order, List.mem_append, List.mem_singleton] at member
      refine (congrArg isWaiting (get?_putLane s id other _)).trans ?_
      split
      next => rfl
      next differs => exact queued.waiting other (member.resolve_right differs)
    · simp [outstanding, none, slots]
    · simp [outstanding]

theorem advance (queued : s.Queued) (id : FlowId) : Gains 0 s (s.move (.advance id)) := by
  have apart (idle : isWaiting (s.lanes.get? id) = false) {lane : Lane J} (member : id ∈ s.claimants) :
      isWaiting (some lane) := absurd member (queued.not_mem idle)
  simp only [move, Scheduler.advance, phase?]
  cases found : s.lanes.get? id with
  | none =>
      simp only [Option.map_none, fetch, found]
      exact .refl queued
  | some lane =>
      rcases lane with ⟨phase, queue⟩
      cases phase with
      | wanting job => exact queued.acquire found
      | idle =>
          simp only [Option.map_some, fetch, found]
          cases queue with
          | nil => exact .of_putLane queued (apart (by rw [found]; rfl)) (by rw [found]; rfl) rfl
          | cons job queue => exact .of_putLane queued (apart (by rw [found]; rfl)) (by rw [found]; rfl) rfl
      | closing =>
          simp only [Option.map_some, fetch, found]
          cases queue with
          | cons job queue => exact .of_putLane queued (apart (by rw [found]; rfl)) (by rw [found]; rfl) rfl
          | nil =>
              have erased := slots_erase s.lanes id
              rw [found] at erased
              refine ⟨rfl, queued.erase (queued.not_mem (by rw [found]; rfl)), ?_, Nat.le_refl _⟩
              exact congrArg (fun slots => s.free + slots + s.outstanding) erased
      | _ =>
          simp only [Option.map_some, fetch, found]
          exact .refl queued

theorem finish (queued : s.Queued) (id : FlowId) : Gains 0 s (s.move (.finish id)) := by
  simp only [move, Scheduler.finish]
  split
  next found => exact .of_stop queued found rfl
  next => exact .refl queued

theorem move (queued : s.Queued) (move : Move J) : Gains 0 s (s.move move) := by
  cases move with
  | submit id job => exact queued.submit id job
  | advance id => exact queued.advance id
  | finish id => exact queued.finish id
  | shutdown => exact ⟨rfl, ⟨queued.single, queued.nodup, queued.waiting⟩, rfl, Nat.le_refl _⟩

theorem crash (queued : s.Queued) (id : FlowId) : Gains 0 s (s.crash id) := by
  unfold Scheduler.crash
  split
  next found => exact .of_stop queued found rfl
  next => exact .refl queued

/-- What is free is withdrawn, and the rest of a withdrawal queues behind the claims of the lanes. -/
theorem collect (queued : s.Queued) (place : Nat) : Gains 0 s (s.collect place) := by
  unfold Scheduler.collect
  split
  next permits found =>
    obtain ⟨within, here⟩ := List.getElem?_eq_some_iff.mp found
    have due : permits + ((s.ready.eraseIdx place).map Turn.due).sum = (s.ready.map Turn.due).sum := by
      have turns := ((List.getElem_cons_eraseIdx_perm within).map Turn.due).sum_nat
      rwa [here] at turns
    unfold withdraw
    split
    next enough =>
      simp only at enough
      refine ⟨rfl, ⟨queued.single, queued.nodup, queued.waiting⟩, ?_, ?_⟩
      all_goals
        simp only [outstanding]
        omega
    next scarce =>
      simp only at scarce
      have order : claimants ({ s with ready := s.ready.eraseIdx place }.claim .withdrawal permits) =
          s.claimants := by
        simp [claimants, claim]
      refine ⟨rfl, ⟨?_, ?_, ?_⟩, ?_, ?_⟩
      · exact List.forall_mem_append.mpr ⟨queued.single, by simp⟩
      · rw [order]
        exact queued.nodup
      · rw [order]
        exact queued.waiting
      all_goals
        simp only [outstanding, claim, List.map_append, List.sum_append, List.map_cons, List.map_nil,
          List.sum_cons, List.sum_nil, Claim.due_withdrawal]
        omega
  next => exact .refl queued

theorem due_filter_claims (claims : List Claim) :
    ((claims.filter (·.claimant.isWithdrawal)).map Claim.due).sum = (claims.map Claim.due).sum := by
  induction claims with
  | nil => rfl
  | cons claim rest ih =>
      rcases claim with ⟨claimant, missing⟩
      cases claimant with
      | lane id => exact ih.trans (by simp)
      | withdrawal => exact congrArg (missing + ·) ih

theorem due_filter_ready (ready : List Turn) :
    ((ready.filter Turn.isWithdrawal).map Turn.due).sum = (ready.map Turn.due).sum := by
  induction ready with
  | nil => rfl
  | cons turn rest ih =>
      cases turn with
      | lane id => exact ih.trans (by simp [Turn.due])
      | withdraw permits => exact congrArg (permits + ·) ih

theorem halt (s : Scheduler J) : Gains 0 s s.halt := by
  have laneless : ∀ claim ∈ s.claims.filter (·.claimant.isWithdrawal), claim.claimant.lane? = none := by
    rintro ⟨_ | _, missing⟩ member
    · cases (List.mem_filter.mp member).2
    · rfl
  let between : Scheduler J :=
    { s with
      accepting := false
      lanes := {}
      claims := s.claims.filter (·.claimant.isWithdrawal)
      ready := s.ready.filter Turn.isWithdrawal }
  have unclaimed : between.claimants = [] := List.filterMap_eq_nil_iff.mpr laneless
  have queued : Queued between := by
    refine ⟨fun claim member some => ?_, ?_, ?_⟩
    · rw [laneless claim member] at some
      cases some
    · rw [unclaimed]
      exact .nil
    · rw [unclaimed]
      exact nofun
  have gains := queued.grant (slots s.lanes)
  have same : between.outstanding = s.outstanding := by
    simp only [outstanding, between, due_filter_claims, due_filter_ready]
  have total := gains.total
  have le := gains.le
  rw [same] at total le
  refine ⟨gains.poolSize, gains.queued, ?_, le⟩
  change _ = s.free + 0 + slots s.lanes + _ at total
  simp only [Nat.add_zero] at total ⊢
  exact total

end Queued

/-- Something that happens to a scheduler whose pool may be resized. -/
inductive Change (J : Type) where
  | move (move : Move J)
  /-- The running job of a flow crashes. -/
  | crash (id : FlowId)
  | resize (size : Nat)
  /-- The withdrawal that is at a place among the turns is taken up. -/
  | collect (place : Nat)
  | halt

def change (s : Scheduler J) : Change J → Scheduler J
  | .move move => s.move move
  | .crash id => s.crash id
  | .resize size => s.resize size
  | .collect place => s.collect place
  | .halt => s.halt

/-- The permits that the pool is to lose in a change and no withdrawal asks for. -/
def spared (s after : Scheduler J) : Nat := s.poolSize - after.poolSize - maxWithdrawal

/-- What a change does to the count of permits. -/
structure Balances (s after : Scheduler J) : Prop where
  queued : after.Queued
  total : after.free + slots after.lanes + s.poolSize + s.outstanding =
    s.free + slots s.lanes + after.poolSize + after.outstanding + spared s after
  le : after.poolSize + after.outstanding + spared s after ≤
    max s.poolSize after.poolSize + s.outstanding

theorem Gains.balances {after : Scheduler J} (gains : Gains 0 s after) : Balances s after := by
  have total := gains.total
  have le := gains.le
  refine ⟨gains.queued, ?_, ?_⟩
  all_goals
    simp only [spared, gains.poolSize]
    omega

theorem Queued.resize (queued : s.Queued) (size : Nat) : Balances s (s.resize size) := by
  simp only [Scheduler.resize]
  split
  next => exact (Gains.refl queued).balances
  split
  next same grows =>
    have gains := queued.grant (max size 1 - s.poolSize)
    have total := gains.total
    have le := gains.le
    refine ⟨⟨gains.queued.single, gains.queued.nodup, gains.queued.waiting⟩, ?_, ?_⟩
    all_goals
      simp only [spared, outstanding] at total le ⊢
      omega
  next same shrinks =>
    refine ⟨⟨queued.single, queued.nodup, queued.waiting⟩, ?_, ?_⟩
    all_goals
      simp only [spared, outstanding, List.map_append, List.sum_append, List.map_cons, List.map_nil,
        List.sum_cons, List.sum_nil, Turn.due]
      omega

theorem Queued.change (queued : s.Queued) (change : Change J) : Balances s (s.change change) := by
  cases change with
  | move move => exact (queued.move move).balances
  | crash id => exact (queued.crash id).balances
  | resize size => exact queued.resize size
  | collect place => exact (queued.collect place).balances
  | halt => exact (Queued.halt s).balances

/-- A scheduler with the history of the size of its pool. -/
structure Pool (J : Type) where
  scheduler : Scheduler J
  /-- The largest size that was set so far. -/
  largest : Nat
  /-- The permits above the size of the pool that no withdrawal has asked for. -/
  spared : Nat
  /-- The most permits above the size of the pool that there were when it grew. -/
  overhang : Nat

namespace Pool

def new (poolSize : Nat) : Pool J :=
  let scheduler := Scheduler.new poolSize
  { scheduler, largest := scheduler.poolSize, spared := 0, overhang := 0 }

def next (pool : Pool J) (change : Change J) : Pool J :=
  let scheduler := pool.scheduler.change change
  let spared := pool.spared + Scheduler.spared pool.scheduler scheduler
  { scheduler
    largest := max pool.largest scheduler.poolSize
    spared
    overhang :=
      if pool.scheduler.poolSize < scheduler.poolSize then
        max pool.overhang (scheduler.outstanding + spared)
      else pool.overhang }

def run (pool : Pool J) (changes : List (Change J)) : Pool J := changes.foldl next pool

/-- The permits above the size of the pool are those that are still to be withdrawn and those that never
will be. -/
structure Accounted (pool : Pool J) : Prop where
  queued : pool.scheduler.Queued
  total : pool.scheduler.free + slots pool.scheduler.lanes =
    pool.scheduler.poolSize + pool.scheduler.outstanding + pool.spared
  reached : pool.scheduler.poolSize ≤ pool.largest
  within : pool.scheduler.poolSize + pool.scheduler.outstanding + pool.spared ≤
    pool.largest + pool.overhang

theorem accounted_new (poolSize : Nat) : Accounted (new poolSize : Pool J) where
  queued := ⟨nofun, .nil, nofun⟩
  total := rfl
  reached := Nat.le_refl _
  within := Nat.le_refl _

theorem Accounted.next {pool : Pool J} (accounted : pool.Accounted) (change : Change J) :
    (pool.next change).Accounted := by
  obtain ⟨queued, total, reached, within⟩ := accounted
  obtain ⟨queued, balance, le⟩ := queued.change change
  refine ⟨queued, ?_, Nat.le_max_right _ _, ?_⟩
  · simp only [Pool.next]
    omega
  · simp only [Pool.next]
    split
    all_goals omega

theorem Accounted.run {pool : Pool J} (accounted : pool.Accounted) (changes : List (Change J)) :
    (pool.run changes).Accounted := by
  induction changes generalizing pool with
  | nil => exact accounted
  | cons change rest ih => exact ih (accounted.next change)

theorem run_concat (pool : Pool J) (changes : List (Change J)) (change : Change J) :
    pool.run (changes ++ [change]) = (pool.run changes).next change := by
  simp [run]

/-- In a run, the pool grew at a point at which a number of permits above its size were there. -/
def GrewOver (pool : Pool J) (changes : List (Change J)) (permits : Nat) : Prop :=
  ∃ earlier change later, changes = earlier ++ change :: later ∧
    (pool.run earlier).scheduler.poolSize < ((pool.run earlier).next change).scheduler.poolSize ∧
    permits = ((pool.run earlier).next change).scheduler.outstanding +
      ((pool.run earlier).next change).spared

theorem overhang_cases (pool : Pool J) (changes : List (Change J)) :
    (pool.run changes).overhang = pool.overhang ∨
    pool.GrewOver changes (pool.run changes).overhang := by
  induction changes using List.reverseRecOn with
  | nil => exact .inl rfl
  | append_singleton changes change ih =>
      rw [run_concat]
      have before : ((pool.run changes).overhang = pool.overhang) ∨
          pool.GrewOver (changes ++ [change]) (pool.run changes).overhang :=
        ih.imp_right fun ⟨earlier, grew, later, split, rest⟩ =>
          ⟨earlier, grew, later ++ [change], by simp [split], rest⟩
      by_cases grows : (pool.run changes).scheduler.poolSize <
          ((pool.run changes).next change).scheduler.poolSize
      · have now : ((pool.run changes).next change).overhang = max (pool.run changes).overhang
            (((pool.run changes).next change).scheduler.outstanding +
              ((pool.run changes).next change).spared) := if_pos grows
        rw [now]
        rcases Nat.le_total (((pool.run changes).next change).scheduler.outstanding +
          ((pool.run changes).next change).spared) (pool.run changes).overhang with less | more
        · rwa [Nat.max_eq_left less]
        · exact .inr ⟨changes, change, [], rfl, grows, Nat.max_eq_right more⟩
      · have kept : ((pool.run changes).next change).overhang = (pool.run changes).overhang := if_neg grows
        rwa [kept]

/-- However a pool is resized while lanes come and go, all permits are accounted for. The jobs that run are
never more than the largest size that was set and the permits that were still to be withdrawn at some point
at which the pool grew. -/
theorem within_overhang (poolSize : Nat) (changes : List (Change J)) :
    let pool := (new poolSize).run changes
    pool.scheduler.free + slots pool.scheduler.lanes =
      pool.scheduler.poolSize + pool.scheduler.outstanding + pool.spared ∧
    slots pool.scheduler.lanes ≤ pool.largest + pool.overhang ∧
    (pool.overhang = 0 ∨ (new poolSize).GrewOver changes pool.overhang) := by
  have accounted := (accounted_new (J := J) poolSize).run changes
  refine ⟨accounted.total, ?_, overhang_cases (new poolSize) changes⟩
  have total := accounted.total
  have within := accounted.within
  omega

/-- A pool that shrinks and grows again while its jobs run has a permit too many until the withdrawal is
served, and a third job starts in a pool that was never larger than two. -/
theorem overrun_of_regrowth :
    let flows : List FlowId := [⟨1⟩, ⟨2⟩, ⟨3⟩]
    let pool := (new 2).run (flows.map (fun id => .move (.submit id ())) ++
      (flows ++ flows).map (fun id => .move (.advance id)) ++ [.resize 1, .collect 3, .resize 2])
    slots pool.scheduler.lanes = 3 ∧ pool.largest = 2 := by
  decide

end Pool

end Scheduler
end DurableFlow
