import DurableFlow.Config
import DurableFlow.Proofs.Stateful
import Mathlib.Algebra.Group.Nat.Defs
import Mathlib.Tactic.SplitIfs

/-! # Delays

Adding a duration to a time leads forwards or backwards as its sign says, also from within a leap
second, and of two durations forwards the longer one leads further. A configured delay is a word that
is read as a signed number of milliseconds: from the value 2^63 on it leads backwards.
-/

namespace DurableFlow

open Stateful

namespace Timestamp

theorem le_iff {a b : Timestamp} :
    a ≤ b ↔ a.second < b.second ∨ a.second = b.second ∧ a.nano ≤ b.nano := by
  change ¬ (b.second < a.second ∨ b.second = a.second ∧ b.nano < a.nano) ↔ _
  omega

theorem not_le_of_lt {a b : Timestamp} (lt : a < b) : ¬ b ≤ a := fun le => le lt

variable {t sum earlier later : Timestamp} {part part' : Nat}

theorem shift_forwards (t : Timestamp) (whole : Nat) (short : part < 1000) :
    t.shift (1000 * whole + part) =
      let nano : Int := t.nano % 1000000000 + part * 1000000
      if 1000000000 ≤ t.nano ∧ whole = 0 ∧ nano < 1000000000 then (t.second, 1000000000 + nano)
      else (t.second + whole + nano / 1000000000, nano % 1000000000) := by
  have bound : t.nano < 2000000000 := t.nano_lt
  have quotient : (1000 * whole + part : Int).tdiv 1000 = whole := by
    rw [Int.tdiv_eq_ediv_of_nonneg (by omega)]
    omega
  have remainder : (1000 * whole + part : Int).tmod 1000 = part := by
    rw [Int.tmod_eq_emod_of_nonneg (by omega)]
    omega
  unfold shift
  simp only [quotient, remainder, nanosPerSecond]
  split_ifs <;> ext <;> dsimp only at * <;> omega

theorem shift_backwards (t : Timestamp) (whole : Nat) (short : part < 1000) :
    t.shift (-(1000 * whole + part)) =
      let nano : Int := t.nano % 1000000000 - part * 1000000
      if t.nano < 1000000000 then (t.second - whole + nano / 1000000000, nano % 1000000000)
      else if whole = 0 then (t.second, 1000000000 + nano)
      else (t.second + 1 - whole + nano / 1000000000, nano % 1000000000) := by
  have bound : t.nano < 2000000000 := t.nano_lt
  have quotient : (-(1000 * whole + part) : Int).tdiv 1000 = -whole := by
    rw [Int.neg_tdiv, Int.tdiv_eq_ediv_of_nonneg (by omega)]
    omega
  have remainder : (-(1000 * whole + part) : Int).tmod 1000 = -part := by
    rw [Int.neg_tmod, Int.tmod_eq_emod_of_nonneg (by omega)]
    omega
  unfold shift
  simp only [quotient, remainder, nanosPerSecond]
  split_ifs <;> ext <;> dsimp only at * <;> omega

theorem millis_eq (n : Nat) : (n : Int) = 1000 * (n / 1000 : Nat) + (n % 1000 : Nat) := by omega

theorem rest_lt (n : Nat) : n % 1000 < 1000 := Nat.mod_lt n (by decide)

theorem shift_zero (t : Timestamp) : t.shift 0 = (t.second, (t.nano : Int)) := by
  have bound : t.nano < 2000000000 := t.nano_lt
  change t.shift (1000 * (0 : Nat) + (0 : Nat)) = _
  rw [shift_forwards t 0 (by decide)]
  dsimp only
  split_ifs <;> ext <;> dsimp only <;> omega

theorem shift_nonneg (t : Timestamp) (millis : Int) : 0 ≤ (t.shift millis).2 := by
  obtain ⟨n, rfl | rfl⟩ := millis.eq_nat_or_neg
  all_goals rw [millis_eq n]
  · rw [shift_forwards _ _ (rest_lt n)]
    dsimp only
    split_ifs <;> dsimp only <;> omega
  · rw [shift_backwards _ _ (rest_lt n)]
    dsimp only
    split_ifs <;> dsimp only <;> omega

theorem shift_mono (t : Timestamp) (whole whole' : Nat) (short : part < 1000)
    (short' : part' < 1000) (le : 1000 * whole + part ≤ 1000 * whole' + part') :
    (t.shift (1000 * whole + part)).1 < (t.shift (1000 * whole' + part')).1 ∨
      (t.shift (1000 * whole + part)).1 = (t.shift (1000 * whole' + part')).1 ∧
        (t.shift (1000 * whole + part)).2 ≤ (t.shift (1000 * whole' + part')).2 := by
  have nonneg : 0 ≤ (t.nano : Int) % 1000000000 := by omega
  have less : (t.nano : Int) % 1000000000 < 1000000000 := by omega
  rw [shift_forwards t _ short, shift_forwards t _ short']
  generalize (t.nano : Int) % 1000000000 = nano at *
  dsimp only
  split_ifs <;> dsimp only <;> omega

theorem shift_lt (t : Timestamp) (whole : Nat) (short : part < 1000) (some : 0 < 1000 * whole + part) :
    (t.shift (-(1000 * whole + part))).1 < t.second ∨
      (t.shift (-(1000 * whole + part))).1 = t.second ∧
        (t.shift (-(1000 * whole + part))).2 < t.nano := by
  have bound : t.nano < 2000000000 := t.nano_lt
  -- Within a leap second the nanoseconds exceed their remainder by a whole second.
  have rest : t.nano < 1000000000 ∧ (t.nano : Int) % 1000000000 = t.nano ∨
      1000000000 ≤ t.nano ∧ (t.nano : Int) % 1000000000 = t.nano - 1000000000 := by omega
  rw [shift_backwards t _ short]
  generalize (t.nano : Int) % 1000000000 = nano at *
  dsimp only
  split_ifs <;> dsimp only <;> omega

theorem add_ok {millis : Int} (h : t.add millis = .ok sum) :
    sum.second = (t.shift millis).1 ∧ (sum.nano : Int) = (t.shift millis).2 := by
  have nonneg := t.shift_nonneg millis
  unfold add of? at h
  simp only at h
  split at h
  next found =>
    split at found
    · cases found
      cases h
      exact ⟨rfl, Int.toNat_of_nonneg nonneg⟩
    · cases found
  next => cases h

theorem add_mono {a b : Nat} (le : a ≤ b) (first : t.add a = .ok earlier)
    (second : t.add b = .ok later) : earlier ≤ later := by
  have mono := shift_mono t (a / 1000) (b / 1000) (rest_lt a) (rest_lt b) (by omega)
  rw [← millis_eq, ← millis_eq] at mono
  obtain ⟨secondA, nanoA⟩ := add_ok first
  obtain ⟨secondB, nanoB⟩ := add_ok second
  rw [le_iff, secondA, secondB]
  omega

theorem le_add {a : Nat} (h : t.add a = .ok sum) : t ≤ sum := by
  have mono := shift_mono t 0 (a / 1000) (Nat.zero_lt_succ 999) (rest_lt a) (by omega)
  rw [← millis_eq, show (1000 * (0 : Nat) + (0 : Nat) : Int) = 0 from rfl, shift_zero] at mono
  obtain ⟨second, nano⟩ := add_ok h
  rw [le_iff, second]
  omega

theorem add_lt {a : Nat} (pos : 0 < a) (h : t.add (-a) = .ok sum) : sum < t := by
  have less := shift_lt t (a / 1000) (rest_lt a) (by omega)
  rw [← millis_eq] at less
  obtain ⟨second, nano⟩ := add_ok h
  change _ ∨ _
  rw [second]
  omega

end Timestamp

namespace Config

variable {config : Config} {now earlier later time : Timestamp} {millis shorter longer : UInt64}

/-- A configured delay that begins now leads to a time. -/
def Delays (millis : UInt64) (now due : Timestamp) : Prop := (do now.add (← delay millis)) = .ok due

theorem signed_eq (millis : UInt64) : millis.toInt64.toInt =
    if millis.toNat < 2 ^ 63 then (millis.toNat : Int) else -(2 ^ 64 - millis.toNat : Nat) := by
  have bound := millis.toNat_lt
  have signed : millis.toInt64.toInt = millis.toBitVec.toInt := rfl
  rw [signed, BitVec.toInt_eq_toNat_cond]
  change (if 2 * millis.toNat < 2 ^ 64 then (millis.toNat : Int)
    else millis.toNat - (2 ^ 64 : Nat)) = _
  split_ifs <;> omega

theorem Delays.add (delays : Delays millis now time) : now.add millis.toInt64.toInt = .ok time := by
  obtain ⟨signed, known, sum⟩ := bind_eq_ok.1 delays
  unfold delay duration at known
  split at known
  · cases known
  · cases known
    exact sum

/-- A delay leads backwards just if its number has the highest bit set. -/
theorem Delays.le_iff (delays : Delays millis now time) : now ≤ time ↔ millis.toNat < 2 ^ 63 := by
  have sum := delays.add
  rw [signed_eq] at sum
  split_ifs at sum with small
  · exact iff_of_true (Timestamp.le_add sum) small
  · have bound := millis.toNat_lt
    exact iff_of_false (Timestamp.not_le_of_lt (Timestamp.add_lt (by omega) sum)) small

theorem Delays.mono (first : Delays shorter now earlier) (le : shorter ≤ longer)
    (small : longer.toNat < 2 ^ 63) (second : Delays longer now later) : earlier ≤ later := by
  have le : shorter.toNat ≤ longer.toNat := UInt64.le_iff_toNat_le.1 le
  have first := first.add
  have second := second.add
  rw [signed_eq, if_pos (by omega)] at first
  rw [signed_eq, if_pos small] at second
  exact Timestamp.add_mono le first second

/-- What a configured delay that begins now leads to. -/
structure Due (millis : UInt64) (now due : Timestamp) : Prop where
  delays : Delays millis now due
  /-- It does not lie in the past just if the delay does not have the highest bit set. -/
  ahead : now ≤ due ↔ millis.toNat < 2 ^ 63
  /-- Nor does a longer delay lead to an earlier time if it has not. -/
  longer : ∀ longer later, millis ≤ longer → longer.toNat < 2 ^ 63 → Delays longer now later →
    due ≤ later

theorem Delays.due (delays : Delays millis now time) : Due millis now time :=
  ⟨delays, delays.le_iff, fun _ _ le small later => delays.mono le small later⟩

theorem deadline_ok : config.deadline now = .ok (some time) ↔
    ∃ millis, config.suspensionTimeout = some millis ∧ Delays millis now time := by
  unfold deadline suspensionTimeout?
  cases config.suspensionTimeout with
  | none =>
      simp only [bind_eq_ok]
      constructor
      · rintro ⟨limit, ⟨⟩, ⟨⟩⟩
      · rintro ⟨millis, ⟨⟩, _⟩
  | some millis =>
      simp only [bind_eq_ok, map_eq_ok]
      constructor
      · rintro ⟨_, ⟨signed, known, rfl⟩, sum⟩
        obtain ⟨sum, added, same⟩ := bind_eq_ok.1 sum
        cases same
        exact ⟨millis, rfl, bind_eq_ok.2 ⟨signed, known, added⟩⟩
      · rintro ⟨_, ⟨⟩, delays⟩
        obtain ⟨signed, known, added⟩ := bind_eq_ok.1 delays
        exact ⟨some signed, ⟨signed, known, rfl⟩, bind_eq_ok.2 ⟨time, added, rfl⟩⟩

theorem expiry_ok : config.expiry now = .ok time ↔ Delays config.cleanupDelay now time := Iff.rfl

end Config

end DurableFlow
