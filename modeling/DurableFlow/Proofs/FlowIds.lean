import DurableFlow.FlowId
import Mathlib.Algebra.Group.Nat.Defs

/-! # Flow ids in text

The text of a flow id names that flow.
-/

namespace DurableFlow.FlowId

theorem length_hexDigits (count n : Nat) : (hexDigits count n).length = count := by
  induction count generalizing n with
  | zero => rfl
  | succ count ih => rw [hexDigits, List.length_append, ih, List.length_singleton]

theorem lt_of_mem_hexDigits {count n : Nat} : ∀ d ∈ hexDigits count n, d < 16 := by
  induction count generalizing n with
  | zero => exact fun d member => absurd member List.not_mem_nil
  | succ count ih =>
      intro d member
      rcases List.mem_append.1 member with before | last
      · exact ih d before
      · rw [List.mem_singleton.1 last]
        omega

theorem ofHexDigits_hexDigits (count n : Nat) : ofHexDigits (hexDigits count n) = n % 16 ^ count := by
  induction count generalizing n with
  | zero => simp [hexDigits, ofHexDigits, Nat.mod_one]
  | succ count ih =>
      have sixteenth := ih (n / 16)
      rw [ofHexDigits] at sixteenth
      rw [hexDigits, ofHexDigits, List.foldl_append, sixteenth, List.foldl_cons, List.foldl_nil,
        Nat.pow_succ, Nat.mul_comm (16 ^ count), Nat.mod_mul]
      omega

theorem hexDigit?_hexChar : ∀ d < 16, hexDigit? (hexChar d) = some d := by decide

theorem mapM_hexDigit? {digits : List Nat} (small : ∀ d ∈ digits, d < 16) :
    (digits.map hexChar).mapM hexDigit? = some digits := by
  induction digits with
  | nil => rfl
  | cons d rest ih =>
      rw [List.map_cons, List.mapM_cons, hexDigit?_hexChar d (small d List.mem_cons_self),
        ih fun other member => small other (List.mem_cons_of_mem d member)]
      rfl

theorem drop_group {group rest : List Char} {n : Nat} (length : group.length = n) :
    (group ++ '-' :: rest).drop (n + 1) = rest := by
  rw [← length, List.drop_append, List.drop_eq_nil_of_le (Nat.le_succ _), List.nil_append,
    Nat.add_sub_cancel_left]
  rfl

theorem ungrouped?_grouped {digits : List Char} (length : digits.length = 32) :
    (grouped digits).length = 36 ∧ ungrouped? (grouped digits) = some digits := by
  have taken (n count : Nat) (within : n + count ≤ 32) :
      ((digits.drop n).take count).length = count := by
    rw [List.length_take, List.length_drop, length]
    omega
  have first : (digits.take 8).length = 8 := taken 0 8 (by omega)
  have second := taken 8 4 (by omega)
  have third := taken 12 4 (by omega)
  have fourth := taken 16 4 (by omega)
  have whole : (grouped digits).length = 36 := by
    simp only [grouped, List.length_append, List.length_cons, first, second, third, fourth,
      List.length_drop, length]
  -- Every hyphen is where the digits before it end.
  have after₁ : (grouped digits).drop 9 = (digits.drop 8).take 4 ++ '-' :: ((digits.drop 12).take 4 ++
      '-' :: ((digits.drop 16).take 4 ++ '-' :: digits.drop 20)) := by
    simp only [grouped, List.append_assoc, List.cons_append]
    exact drop_group first
  have after₂ : (grouped digits).drop 14 = (digits.drop 12).take 4 ++
      '-' :: ((digits.drop 16).take 4 ++ '-' :: digits.drop 20) := by
    rw [show 14 = 9 + 5 from rfl, ← List.drop_drop, after₁]
    exact drop_group second
  have after₃ : (grouped digits).drop 19 = (digits.drop 16).take 4 ++ '-' :: digits.drop 20 := by
    rw [show 19 = 14 + 5 from rfl, ← List.drop_drop, after₂]
    exact drop_group third
  have after₄ : (grouped digits).drop 24 = digits.drop 20 := by
    rw [show 24 = 19 + 5 from rfl, ← List.drop_drop, after₃]
    exact drop_group fourth
  have start : (grouped digits).take 8 = digits.take 8 := by
    simp only [grouped, List.append_assoc, List.cons_append]
    exact List.take_left' first
  refine ⟨whole, ?_⟩
  have together : digits.take 8 ++ (digits.drop 8).take 4 ++ (digits.drop 12).take 4 ++
      (digits.drop 16).take 4 ++ digits.drop 20 = digits := by
    have joined (n count : Nat) : digits.take (n + count) = digits.take n ++ (digits.drop n).take count :=
      List.take_add
    rw [← joined, ← joined, ← joined, List.take_append_drop]
  simp only [ungrouped?, start, after₁, after₂, after₃, after₄, List.take_left' second,
    List.take_left' third, List.take_left' fourth, together, whole, and_self, if_true]

theorem ofText?_grouped {digits : List Nat} (length : digits.length = 32)
    (small : ∀ d ∈ digits, d < 16) :
    ofText? (String.ofList (grouped (digits.map hexChar))) =
      some ⟨BitVec.ofNat 128 (ofHexDigits digits)⟩ := by
  obtain ⟨whole, split⟩ := ungrouped?_grouped
    (show (digits.map hexChar).length = 32 by rw [List.length_map, length])
  have found : digitsOf? (grouped (digits.map hexChar)) = some (digits.map hexChar) := by
    rw [digitsOf?, whole, if_neg (by decide), if_pos rfl, split]
  rw [ofText?, String.toList_ofList, found]
  simp only [Option.bind_eq_bind, Option.bind_some, mapM_hexDigit? small]
  rfl

/-- The text of a flow id names that flow. -/
theorem ofText?_text (id : FlowId) : ofText? id.text = some id := by
  rw [text, ofText?_grouped (length_hexDigits _ _) lt_of_mem_hexDigits, ofHexDigits_hexDigits,
    Nat.mod_eq_of_lt (show id.value.toNat < 16 ^ 32 from id.value.isLt), BitVec.ofNat_toNat,
    BitVec.setWidth_eq]

end DurableFlow.FlowId
