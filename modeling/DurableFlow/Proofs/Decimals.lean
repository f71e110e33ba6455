import DurableFlow.Decimal.Numeral

/-! # Decimal digits

The digits of a natural number stand for that number, and a numeral that consists of them denotes
it.
-/

namespace DurableFlow

theorem Bytes.ofText_ofList {chars : List Char} (ascii : ∀ c ∈ chars, c.utf8Size = 1) :
    ofText (String.ofList chars) = chars.map Char.toUInt8 := by
  have octets : chars.utf8Encode = (chars.map Char.toUInt8).toByteArray := by
    induction chars with
    | nil => rfl
    | cons c rest ih =>
        have ascii' := fun d member => ascii d (List.mem_cons_of_mem c member)
        rw [List.utf8Encode_cons, List.utf8Encode_singleton, ih ascii',
          String.utf8EncodeChar_eq_singleton (ascii c List.mem_cons_self), ← List.toByteArray_append]
        rfl
  rw [ofText, String.toUTF8, String.toByteArray_ofList, octets, List.data_toByteArray]

namespace Decimal

theorem isDigit_digitChar : ∀ n < 10, isDigit n.digitChar.toUInt8 = true := by decide

theorem digitValue_digitChar : ∀ n < 10, digitValue n.digitChar.toUInt8 = n := by decide

theorem utf8Size_digitChar : ∀ n < 10, n.digitChar.utf8Size = 1 := by decide

theorem digits_eq (n : Nat) :
    digits n = if n < 10 then [n.digitChar.toUInt8]
      else digits (n / 10) ++ [(n % 10).digitChar.toUInt8] := by
  rw [digits, Nat.toDigits_eq_if (by omega)]
  split
  · rfl
  · rw [List.map_append]
    rfl

theorem isDigit_of_mem_digits {n : Nat} : ∀ b ∈ digits n, isDigit b = true := by
  induction n using Nat.strongRecOn with
  | ind n ih =>
      intro b member
      rw [digits_eq] at member
      split at member
      next small =>
        rw [List.mem_singleton.1 member]
        exact isDigit_digitChar n small
      next large =>
        rcases List.mem_append.1 member with before | last
        · exact ih (n / 10) (by omega) b before
        · rw [List.mem_singleton.1 last]
          exact isDigit_digitChar _ (by omega)

theorem value_digits (n : Nat) : value (digits n) = n := by
  induction n using Nat.strongRecOn with
  | ind n ih =>
      rw [digits_eq]
      split
      next small =>
        simp only [value, valueFrom, List.foldl_cons, List.foldl_nil, digitValue_digitChar n small]
        omega
      next large =>
        have tenth := ih (n / 10) (by omega)
        simp only [value, valueFrom] at tenth
        simp only [value, valueFrom, List.foldl_append, tenth, List.foldl_cons, List.foldl_nil,
          digitValue_digitChar (n % 10) (by omega)]
        omega

/-- The digits of a number start with a zero only if there is no other. -/
theorem digits_cons (n : Nat) : ∃ first others, digits n = first :: others ∧
    (first = '0'.toUInt8 → others = [] ∧ n = 0) := by
  induction n using Nat.strongRecOn with
  | ind n ih =>
      rw [digits_eq]
      split
      next small =>
        refine ⟨_, [], rfl, fun zero => ⟨rfl, ?_⟩⟩
        rw [← digitValue_digitChar n small, zero]
        rfl
      next large =>
        obtain ⟨first, others, tenth, zero⟩ := ih (n / 10) (by omega)
        rw [tenth]
        refine ⟨first, others ++ _, rfl, fun isZero => ?_⟩
        have := (zero isZero).2
        omega

theorem ofText_text (n : Nat) : Bytes.ofText (text n) = digits n := by
  refine Bytes.ofText_ofList ?_
  induction n using Nat.strongRecOn with
  | ind n ih =>
      intro c member
      rw [Nat.toDigits_eq_if (by omega)] at member
      split at member
      next small =>
        rw [List.mem_singleton.1 member]
        exact utf8Size_digitChar n small
      next large =>
        rcases List.mem_append.1 member with before | last
        · exact ih (n / 10) (by omega) c before
        · rw [List.mem_singleton.1 last]
          exact utf8Size_digitChar _ (by omega)

theorem takeWhile_digits (n : Nat) : (digits n).takeWhile isDigit = digits n := by
  have whole : (digits n ++ []).takeWhile isDigit = digits n ++ [].takeWhile isDigit :=
    List.takeWhile_append_of_pos isDigit_of_mem_digits
  simpa using whole

theorem dropWhile_digits (n : Nat) : (digits n).dropWhile isDigit = [] := by
  have rest : (digits n ++ []).dropWhile isDigit = [].dropWhile isDigit :=
    List.dropWhile_append_of_pos isDigit_of_mem_digits
  simpa using rest

theorem ofBytes?_digits (n : Nat) :
    Numeral.ofBytes? (digits n) = some ⟨false, digits n, none, none⟩ := by
  obtain ⟨first, others, split, zero⟩ := digits_cons n
  have digit : isDigit first = true := isDigit_of_mem_digits first (by rw [split]; simp)
  have unsigned : first ≠ '-'.toUInt8 := by
    rintro rfl
    revert digit
    decide
  have plain : ¬ (first = '0'.toUInt8 ∧ others ≠ []) := fun ⟨isZero, more⟩ => more (zero isZero).1
  have whole := takeWhile_digits n
  have rest := dropWhile_digits n
  rw [split] at whole rest ⊢
  simp only [Numeral.ofBytes?, if_neg unsigned, whole, rest, if_neg plain]
  rfl

theorem number?_digits {n : Nat} (fits : n ≤ Numeral.maxWord) :
    Numeral.number? ⟨false, digits n, none, none⟩ = some (.int n) := by
  simp [Numeral.number?, value_digits, fits]

end Decimal

end DurableFlow
