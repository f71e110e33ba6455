import DurableFlow.Timestamp.Text
import DurableFlow.Proofs.Calendar

/-! # Times that are read back

The text of a time names that time. Each part of the text has a lemma of its own: it is read as what it
was written for, and the rest of the text is left.
-/

namespace DurableFlow

theorem bind_of_eq {α β : Type} {part : Option α} {a : α} (read : part = some a)
    (next : α → Option β) : part >>= next = next a := by
  rw [read]
  rfl

namespace Timestamp

section Digits

theorem toList_padded (width n : Nat) : (Decimal.padded width n).toList =
    List.replicate (width - (Nat.toDigits 10 n).length) '0' ++ Nat.toDigits 10 n := by
  simp [Decimal.padded]

theorem isDigit_of_mem_padded {width n : Nat} :
    ∀ c ∈ (Decimal.padded width n).toList, isDigit c = true := by
  intro c member
  rw [toList_padded] at member
  rcases List.mem_append.mp member with zero | digit
  · rw [(List.mem_replicate.mp zero).2]
    rfl
  · have digit := Nat.isDigit_of_mem_toDigits (by decide) (by decide) digit
    simpa [isDigit, Char.isDigit, Char.le_def] using digit

theorem number_padded (width n : Nat) : number (Decimal.padded width n).toList = n := by
  have zeros (count : Nat) : (List.replicate count '0').foldl
      (fun n c => 10 * n + (c.toNat - '0'.toNat)) 0 = 0 := by
    induction count with
    | zero => rfl
    | succ count ih => simpa [List.replicate_succ] using ih
  rw [number, toList_padded, List.foldl_append, zeros]
  exact Nat.ofDigitChars_toDigits (by decide) (by decide)

theorem length_padded {width n : Nat} (pos : 0 < width) (fits : n < Nat.pow 10 width) :
    (Decimal.padded width n).toList.length = width := by
  have := (Nat.length_toDigits_le_iff (by decide : 1 < 10) pos).mpr fits
  simp [toList_padded]
  omega

theorem padded_ne_nil (width n : Nat) : (Decimal.padded width n).toList ≠ [] := by
  simp [toList_padded, Nat.toDigits_ne_nil]

variable {ds rest : List Char} (digits : ∀ c ∈ ds, isDigit c = true) (nonempty : ds ≠ [])

include digits nonempty

theorem digits?_append {width : Nat} (fits : ds.length ≤ width)
    (stop : (rest.take (width - ds.length)).takeWhile isDigit = []) :
    digits? width (ds ++ rest) = some (ds, rest) := by
  have read : ((ds ++ rest).take width).takeWhile isDigit = ds := by
    rw [List.take_append, List.take_of_length_le fits,
      List.takeWhile_append_of_pos digits, stop, List.append_nil]
  have some : ds.isEmpty = false := by simpa using nonempty
  simp [digits?, read, some]

theorem skipSpace_append : skipSpace (ds ++ rest) = ds ++ rest := by
  cases ds with
  | nil => exact absurd rfl nonempty
  | cons d others =>
      have digit := digits d List.mem_cons_self
      have range : 0x30 ≤ d.toNat ∧ d.toNat ≤ 0x39 := by
        simpa [isDigit, Char.le_def, UInt32.le_iff_toNat_le] using digit
      have printed : isSpace d = false := by
        simp [isSpace]
        omega
      simp [skipSpace, printed]

end Digits

theorem field?_padded {low high n : Nat} (ge : low ≤ n) (le : n ≤ high) (small : n < 100)
    (rest : List Char) : field? low high ((Decimal.padded 2 n).toList ++ rest) = some (n, rest) := by
  have two : (Decimal.padded 2 n).toList.length = 2 := length_padded (by decide) small
  have read : digits? 2 ((Decimal.padded 2 n).toList ++ rest) =
      some ((Decimal.padded 2 n).toList, rest) :=
    digits?_append isDigit_of_mem_padded (padded_ne_nil 2 n) (by omega) (by simp [two])
  simp [field?, skipSpace_append isDigit_of_mem_padded (padded_ne_nil 2 n), read, number_padded, ge, le]

theorem year?_minus (cs : List Char) : year? ('-' :: cs) =
    (digits? cs.length cs).bind fun (ds, rest) => some (-(number ds : Int), rest) := rfl

theorem year?_plus (cs : List Char) : year? ('+' :: cs) =
    (digits? cs.length cs).bind fun (ds, rest) => some ((number ds : Int), rest) := rfl

theorem year?_yearText (year : Int) (rest : List Char) :
    year? ((yearText year).toList ++ '-' :: rest) = some (year, '-' :: rest) := by
  have unsigned (c : Char) (sign : isDigit c = false) {ds more : List Char}
      (digits : ∀ d ∈ ds, isDigit d = true) (nonempty : ds ≠ []) : ∀ others, ds ++ more ≠ c :: others := by
    rintro others same
    cases ds with
    | nil => exact nonempty rfl
    | cons d ds =>
        obtain ⟨rfl, -⟩ := List.cons.inj same
        simp [digits d List.mem_cons_self] at sign
  have signed (n : Nat) : digits? ((Decimal.padded 4 n).toList ++ '-' :: rest).length
      ((Decimal.padded 4 n).toList ++ '-' :: rest) = some ((Decimal.padded 4 n).toList, '-' :: rest) := by
    refine digits?_append isDigit_of_mem_padded (padded_ne_nil _ _) (by simp) ?_
    simp [isDigit]
  unfold yearText
  split
  next plain =>
    have four : (Decimal.padded 4 year.toNat).toList.length = 4 :=
      length_padded (by decide) (show year.toNat < 10000 by omega)
    have read : digits? 4 ((Decimal.padded 4 year.toNat).toList ++ '-' :: rest) =
        some ((Decimal.padded 4 year.toNat).toList, '-' :: rest) :=
      digits?_append isDigit_of_mem_padded (padded_ne_nil _ _) (by omega) (by simp [four])
    unfold year?
    rw [skipSpace_append isDigit_of_mem_padded (padded_ne_nil _ _)]
    split
    next minus => exact absurd minus (unsigned '-' rfl isDigit_of_mem_padded (padded_ne_nil _ _) _)
    next plus => exact absurd plus (unsigned '+' rfl isDigit_of_mem_padded (padded_ne_nil _ _) _)
    next =>
      simp [read, number_padded]
      omega
  next beyond =>
    rw [String.toList_append, List.append_assoc]
    have read := signed year.natAbs
    by_cases negative : year < 0
    · have minus : (if year < 0 then "-" else "+").toList = ['-'] := by simp [negative]
      rw [minus, List.singleton_append, year?_minus, read, Option.bind_some]
      simp only [number_padded, Option.some.injEq, Prod.mk.injEq, and_true]
      omega
    · have plus : (if year < 0 then "-" else "+").toList = ['+'] := by simp [negative]
      rw [plus, List.singleton_append, year?_plus, read, Option.bind_some]
      simp only [number_padded, Option.some.injEq, Prod.mk.injEq, and_true]
      omega

theorem fraction?_fractionText {nano : Nat} (small : nano < nanosPerSecond) :
    fraction? ((fractionText nano).toList ++ ['Z']) = some (nano, ['Z']) := by
  have read {width n : Nat} (pos : 0 < width) (le : width ≤ 9) (fits : n < Nat.pow 10 width) :
      fraction? ('.' :: (Decimal.padded width n).toList ++ ['Z']) =
        some (n * Nat.pow 10 (9 - width), ['Z']) := by
    have length := length_padded pos fits
    have whole : digits? 9 ((Decimal.padded width n).toList ++ ['Z']) =
        some ((Decimal.padded width n).toList, ['Z']) := by
      refine digits?_append isDigit_of_mem_padded (padded_ne_nil _ _) (by omega) ?_
      cases count : 9 - (Decimal.padded width n).toList.length <;> rfl
    simp [fraction?, whole, number_padded, length, isDigit]
  unfold fractionText
  unfold nanosPerSecond at small
  split
  next zero =>
    rw [zero]
    rfl
  split
  next millis =>
    rw [String.toList_append]
    apply (read (by decide) (by decide) (show _ < 1000 by omega)).trans
    simp
    omega
  split
  next micros =>
    rw [String.toList_append]
    apply (read (by decide) (by decide) (show _ < 1000000 by omega)).trans
    simp
    omega
  next =>
    rw [String.toList_append]
    apply (read (by decide) (by decide) small).trans
    simp

/-- The text of a date and a time of day. -/
def textOf (date : Date) (hour minute second nano : Nat) : String :=
  yearText date.year ++ "-" ++ Decimal.padded 2 date.month ++ "-" ++ Decimal.padded 2 date.day ++
    "T" ++ Decimal.padded 2 hour ++ ":" ++ Decimal.padded 2 minute ++ ":" ++
    Decimal.padded 2 second ++ fractionText nano ++ "Z"

theorem separator?_cons {c : Char} (printed : isSpace c = false) (rest : List Char) :
    separator? c (c :: rest) = some rest := by
  simp [separator?, skipSpace, printed]

theorem ofText?_textOf {date : Date} {hour minute second nano : Nat} (valid : date.isValid)
    (hours : hour ≤ 23) (minutes : minute ≤ 59) (seconds : second ≤ 60)
    (nanos : nano < nanosPerSecond) :
    ofText? (textOf date hour minute second nano) =
      of? (date.dayNumber * secondsPerDay + hour * 3600 + minute * 60 + (min second 59 : Nat))
        (if second = 60 then nano + nanosPerSecond else nano) := by
  have calendar := valid
  simp only [Date.isValid, Bool.and_eq_true, decide_eq_true_eq] at calendar
  obtain ⟨⟨⟨⟨-, monthPos⟩, monthLe⟩, dayPos⟩, dayLe⟩ := calendar
  have dayLe : date.day ≤ 31 := by
    refine Nat.le_trans dayLe ?_
    unfold Date.monthLength
    split
    · split <;> omega
    · split <;> omega
  have parts : (textOf date hour minute second nano).toList = (yearText date.year).toList ++ '-' ::
      ((Decimal.padded 2 date.month).toList ++ '-' :: ((Decimal.padded 2 date.day).toList ++ 'T' ::
        ((Decimal.padded 2 hour).toList ++ ':' :: ((Decimal.padded 2 minute).toList ++ ':' ::
          ((Decimal.padded 2 second).toList ++ ((fractionText nano).toList ++ ['Z'])))))) := by
    simp [textOf]
  rw [ofText?, parts]
  apply (bind_of_eq (year?_yearText _ _) _).trans
  apply (bind_of_eq (separator?_cons rfl _) _).trans
  apply (bind_of_eq (field?_padded monthPos monthLe (by omega) _) _).trans
  apply (bind_of_eq (separator?_cons rfl _) _).trans
  apply (bind_of_eq (field?_padded dayPos dayLe (by omega) _) _).trans
  apply (bind_of_eq rfl _).trans
  apply (bind_of_eq (field?_padded (Nat.zero_le hour) hours (by omega) _) _).trans
  apply (bind_of_eq (separator?_cons rfl _) _).trans
  apply (bind_of_eq (field?_padded (Nat.zero_le minute) minutes (by omega) _) _).trans
  apply (bind_of_eq (separator?_cons rfl _) _).trans
  apply (bind_of_eq (field?_padded (Nat.zero_le second) seconds (by omega) _) _).trans
  apply (bind_of_eq (fraction?_fractionText nanos) _).trans
  apply (bind_of_eq (show zone? (skipSpace ['Z']) = some (0, []) from rfl) _).trans
  simp [valid, skipSpace]

/-- The text of a time names that time. -/
theorem ofText?_text (t : Timestamp) : ofText? t.text = some t := by
  have ge := t.second_ge
  have le := t.second_le
  have nano := t.nano_lt
  have whole : of? t.second t.nano = some t := dif_pos ⟨ge, le, nano, t.leap⟩
  simp only [minSecond, maxSecond, secondsPerDay] at ge le
  have valid : (Date.ofDayNumber (t.second / 86400)).isValid :=
    Date.isValid_ofDayNumber (by omega) (by omega)
  by_cases isLeap : nanosPerSecond ≤ t.nano
  · have last := t.leap isLeap
    have sixty : (t.second % 86400).toNat % 60 + 1 = 60 := by omega
    have written : t.text = textOf (Date.ofDayNumber (t.second / 86400))
        ((t.second % 86400).toNat / 3600) ((t.second % 86400).toNat / 60 % 60) 60
        (t.nano - nanosPerSecond) := by
      simp only [text, if_pos isLeap, textOf, secondsPerDay, sixty]
    rw [written, ofText?_textOf valid (by omega) (by omega) (by omega) (by omega), if_pos rfl,
      Date.dayNumber_ofDayNumber, Nat.sub_add_cancel isLeap]
    exact (congrArg (of? · t.nano) (by unfold secondsPerDay; omega)).trans whole
  · have plain : (t.second % 86400).toNat % 60 ≠ 60 := by omega
    have written : t.text = textOf (Date.ofDayNumber (t.second / 86400))
        ((t.second % 86400).toNat / 3600) ((t.second % 86400).toNat / 60 % 60)
        ((t.second % 86400).toNat % 60) t.nano := by
      simp only [text, if_neg isLeap, textOf, secondsPerDay]
    rw [written, ofText?_textOf valid (by omega) (by omega) (by omega) (by omega), if_neg plain,
      Date.dayNumber_ofDayNumber]
    exact (congrArg (of? · t.nano) (by unfold secondsPerDay; omega)).trans whole

end Timestamp

end DurableFlow
