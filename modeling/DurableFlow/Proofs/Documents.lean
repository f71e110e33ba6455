import DurableFlow.Json.Printer
import DurableFlow.Json.Reader
import DurableFlow.Proofs.Decimals

/-! # Documents that are read back

A document of texts, natural numbers, arrays and objects is what is read where it was written, as long
as it is not nested too deeply: `Json.Reads`. Every kind of document has a lemma of its own, which
follows the reader octet by octet up to the token that the document ends with.
-/

namespace DurableFlow.Json

open Decimal (Numeral)

/-- Whether an octet of a string is written as it is. -/
def isPlain (b : UInt8) : Bool := escape b = [b]

section Strings

variable {octets : Bytes} {literal : Bool} {r next : Reading} {xs : Bytes}

theorem run?_control : ∀ n < 32,
    Reading.run? (.quote ⟨octets, none, true, true, literal⟩) r (escape (UInt8.ofNat n) ++ xs) =
      Reading.run? (.quote ⟨UInt8.ofNat n :: octets, none, true, true, false⟩) r xs
  | 0, _ | 1, _ | 2, _ | 3, _ | 4, _ | 5, _ | 6, _ | 7, _ | 8, _ | 9, _ | 10, _ | 11, _ | 12, _
  | 13, _ | 14, _ | 15, _ | 16, _ | 17, _ | 18, _ | 19, _ | 20, _ | 21, _ | 22, _ | 23, _ | 24, _
  | 25, _ | 26, _ | 27, _ | 28, _ | 29, _ | 30, _ | 31, _ => rfl
  | _ + 32, large => absurd large (by omega)

theorem isPlain_control : ∀ n < 32, isPlain (UInt8.ofNat n) = false := by decide

theorem escape_of_printable {b : UInt8} (printable : ¬ b < 0x20) (quote : b ≠ '"'.toUInt8)
    (backslash : b ≠ '\\'.toUInt8) : escape b = [b] := by
  have other (n : UInt8) (control : n < 0x20) : b ≠ n := by
    rintro rfl
    exact printable control
  rw [escape, if_neg quote, if_neg backslash, if_neg (other 0x08 (by decide)),
    if_neg (other 0x09 (by decide)), if_neg (other 0x0a (by decide)),
    if_neg (other 0x0c (by decide)), if_neg (other 0x0d (by decide)), if_neg printable]

theorem run?_escape (b : UInt8) :
    Reading.run? (.quote ⟨octets, none, true, true, literal⟩) r (escape b ++ xs) =
      Reading.run? (.quote ⟨b :: octets, none, true, true, literal && isPlain b⟩) r xs := by
  by_cases quote : b = '"'.toUInt8
  · subst quote
    rw [show isPlain '"'.toUInt8 = false by decide, Bool.and_false]
    rfl
  by_cases backslash : b = '\\'.toUInt8
  · subst backslash
    rw [show isPlain '\\'.toUInt8 = false by decide, Bool.and_false]
    rfl
  by_cases control : b < 0x20
  · have small : b.toNat < 32 := control
    rw [← UInt8.ofNat_toNat (x := b), isPlain_control _ small, Bool.and_false]
    exact run?_control _ small
  · have plain := escape_of_printable control quote backslash
    have le : 0x20 ≤ b := UInt8.not_lt.1 control
    rw [isPlain, plain, decide_eq_true rfl, Bool.and_true]
    simp only [List.cons_append, List.nil_append, Reading.run?, Scan.step?, if_neg quote,
      if_neg backslash, Reading.feed?, Quote.push, Quote.settle, decide_eq_true le, Bool.and_true]

theorem run?_octets (bytes : Bytes) :
    Reading.run? (.quote ⟨octets, none, true, true, literal⟩) r (bytes.flatMap escape ++ xs) =
      Reading.run? (.quote ⟨bytes.reverse ++ octets, none, true, true, literal && bytes.all isPlain⟩) r
        xs := by
  induction bytes generalizing octets literal with
  | nil => simp
  | cons b rest ih =>
      rw [List.flatMap_cons, List.append_assoc, run?_escape, ih, List.reverse_cons, List.append_assoc,
        List.all_cons, Bool.and_assoc]
      rfl

/-- A text that is written between quotation marks is read back. -/
theorem run?_quoted (s : String)
    (step : r.step? (.string ⟨.text s, (Bytes.ofText s).all isPlain⟩) = some next) :
    Reading.run? .between r (quoted (Bytes.ofText s) ++ xs) = Reading.run? .between next xs := by
  have finish : Quote.finish ⟨(Bytes.ofText s).reverse, none, true, true, (Bytes.ofText s).all isPlain⟩ =
      ⟨.text s, (Bytes.ofText s).all isPlain⟩ := by
    simp only [Quote.finish, Quote.settle, List.reverse_reverse, Bool.and_true, if_true,
      Bytes.text?_ofText]
  rw [quoted, List.cons_append, List.cons_append, List.append_assoc]
  change Reading.run? (.quote ⟨[], none, true, true, true⟩) r _ = _
  rw [run?_octets, List.append_nil, Bool.true_and]
  simp only [List.cons_append, List.nil_append, Reading.run?, Scan.step?, if_true, finish,
    Reading.feed?, step, Option.bind_some]

end Strings

section Numbers

variable {r next : Reading} {xs : Bytes}

/-- What follows a part of a document: a comma, or the end of an array or object. -/
def Delimits (b : UInt8) : Prop := b = ','.toUInt8 ∨ b = ']'.toUInt8 ∨ b = '\x7d'.toUInt8

theorem isNumeric_of_isDigit {b : UInt8} (digit : Decimal.isDigit b = true) : isNumeric b = true := by
  simp [isNumeric, digit]

theorem begin?_of_isDigit {b : UInt8} (digit : Decimal.isDigit b = true) :
    begin? b = some ([], .digits [b]) := by
  have other (c : UInt8) (unlike : Decimal.isDigit c = false) : b ≠ c := by
    rintro rfl
    rw [digit] at unlike
    cases unlike
  have blank : isBlank b = false := by
    simp [isBlank, other 0x20 (by decide), other 0x09 (by decide), other 0x0a (by decide),
      other 0x0d (by decide)]
  simp [begin?, blank, digit, other '['.toUInt8 (by decide), other ']'.toUInt8 (by decide),
    other '\x7b'.toUInt8 (by decide), other '\x7d'.toUInt8 (by decide),
    other ':'.toUInt8 (by decide), other ','.toUInt8 (by decide), other '"'.toUInt8 (by decide)]

theorem run?_digits {ds : Bytes} (all : ∀ b ∈ ds, Decimal.isDigit b = true) (before : Bytes) :
    Reading.run? (.digits before) r (ds ++ xs) =
      Reading.run? (.digits (ds.reverse ++ before)) r xs := by
  induction ds generalizing before with
  | nil => rfl
  | cons b rest ih =>
      have numeric := isNumeric_of_isDigit (all b List.mem_cons_self)
      rw [List.cons_append, Reading.run?, Scan.step?, if_pos numeric]
      simp only [Reading.feed?]
      rw [ih fun c member => all c (List.mem_cons_of_mem _ member), List.reverse_cons,
        List.append_assoc]
      rfl

theorem begin?_of_delimits {b : UInt8} (delimits : Delimits b) :
    isNumeric b = false ∧ ∃ token, begin? b = some ([token], .between) := by
  rcases delimits with rfl | rfl | rfl
  all_goals exact ⟨by decide, _, rfl⟩

theorem run?_delimiter {ds : Bytes} {value : Json} {b : UInt8} (delimits : Delimits b)
    (denotes : numberOf? ds.reverse = some value) (step : r.step? (.leaf value) = some next) :
    Reading.run? (.digits ds) r (b :: xs) = Reading.run? .between next (b :: xs) := by
  obtain ⟨plain, token, begins⟩ := begin?_of_delimits delimits
  have ends : Scan.step? (.digits ds) b = some ([.leaf value, token], .between) := by
    simp [Scan.step?, plain, Scan.close?, denotes, begins]
  have starts : Scan.step? .between b = some ([token], .between) := begins
  rw [Reading.run?, Reading.run?, ends, starts]
  simp only [Reading.feed?, step, Option.bind_some]

theorem run?_nat {n : Nat} (fits : n ≤ Numeral.maxWord) {b : UInt8} (delimits : Delimits b)
    (step : r.step? (.leaf (.nat n)) = some next) :
    Reading.run? .between r ((nat n).print ++ b :: xs) = Reading.run? .between next (b :: xs) := by
  have written : (nat n).print = Decimal.digits n := by
    have unsigned : ¬ (n : Int) < 0 := by omega
    rw [nat, print, numberText, intText, if_neg unsigned, Int.toNat_natCast, Decimal.ofText_text]
  obtain ⟨first, others, split, _⟩ := Decimal.digits_cons n
  have digits := Decimal.isDigit_of_mem_digits (n := n)
  have denotes : numberOf? (Decimal.digits n) = some (.nat n) := by
    simp [numberOf?, Decimal.ofBytes?_digits, Decimal.number?_digits fits, nat]
  rw [split] at digits denotes
  rw [written, split, List.cons_append, Reading.run?, Scan.step?,
    begin?_of_isDigit (digits first List.mem_cons_self)]
  simp only [Reading.feed?]
  rw [run?_digits fun c member => digits c (List.mem_cons_of_mem _ member)]
  refine run?_delimiter delimits ?_ step
  rw [List.reverse_append, List.reverse_reverse]
  exact denotes

end Numbers

section Containers

variable {frames outer : List Frame} {expected : Expected} {xs : Bytes} {depth : Nat}

/-- What may come next where a document may. -/
inductive Expected.Open : Expected → Prop where
  | value : Open .value
  | firstItem : Open .firstItem

/-- What may come next where a member of an object may. -/
inductive Expected.Naming : Expected → Prop where
  | name : Naming .name
  | firstName : Naming .firstName

/-- Whether a document is read where it was written, with a number of levels left for the containers
in it. -/
def Reads (depth : Nat) (doc : Json) : Prop :=
  ∀ ⦃frames : List Frame⦄ ⦃expected : Expected⦄ ⦃b : UInt8⦄ ⦃xs : Bytes⦄, expected.Open →
    frames.length + depth ≤ maxDepth → Delimits b →
    Reading.run? .between ⟨frames, expected⟩ (doc.print ++ b :: xs) =
      Reading.run? .between (.complete doc frames) (b :: xs)

theorem step?_leaf {value : Json} (opened : expected.Open) :
    Reading.step? ⟨frames, expected⟩ (.leaf value) = some (.complete value frames) := by
  cases opened <;> rfl

theorem step?_string {s : Spelled} (opened : expected.Open) :
    Reading.step? ⟨frames, expected⟩ (.string s) = some (.complete s.value frames) := by
  cases opened <;> rfl

theorem step?_name {s last : Spelled} {parts : List (Spelled × Json)} (naming : expected.Naming) :
    Reading.step? ⟨.object parts last :: outer, expected⟩ (.string s) =
      some ⟨.object parts s :: outer, .colon⟩ := by
  cases naming <;> rfl

theorem run?_token {r next : Reading} {b : UInt8} {token : Token}
    (begins : begin? b = some ([token], .between)) (step : r.step? token = some next) :
    Reading.run? .between r (b :: xs) = Reading.run? .between next xs := by
  rw [Reading.run?, Scan.step?, begins]
  simp only [Reading.feed?, step, Option.bind_some]

theorem reads_text (s : String) : Reads depth (.text s) := by
  intro frames expected b xs opened _ _
  rw [print]
  exact run?_quoted s (step?_string opened)

theorem reads_nat {n : Nat} (fits : n ≤ Numeral.maxWord) : Reads depth (.nat n) := by
  intro frames expected b xs opened _ delimits
  exact run?_nat fits delimits (step?_leaf opened)

theorem run?_items {items done : List Json} (nonempty : items ≠ []) (opened : expected.Open)
    (reads : ∀ item ∈ items, Reads depth item) (shallow : outer.length + (depth + 1) ≤ maxDepth) :
    Reading.run? .between ⟨.array done :: outer, expected⟩ (printItems items ++ ']'.toUInt8 :: xs) =
      Reading.run? .between (.closeFrame (.array (items.reverse ++ done)) outer) xs := by
  have inside : (Frame.array done :: outer).length + depth ≤ maxDepth := by
    rw [List.length_cons]
    omega
  induction items generalizing done expected with
  | nil => exact absurd rfl nonempty
  | cons item rest ih =>
      have first := reads item List.mem_cons_self
      cases rest with
      | nil =>
          rw [printItems, first opened inside (.inr (.inl rfl))]
          exact run?_token rfl rfl
      | cons second more =>
          have others := fun other member => reads other (List.mem_cons_of_mem item member)
          have later := @ih .value (item :: done) (List.cons_ne_nil _ _) .value others inside
          rw [printItems, List.append_assoc, List.cons_append, first opened inside (.inl rfl),
            List.reverse_cons, List.append_assoc]
          exact (run?_token rfl rfl).trans later
          · simp

theorem run?_array {items : List Json} (opened : expected.Open)
    (reads : ∀ item ∈ items, Reads depth item) (shallow : frames.length + (depth + 1) ≤ maxDepth) :
    Reading.run? .between ⟨frames, expected⟩ ((array items).print ++ xs) =
      Reading.run? .between (.complete (.array items) frames) xs := by
  have inside : frames.length + 1 ≤ maxDepth := by omega
  have closed (outer : List Json) :
      (Frame.array outer).document (frames.length + 1) = .array outer.reverse := if_pos inside
  have opens : Reading.step? ⟨frames, expected⟩ .arrayOpen = some ⟨.array [] :: frames, .firstItem⟩ := by
    cases opened <;> rfl
  rw [print, List.cons_append, List.cons_append, List.append_assoc, List.singleton_append,
    run?_token rfl opens]
  cases items with
  | nil =>
      refine (run?_token rfl rfl).trans ?_
      rw [Reading.closeFrame, closed]
      rfl
  | cons item rest =>
      refine (run?_items (List.cons_ne_nil _ _) .firstItem reads shallow).trans ?_
      rw [Reading.closeFrame, closed, List.append_nil, List.reverse_reverse]

theorem reads_array {items : List Json} (reads : ∀ item ∈ items, Reads depth item) :
    Reads (depth + 1) (.array items) := by
  intro frames expected b xs opened shallow _
  exact run?_array opened reads shallow

/-- The string that a name is written as. -/
def Name.spelled (name : Name) : Spelled := ⟨.text name.text, (Bytes.ofText name.text).all isPlain⟩

/-- A member of an object whose name and value are read where they were written. -/
structure ReadsMember (depth : Nat) (member : Name × Json) : Prop where
  name : member.1.spelled.name? = some member.1
  value : Reads depth member.2

theorem run?_members {members : Members} {parts : List (Spelled × Json)} {last : Spelled}
    (nonempty : members ≠ []) (naming : expected.Naming)
    (reads : ∀ member ∈ members, ReadsMember depth member)
    (shallow : outer.length + (depth + 1) ≤ maxDepth) :
    ∃ name, Reading.run? .between ⟨.object parts last :: outer, expected⟩
        (printMembers members ++ '\x7d'.toUInt8 :: xs) =
      Reading.run? .between (.closeFrame (.object
        ((members.map fun (name, value) => (name.spelled, value)).reverse ++ parts) name) outer) xs := by
  induction members generalizing parts last expected with
  | nil => exact absurd rfl nonempty
  | cons member rest ih =>
      obtain ⟨name, value⟩ := member
      have first := (reads _ List.mem_cons_self).value
      have inside : (Frame.object parts name.spelled :: outer).length + depth ≤ maxDepth := by
        rw [List.length_cons]
        omega
      have named {b : UInt8} {ys : Bytes} (delimits : Delimits b) :
          Reading.run? .between ⟨.object parts last :: outer, expected⟩
              (quoted (Bytes.ofText name.text) ++ ':'.toUInt8 :: (value.print ++ b :: ys)) =
            Reading.run? .between ⟨.object ((name.spelled, value) :: parts) name.spelled :: outer,
              .separator⟩ (b :: ys) := by
        refine (run?_quoted name.text (step?_name naming)).trans ?_
        refine (run?_token rfl rfl).trans ?_
        exact first .value inside delimits
      cases rest with
      | nil =>
          rw [printMembers, List.append_assoc, List.cons_append, named (.inr (.inr rfl))]
          exact ⟨_, run?_token rfl rfl⟩
      | cons second more =>
          have others := fun other member => reads other (List.mem_cons_of_mem _ member)
          obtain ⟨final, later⟩ := @ih .name ((name.spelled, value) :: parts) name.spelled
            (List.cons_ne_nil _ _) .name others
          refine ⟨final, ?_⟩
          rw [printMembers, List.append_assoc, List.append_assoc, List.cons_append, List.cons_append,
            named (.inl rfl), List.map_cons, List.reverse_cons, List.append_assoc]
          exact (run?_token rfl rfl).trans later
          · simp

theorem members?_spelled {members : Members} (reads : ∀ member ∈ members, ReadsMember depth member) :
    members? (members.map fun (name, value) => (name.spelled, value)) = some members := by
  rw [members?, List.mapM_map]
  induction members with
  | nil => rfl
  | cons member rest ih =>
      have others := ih fun other among => reads other (List.mem_cons_of_mem _ among)
      rw [List.mapM_cons, others]
      simp [(reads member List.mem_cons_self).name]

theorem run?_object {members : Members} (opened : expected.Open)
    (reads : ∀ member ∈ members, ReadsMember depth member)
    (shallow : frames.length + (depth + 1) ≤ maxDepth) :
    Reading.run? .between ⟨frames, expected⟩ ((object members).print ++ xs) =
      Reading.run? .between (.complete (.object members) frames) xs := by
  have inside : frames.length + 1 ≤ maxDepth := by omega
  have opens : Reading.step? ⟨frames, expected⟩ .objectOpen =
      some ⟨.object [] .absent :: frames, .firstName⟩ := by
    cases opened <;> rfl
  rw [print, List.cons_append, List.cons_append, List.append_assoc, List.singleton_append,
    run?_token rfl opens]
  cases members with
  | nil =>
      refine (run?_token rfl rfl).trans ?_
      rw [Reading.closeFrame, Frame.document, if_pos inside]
      rfl
  | cons member rest =>
      obtain ⟨last, whole⟩ := run?_members (List.cons_ne_nil _ _) .firstName reads shallow
      refine whole.trans ?_
      rw [Reading.closeFrame, Frame.document, if_pos inside, List.append_nil, List.reverse_reverse,
        members?_spelled reads]

/-- An object makes a document of its own. -/
theorem parse?_object {members : Members} (reads : ∀ member ∈ members, ReadsMember depth member)
    (shallow : depth + 1 ≤ maxDepth) : parse? (object members).print = some (.object members) := by
  have whole := @run?_object [] .value [] depth members .value reads (by simpa using shallow)
  rw [List.append_nil] at whole
  exact whole

end Containers

end DurableFlow.Json
