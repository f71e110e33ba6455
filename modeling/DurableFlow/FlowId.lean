import DurableFlow.Bytes

/-! # Flow ids

A flow is named by a 128-bit number, written as 32 hexadecimal digits in groups of 8, 4, 4, 4 and
12. Reading also takes the digits without hyphens, and the grouped form in braces or behind the
URN scheme, in which case does not matter.
-/

namespace DurableFlow

structure FlowId where
  value : BitVec 128
  deriving DecidableEq, Repr, Inhabited

namespace FlowId

instance : Ord FlowId := ⟨compareOn (·.value.toNat)⟩

instance : Std.TransOrd FlowId :=
  inferInstanceAs (Std.TransCmp (compareOn (fun id : FlowId => id.value.toNat)))

instance : Std.LawfulEqOrd FlowId where
  compare_self {a} := @Std.ReflCmp.compare_self _ compare _ a.value.toNat
  eq_of_compare {a b} h := by
    have : a.value.toNat = b.value.toNat := @Std.LawfulEqCmp.eq_of_compare _ compare _ _ _ h
    cases a
    cases b
    simpa [BitVec.toNat_inj] using this

/-- The low `count` hexadecimal digits of a number, most significant first. -/
def hexDigits : Nat → Nat → List Nat
  | 0, _ => []
  | count + 1, n => hexDigits count (n / 16) ++ [n % 16]

def ofHexDigits (digits : List Nat) : Nat := digits.foldl (fun n d => 16 * n + d) 0

/-- Put a hyphen after the 8th, 12th, 16th and 20th digit. -/
def grouped (digits : List Char) : List Char :=
  digits.take 8 ++ '-' :: (digits.drop 8).take 4 ++ '-' :: (digits.drop 12).take 4 ++
    '-' :: (digits.drop 16).take 4 ++ '-' :: digits.drop 20

/-- The digits of a grouped text of 36 characters. -/
def ungrouped? (text : List Char) : Option (List Char) :=
  let digits := text.take 8 ++ (text.drop 9).take 4 ++ (text.drop 14).take 4 ++
    (text.drop 19).take 4 ++ text.drop 24
  if text.length = 36 ∧ grouped digits = text then some digits else none

def text (id : FlowId) : String :=
  String.ofList (grouped ((hexDigits 32 id.value.toNat).map hexChar))

/-- The digits that an accepted text of a flow id contains. -/
def digitsOf? (text : List Char) : Option (List Char) :=
  if text.length = 32 then some text
  else if text.length = 36 then ungrouped? text
  else if text.length = 38 then
    if text.head? = some '\x7b' ∧ text.getLast? = some '\x7d' then
      ungrouped? (text.drop 1).dropLast
    else none
  else if text.length = 45 then
    let scheme := String.ofList ((text.take 9).map Char.toLower)
    if scheme = "urn:uuid:" then ungrouped? (text.drop 9) else none
  else none

def ofText? (text : String) : Option FlowId := do
  let digits ← digitsOf? text.toList
  let values ← digits.mapM hexDigit?
  return ⟨BitVec.ofNat 128 (ofHexDigits values)⟩

end FlowId

end DurableFlow
