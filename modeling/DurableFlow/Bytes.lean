/-! # Octet strings

Payloads, flow arguments, flow states and continuations are octet strings. A text and its octets
are related by UTF-8; an octet string that is not UTF-8 is still shown, as pairs of hexadecimal
digits.
-/

namespace DurableFlow

abbrev Bytes := List UInt8

def hexDigit? (c : Char) : Option Nat :=
  if '0' ≤ c ∧ c ≤ '9' then some (c.toNat - '0'.toNat)
  else if 'a' ≤ c ∧ c ≤ 'f' then some (c.toNat - 'a'.toNat + 10)
  else if 'A' ≤ c ∧ c ≤ 'F' then some (c.toNat - 'A'.toNat + 10)
  else none

/-- The lower-case hexadecimal digit of a number below 16. -/
def hexChar (digit : Nat) : Char :=
  if digit < 10 then Char.ofNat ('0'.toNat + digit) else Char.ofNat ('a'.toNat + (digit - 10))

namespace Bytes

/-- The UTF-8 octets of a text. -/
def ofText (text : String) : Bytes := text.toUTF8.data.toList

/-- The text whose UTF-8 octets these are. -/
def text? (bytes : Bytes) : Option String := String.fromUTF8? ⟨bytes.toArray⟩

/-- Two lower-case hexadecimal digits for each octet. -/
def hex (bytes : Bytes) : String :=
  String.ofList (bytes.flatMap fun b => [hexChar (b.toNat / 16), hexChar (b.toNat % 16)])

/-- The octets that pairs of hexadecimal digits stand for. -/
def ofHexDigits? : List Char → Option Bytes
  | [] => some []
  | high :: low :: rest => do
    let h ← hexDigit? high
    let l ← hexDigit? low
    let tail ← ofHexDigits? rest
    return UInt8.ofNat (16 * h + l) :: tail
  | [_] => none

def ofHex? (text : String) : Option Bytes := ofHexDigits? text.toList

theorem text?_ofText (text : String) : (ofText text).text? = some text := by
  have h : (⟨(ofText text).toArray⟩ : ByteArray) = text.toByteArray := by
    simp [ofText, String.toUTF8]
  unfold text? String.fromUTF8?
  rw [h, dif_pos text.isValidUTF8]
  rfl

end Bytes

end DurableFlow
