import DurableFlow.Json
import DurableFlow.Decimal.Shortest

/-! # Writing JSON

Documents are written without blanks. A string is its UTF-8 octets, of which only the quotation
mark, the backslash and the control characters below the blank are escaped. A double is written
with the fewest digits that read back, positionally from `1e-5` up to below `1e16`, otherwise with
a signed exponent.
-/

namespace DurableFlow

open Decimal (Number)

namespace Json

/-- How one octet of a string is written. -/
def escape (b : UInt8) : Bytes :=
  if b = '"'.toUInt8 then Bytes.ofText "\\\""
  else if b = '\\'.toUInt8 then Bytes.ofText "\\\\"
  else if b = 0x08 then Bytes.ofText "\\b"
  else if b = 0x09 then Bytes.ofText "\\t"
  else if b = 0x0a then Bytes.ofText "\\n"
  else if b = 0x0c then Bytes.ofText "\\f"
  else if b = 0x0d then Bytes.ofText "\\r"
  else if b < 0x20 then Bytes.ofText ("\\u00" ++ Bytes.hex [b])
  else [b]

def quoted (bytes : Bytes) : Bytes := '"'.toUInt8 :: bytes.flatMap escape ++ ['"'.toUInt8]

def intText (n : Int) : String :=
  if n < 0 then "-" ++ Decimal.text n.natAbs else Decimal.text n.toNat

/-- An exponent, always with its sign. -/
def exponentText (n : Int) : String := (if n < 0 then "e" else "e+") ++ intText n

/-- A finite positive decimal `c * 10 ^ d` without trailing zeros in `c`. -/
def decimalText (c : Nat) (d : Int) : String :=
  let ds := Decimal.text c
  let length : Int := ds.length
  let point := length + d
  if 0 ≤ d ∧ point ≤ 16 then ds ++ String.ofList (List.replicate d.toNat '0') ++ ".0"
  else if 0 < point ∧ point ≤ 16 then
    String.ofList (ds.toList.take point.toNat) ++ "." ++
      String.ofList (ds.toList.drop point.toNat)
  else if -5 < point ∧ point ≤ 0 then
    "0." ++ String.ofList (List.replicate (-point).toNat '0') ++ ds
  else if length = 1 then ds ++ exponentText (point - 1)
  else
    String.ofList (ds.toList.take 1) ++ "." ++ String.ofList (ds.toList.drop 1) ++
      exponentText (point - 1)

/-- A double; one that is not finite has no numeral and is written `null`. -/
def floatText (x : Float) : String :=
  let bits := x.toBits.toNat
  let magnitude := bits % Nat.pow 2 63
  let sign := if bits < Nat.pow 2 63 then "" else "-"
  if 0x7ff0000000000000 ≤ magnitude then "null"
  else if magnitude = 0 then sign ++ "0.0"
  else
    let (c, d) := Decimal.Shortest.ofBits magnitude
    sign ++ decimalText c d

def numberText : Number → String
  | .int n => intText n
  | .float x => floatText x

mutual

/-- The octets of a document. A part that denotes nothing is written `null`. -/
def print : Json → Bytes
  | .null => Bytes.ofText "null"
  | .bool true => Bytes.ofText "true"
  | .bool false => Bytes.ofText "false"
  | .number n => Bytes.ofText (numberText n)
  | .text s => quoted (Bytes.ofText s)
  | .array items => '['.toUInt8 :: printItems items ++ [']'.toUInt8]
  | .object members => '\x7b'.toUInt8 :: printMembers members ++ ['\x7d'.toUInt8]
  | .octets bytes _ => quoted bytes
  | .unreadable _ => Bytes.ofText "null"

def printItems : List Json → Bytes
  | [] => []
  | [item] => print item
  | item :: rest => print item ++ ','.toUInt8 :: printItems rest

def printMembers : List (Name × Json) → Bytes
  | [] => []
  | [(name, value)] => quoted (Bytes.ofText name.text) ++ ':'.toUInt8 :: print value
  | (name, value) :: rest =>
    quoted (Bytes.ofText name.text) ++ ':'.toUInt8 :: print value ++ ','.toUInt8 :: printMembers rest

end

end Json

end DurableFlow
