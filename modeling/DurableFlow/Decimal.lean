import DurableFlow.Bytes

/-! # Natural numbers in decimal -/

namespace DurableFlow.Decimal

def isDigit (b : UInt8) : Bool := '0'.toUInt8 ≤ b && b ≤ '9'.toUInt8

def digitValue (b : UInt8) : Nat := b.toNat - '0'.toNat

/-- The digits of a number, most significant first and without leading zeros. -/
def digits (n : Nat) : Bytes := (Nat.toDigits 10 n).map Char.toUInt8

def text (n : Nat) : String := String.ofList (Nat.toDigits 10 n)

/-- The text of a number filled up with zeros to at least `width` digits. -/
def padded (width n : Nat) : String :=
  let ds := Nat.toDigits 10 n
  String.ofList (List.replicate (width - ds.length) '0' ++ ds)

/-- The number that a run of digits stands for, continuing from `start`. -/
def valueFrom (start : Nat) (ds : Bytes) : Nat :=
  ds.foldl (fun n b => 10 * n + digitValue b) start

def value (ds : Bytes) : Nat := valueFrom 0 ds

end DurableFlow.Decimal
