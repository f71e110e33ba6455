import DurableFlow.Decimal

/-! # Numerals and the numbers they denote

A numeral is an optional sign, a whole part without superfluous zeros, and an optional fraction and
exponent. A numeral without fraction and exponent that fits 64 bits denotes an integer; every
other one denotes a double. The double is not always the nearest one: the significand keeps the
leading digits that fit 64 bits and is then scaled by powers of ten, each step rounding once.
-/

namespace DurableFlow.Decimal

structure Numeral where
  negative : Bool
  whole : Bytes
  /-- The digits after the point, if there is a point. -/
  fraction : Option Bytes
  /-- The sign and digits of the exponent, if there is one. -/
  exponent : Option (Bool × Bytes)
  deriving DecidableEq, Repr

/-- A number that fits 64 bits, or a double. -/
inductive Number where
  | int (value : Int)
  | float (value : Float)
  deriving Repr, Inhabited

namespace Numeral

/-- The exponent of a numeral whose earlier parts have been read. -/
def withExponent? (numeral : Numeral) : Bytes → Option Numeral
  | [] => some numeral
  | mark :: rest =>
    if mark = 'e'.toUInt8 ∨ mark = 'E'.toUInt8 then
      let (negative, ds) := match rest with
        | sign :: ds =>
          if sign = '-'.toUInt8 then (true, ds)
          else if sign = '+'.toUInt8 then (false, ds)
          else (false, rest)
        | [] => (false, [])
      if ds.isEmpty || !ds.all isDigit then none
      else some { numeral with exponent := some (negative, ds) }
    else none

/-- The fraction and exponent of a numeral whose whole part has been read. -/
def withFraction? (numeral : Numeral) : Bytes → Option Numeral
  | [] => some numeral
  | mark :: rest =>
    if mark = '.'.toUInt8 then
      let ds := rest.takeWhile isDigit
      if ds.isEmpty then none
      else { numeral with fraction := some ds }.withExponent? (rest.dropWhile isDigit)
    else numeral.withExponent? (mark :: rest)

/-- The numeral that an octet string is. The whole part is a single zero or starts with another
digit. -/
def ofBytes? (bytes : Bytes) : Option Numeral :=
  let (negative, unsigned) := match bytes with
    | sign :: rest => if sign = '-'.toUInt8 then (true, rest) else (false, bytes)
    | [] => (false, [])
  let whole := unsigned.takeWhile isDigit
  let rest := unsigned.dropWhile isDigit
  match whole with
  | [] => none
  | first :: others =>
    if first = '0'.toUInt8 ∧ others ≠ [] then none
    else withFraction? ⟨negative, whole, none, none⟩ rest

def maxWord : Nat := Nat.pow 2 64 - 1

/-- Append digits to a significand as long as it fits 64 bits; also the digits left over. -/
def absorb (significand : Nat) : Bytes → Nat × Bytes
  | [] => (significand, [])
  | d :: ds =>
    let next := 10 * significand + digitValue d
    if next ≤ maxWord then absorb next ds else (significand, d :: ds)

/-- A power of ten as a double, correctly rounded. -/
def powerOfTen (n : Nat) : Float := Float.ofScientific 1 false n

/-- Scale a double down by ten to the `n`, at most 308 powers at a time. -/
def scaleDown (x : Float) (n : Nat) : Float :=
  if n ≤ 308 then x / powerOfTen n
  else if x == 0 then x
  else scaleDown (x / powerOfTen 308) (n - 308)
termination_by n

/-- A significand times a power of ten, unless it is too large for a double. -/
def scale? (significand : Nat) (exponent : Int) : Option Float :=
  let x := (UInt64.ofNat significand).toFloat
  if exponent < 0 then some (scaleDown x exponent.natAbs)
  else if exponent ≤ 308 then
    let y := x * powerOfTen exponent.toNat
    if y.isInf then none else some y
  else if x == 0 then some x
  else none

/-- The largest exponent that is looked at digit by digit. -/
def maxExponent : Nat := Nat.pow 2 31 - 1

/-- The double a numeral denotes before its sign, unless it is too large. -/
def magnitude? (numeral : Numeral) : Option Float :=
  let (significand, dropped) := absorb 0 numeral.whole
  let places : Int := dropped.length
  let (significand, places) := match numeral.fraction with
    | none => (significand, places)
    | some ds =>
      let (significand, unread) := absorb significand ds
      (significand, places - (ds.length - unread.length : Nat))
  match numeral.exponent with
  | none => scale? significand places
  | some (negative, ds) =>
    let e := value ds
    if maxExponent < e then
      if significand ≠ 0 ∧ ¬ negative then none else some 0
    else scale? significand (if negative then places - e else places + e)

/-- The number a numeral denotes, unless it is too large for a double. Minus zero is a double. -/
def number? (numeral : Numeral) : Option Number :=
  let n := value numeral.whole
  let plain := numeral.fraction.isNone && numeral.exponent.isNone
  if plain && !numeral.negative && n ≤ maxWord then some (.int n)
  else if plain && numeral.negative && 0 < n && n ≤ Nat.pow 2 63 then some (.int (-n))
  else do
    let x ← numeral.magnitude?
    return .float (if numeral.negative then -x else x)

end Numeral

end DurableFlow.Decimal
