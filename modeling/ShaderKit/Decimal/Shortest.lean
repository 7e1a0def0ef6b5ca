/-!
# Shortest decimal digits

A binary floating point number is determined by any decimal inside its rounding
interval, the set of reals that are nearer to it than to its neighbours. Among those
decimals the ones with fewest digits are chosen, and of them the nearest to the number.
All comparisons are made in natural numbers.
-/

namespace ShaderKit.Decimal

def power (base : Nat) (exponent : Int) : Nat :=
  Nat.pow base exponent.toNat

/-- A positive number with its rounding interval, as natural numbers over one common
denominator. The ends belong to the interval when `closed` holds. -/
structure Interval where
  low : Nat
  value : Nat
  high : Nat
  denominator : Nat
  closed : Bool
deriving DecidableEq, Repr

/-- The interval of `significand * 2 ^ exponent`. The lower neighbour is half as far away
when the number is a power of two above the smallest exponent. -/
def Interval.ofBinary (significand : Nat) (exponent : Int) (powerOfTwo : Bool) : Interval :=
  let scale := power 2 (exponent - 2)
  { low := (if powerOfTwo then 4 * significand - 1 else 4 * significand - 2) * scale
    value := 4 * significand * scale
    high := (4 * significand + 2) * scale
    denominator := power 2 (2 - exponent)
    closed := significand % 2 == 0 }

def Interval.contains (interval : Interval) (digits : Nat) (exponent : Int) : Bool :=
  let point := digits * power 10 exponent * interval.denominator
  let scale := power 10 (-exponent)
  if interval.closed then
    interval.low * scale ≤ point && point ≤ interval.high * scale
  else
    interval.low * scale < point && point < interval.high * scale

def Interval.gridBelow (interval : Interval) (exponent : Int) : Nat :=
  interval.value * power 10 (-exponent) / (interval.denominator * power 10 exponent)

def Interval.nearer (interval : Interval) (below : Nat) (exponent : Int) : Nat :=
  let twiceValue := 2 * interval.value * power 10 (-exponent)
  let middle := (2 * below + 1) * (interval.denominator * power 10 exponent)
  if twiceValue < middle then below else below + 1

/-- A point of the grid `10 ^ exponent` inside the interval, the nearest one if both
neighbours of the value are inside. -/
def Interval.gridPoint? (interval : Interval) (exponent : Int) : Option Nat :=
  let below := interval.gridBelow exponent
  match interval.contains below exponent, interval.contains (below + 1) exponent with
  | true, true => some (interval.nearer below exponent)
  | true, false => some below
  | false, true => some (below + 1)
  | false, false => none

/-- A decimal number `0.d₁d₂… * 10 ^ point`. -/
structure Digits where
  digits : List Char
  point : Int
deriving DecidableEq, Repr

def trimZeros (digits : List Char) : List Char :=
  (digits.reverse.dropWhile (· == '0')).reverse

def Digits.ofGrid (count : Nat) (exponent : Int) : Digits :=
  let digits := Nat.toDigits 10 count
  ⟨trimZeros digits, exponent + digits.length⟩

/-- The position `point` with `10 ^ (point - 1) ≤ value < 10 ^ point`, searched upwards
from `point`. -/
def Interval.findPoint (interval : Interval) : (tries : Nat) → (point : Int) → Int
  | 0, point => point
  | tries + 1, point =>
      if interval.value * power 10 (-point) < interval.denominator * power 10 point then
        point
      else findPoint interval tries (point + 1)

def Interval.findDigits (interval : Interval) (point : Int) :
    (tries : Nat) → (length : Nat) → Digits
  | 0, length => .ofGrid (interval.gridBelow (point - length)) (point - length)
  | tries + 1, length =>
      match interval.gridPoint? (point - length) with
      | some count => .ofGrid count (point - length)
      | none => findDigits interval point tries (length + 1)

def shortestSingle (magnitude : Nat) : Digits :=
  let exponent := magnitude / 0x800000
  let fraction := magnitude % 0x800000
  let interval :=
    if exponent = 0 then Interval.ofBinary fraction (-149) false
    else Interval.ofBinary (fraction + 0x800000) (exponent - 150)
      (fraction == 0 && exponent != 1)
  interval.findDigits (interval.findPoint 90 (-46)) 9 1

structure Format where
  /-- Numbers below ten to this power have an exponent. -/
  smallest : Int
  /-- Numbers from ten to this power have an exponent. -/
  largest : Int
deriving DecidableEq, Repr

def positional (number : Digits) : List Char :=
  if number.point ≤ 0 then
    '0' :: '.' :: List.replicate (-number.point).toNat '0' ++ number.digits
  else
    let whole := number.point.toNat
    let before := number.digits.take whole
    let after := number.digits.drop whole
    before ++ List.replicate (whole - before.length) '0' ++
      '.' :: (if after.isEmpty then ['0'] else after)

def scientific (number : Digits) : List Char :=
  let exponent := (toString (number.point - 1)).toList
  match number.digits with
  | [] => ['0']
  | [digit] => digit :: 'e' :: exponent
  | digit :: rest => digit :: '.' :: rest ++ 'e' :: exponent

def Format.write (format : Format) (number : Digits) : List Char :=
  if format.smallest < number.point && number.point ≤ format.largest then positional number
  else scientific number

def singleFormat : Format := ⟨-4, 16⟩

def writeSingle (bits : UInt32) : List Char :=
  let pattern := bits.toNat
  let magnitude := pattern % 0x80000000
  let sign := pattern / 0x80000000 == 1
  if magnitude > 0x7f800000 then ['N', 'a', 'N']
  else
    let text :=
      if magnitude = 0x7f800000 then ['i', 'n', 'f']
      else if magnitude = 0 then ['0', '.', '0']
      else singleFormat.write (shortestSingle magnitude)
    if sign then '-' :: text else text

example : String.ofList (writeSingle 0x3dcccccd) = "0.1" := by decide +kernel
example : String.ofList (writeSingle 0xc0490fdb) = "-3.1415927" := by decide +kernel
example : String.ofList (writeSingle 0x5a0e1bca) = "1e16" := by decide +kernel
example : String.ofList (writeSingle 0x38d1b717) = "0.0001" := by decide +kernel
example : String.ofList (writeSingle 0xca033e01) = "-2150272.3" := by decide +kernel
example : String.ofList (writeSingle 0x00000001) = "1e-45" := by decide +kernel

end ShaderKit.Decimal
