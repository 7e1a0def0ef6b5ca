/-!
# Half precision floating point

The sixteen-bit format has a sign, five exponent bits and ten fraction bits. Values are
kept as bit patterns; this module widens a pattern to single precision, which is exact,
and rounds a single precision pattern to the nearest half, ties to the even neighbour.
-/

namespace ShaderKit

/-- The quotient of two natural numbers rounded to the nearest one; a tie goes to the
even neighbour. -/
def roundHalfEven (numerator denominator : Nat) : Nat :=
  let quotient := numerator / denominator
  let twiceRest := 2 * (numerator % denominator)
  if twiceRest < denominator then quotient
  else if twiceRest > denominator then quotient + 1
  else quotient + quotient % 2

example : [5, 7, 9, 10].map (roundHalfEven · 2) = [2, 4, 4, 5] := by decide

namespace Half

def infinity : Nat := 0x7c00

/-- The single precision magnitude of a half precision magnitude. -/
def widenMagnitude (magnitude : Nat) : Nat :=
  let exponent := magnitude / 1024
  let fraction := magnitude % 1024
  if exponent = 31 then 0x7f800000 + fraction * 8192
  else if exponent = 0 then
    if fraction = 0 then 0
    else
      let top := fraction.log2
      (top + 103) * 0x800000 + (fraction * Nat.pow 2 (23 - top) - 0x800000)
  else (exponent + 112) * 0x800000 + fraction * 8192

def widen (bits : UInt16) : UInt32 :=
  let pattern := bits.toNat
  UInt32.ofNat (pattern / 0x8000 * 0x80000000 + widenMagnitude (pattern % 0x8000))

/-- The half precision magnitude nearest to a single precision magnitude. One unit of the
result is the spacing of halves around the value, so a carry of the rounded fraction moves
into the exponent by itself. -/
def narrowMagnitude (magnitude : Nat) : Nat :=
  let exponent := magnitude / 0x800000
  let fraction := magnitude % 0x800000
  if exponent = 255 then if fraction = 0 then infinity else infinity + 0x200
  else if exponent < 102 then 0
  else
    let significand := fraction + 0x800000
    let rounded :=
      if exponent < 113 then roundHalfEven significand (Nat.pow 2 (126 - exponent))
      else (exponent - 113) * 1024 + roundHalfEven significand 8192
    min rounded infinity

/-- The nearest half precision pattern. -/
def narrow (bits : UInt32) : UInt16 :=
  let pattern := bits.toNat
  UInt16.ofNat (pattern / 0x80000000 * 0x8000 + narrowMagnitude (pattern % 0x80000000))

example : widen 0x3c00 = 0x3f800000 := by decide
example : widen 0x0001 = 0x33800000 := by decide
example : narrow 0x477ff000 = 0x7c00 := by decide
example : narrow 0x33000001 = 0x0001 := by decide

def isFinite (bits : UInt16) : Bool :=
  bits.toNat / 1024 % 32 != 31

def negate (bits : UInt16) : UInt16 :=
  bits ^^^ 0x8000

def isNaN (bits : UInt16) : Bool :=
  bits.toNat % 0x8000 > infinity

end Half

/-! ## Single precision patterns -/

namespace Single

def isFinite (bits : UInt32) : Bool :=
  bits.toNat / 0x800000 % 256 != 255

def negate (bits : UInt32) : UInt32 :=
  bits ^^^ 0x80000000

def isNaN (bits : UInt32) : Bool :=
  bits.toNat % 0x80000000 > 0x7f800000

end Single

end ShaderKit
