/-!
# Double precision rules

Host arithmetic on floating point components is carried out in double precision. This
module holds the operations on such numbers that need a rule of their own.
-/

namespace ShaderKit.Double

def isNegative (number : Float) : Bool :=
  number.toBits.toNat ≥ 0x8000000000000000

def withSignOf (sign magnitude : Float) : Float :=
  if isNegative sign then -magnitude else magnitude

/-- The nearest integer; a tie goes to the even one. The sign is kept, also on zeros. -/
def roundEven (number : Float) : Float :=
  let whole := number.abs.floor
  let rest := number.abs - whole
  let isEven := whole / 2 == (whole / 2).floor
  let rounded :=
    if rest < 0.5 then whole
    else if rest > 0.5 then whole + 1
    else if isEven then whole else whole + 1
  withSignOf number rounded

def truncate (number : Float) : Float :=
  withSignOf number number.abs.floor

def fractionLimit : Nat := 0x10000000000000

/-- A finite magnitude as a natural number times a power of two. -/
def parts (number : Float) : Nat × Int :=
  let pattern := number.toBits.toNat
  let exponent : Nat := pattern / fractionLimit % 2048
  let fraction := pattern % fractionLimit
  if exponent = 0 then (fraction, -1074)
  else (fraction + fractionLimit, Int.ofNat exponent - 1075)

/-- The remainder of finite numbers, computed without rounding on a common power of two.
It has the sign of the dividend. -/
def finiteRemainder (dividend divisor : Float) : Float :=
  let (significand, exponent) := parts dividend
  let (divisorSignificand, divisorExponent) := parts divisor
  let common := min exponent divisorExponent
  let rest := significand * Nat.pow 2 (exponent - common).toNat %
    (divisorSignificand * Nat.pow 2 (divisorExponent - common).toNat)
  withSignOf dividend ((Float.ofNat rest).scaleB common)

def remainder (dividend divisor : Float) : Float :=
  if dividend.isNaN || divisor.isNaN || dividend.isInf || divisor == 0 then 0 / 0
  else if divisor.isInf then dividend
  else finiteRemainder dividend divisor

def least (left right : Float) : Float :=
  if left.isNaN then right
  else if right.isNaN then left
  else if left < right then left else right

def greatest (left right : Float) : Float :=
  if left.isNaN then right
  else if right.isNaN then left
  else if left > right then left else right

def limit (number : Float) : Float :=
  if number < 0 then 0 else if number > 1 then 1 else number

def signOf (number : Float) : Float :=
  if number > 0 then 1 else if number < 0 then -1 else 0

/-- The sum from left to right. An empty sum is negative zero, which is the neutral
element of addition. -/
def sum (numbers : List Float) : Float :=
  numbers.foldl (· + ·) (-0.0)

def circleRatio : Float := 3.141592653589793

/-- An angle in radians. The factor is rounded before the product is. -/
def radiansOfDegrees (degrees : Float) : Float :=
  degrees * (circleRatio / 180)

def degreesOfRadians (radians : Float) : Float :=
  radians * (180 / circleRatio)

end ShaderKit.Double
