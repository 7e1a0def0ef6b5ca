import ShaderKit.Function.Standard
import ShaderKit.Host.Arithmetic

/-!
# Standard functions on host values

The type checker admits only arguments that fit an overload, but host values carry no
types, and a recording may be run with constants other than those it was made with. So
each function also says what it does with components of other kinds: a result is rounded to
the kind of the first argument, and where a function makes no sense there is no answer.
-/

namespace ShaderKit

namespace Scalar

def mapFloat (transform : Float → Float) (value : Scalar) : Option Scalar :=
  if value.kind.isFloat then some (ofFloat value.kind (transform value.toFloat)) else none

def zipNumber (combine : Float → Float → Float) (left right : Scalar) : Option Scalar :=
  if left.kind.isNumeric then some (ofFloat left.kind (combine left.toFloat right.toFloat))
  else none

def least (left right : Scalar) : Option Scalar :=
  match left, right with
  | .i32 first, .i32 second => some (.i32 (if first < second then first else second))
  | .u32 first, .u32 second => some (.u32 (if first < second then first else second))
  | _, _ => zipNumber Double.least left right

def greatest (left right : Scalar) : Option Scalar :=
  match left, right with
  | .i32 first, .i32 second => some (.i32 (if second < first then first else second))
  | .u32 first, .u32 second => some (.u32 (if second < first then first else second))
  | _, _ => zipNumber Double.greatest left right

/-- The magnitude of a number. That of the least integer wraps around to itself, and a
truth value is its own. -/
def magnitude (value : Scalar) : Option Scalar :=
  match value with
  | .bool truth => some (.bool truth)
  | .i32 number => some (.i32 (if number < 0 then -number else number))
  | .u32 number => some (.u32 number)
  | other => other.mapFloat Float.abs

example : magnitude (.i32 Int32.minValue) = some (.i32 Int32.minValue) := by decide
example : least (.bool true) (.i32 0) = none := rfl

def sign (value : Scalar) : Option Scalar :=
  some (ofFloat value.kind (Double.signOf value.toFloat))

end Scalar

namespace HostValue

def mapFloats (transform : Float → Float) (value : HostValue) : Option HostValue :=
  value.mapComponents (Scalar.mapFloat transform)

def zipNumbers (combine : Float → Float → Float) (left right : HostValue) :
    Option HostValue :=
  zipComponents (Scalar.zipNumber combine) left right

/-- The inner product. Each product and each sum is rounded. -/
def innerProduct (left right : HostValue) : Option Scalar := do
  let first ← left.components?
  let second ← right.components?
  let kind ← left.componentKind?
  (first.zip second).foldlM (fun sum pair => do
    let product ← Scalar.applyBinary .mul pair.1 pair.2
    Scalar.applyBinary .add sum product) (Scalar.zero kind)

/-- The Euclidean length, without rounding to a kind. -/
def euclideanLength (value : HostValue) : Option Float := do
  let values ← value.components?
  let squares := values.map fun component => component.toFloat * component.toFloat
  some (Double.sum squares).sqrt

def roundLike (value : HostValue) (number : Float) : Option HostValue := do
  let kind ← value.componentKind?
  some (.scalar (.ofFloat kind number))

def crossProduct (left right : HostValue) : Option HostValue := do
  let first ← left.components?
  let second ← right.components?
  let kind ← left.componentKind?
  match first.map Scalar.toFloat, second.map Scalar.toFloat with
  | x₁ :: y₁ :: z₁ :: _, x₂ :: y₂ :: z₂ :: _ =>
      some (.vector (roundedVector kind
        [y₁ * z₂ - z₁ * y₂, z₁ * x₂ - x₁ * z₂, x₁ * y₂ - y₁ * x₂]))
  | _, _ => none

def normalized (value : HostValue) : Option HostValue := do
  let length ← value.euclideanLength
  value.mapFloats fun number => number / length

def reflected (incident normal : HostValue) : Option HostValue := do
  let product ← innerProduct normal incident
  let scaled ← normal.mapFloats fun number => 2 * product.toFloat * number
  applyBinary .sub incident scaled

def transposed : HostValue → Option HostValue
  | .matrix columns => do
      let first ← columns.head?
      let rows ← (List.range first.length).mapM fun row =>
        columns.mapM fun column => column[row]?
      some (.matrix rows)
  | _ => none

def allHold (value : HostValue) : Option HostValue := do
  let values ← value.components?
  some (.scalar (.bool (values.all (· = .bool true))))

def anyHolds (value : HostValue) : Option HostValue := do
  let values ← value.components?
  some (.scalar (.bool (values.any (· = .bool true))))

def mixed (first second weight : HostValue) : Option HostValue := do
  let rest ← weight.mapFloats fun number => 1 - number
  let left ← applyBinary .mul first rest
  let right ← applyBinary .mul second weight
  applyBinary .add left right

def selectComponents (conditions first second : Components) : Components :=
  List.zipWith (fun condition pair => if condition = .bool true then pair.2 else pair.1)
    conditions (first.zip second)

def selected (first second condition : HostValue) : Option HostValue :=
  match condition with
  | .scalar (.bool truth) => some (if truth then second else first)
  | .vector conditions => do
      let rejected ← first.components?
      let accepted ← second.components?
      some (.vector (selectComponents conditions rejected accepted))
  | _ => none

/-- The smooth step between two edges, without rounding in between. -/
def smoothRatio (low high number : Float) : Float :=
  let ratio := Double.limit ((number - low) / (high - low))
  ratio * ratio * (3 - 2 * ratio)

def smoothTransition (low high value : HostValue) : Option HostValue := do
  let lows ← low.components?
  let highs ← high.components?
  let values ← value.components?
  let kind ← low.componentKind?
  let edges := lows.zip highs
  let result := List.zipWith (fun edge component =>
    Scalar.ofFloat kind
      (smoothRatio edge.1.toFloat edge.2.toFloat component.toFloat)) edges values
  match low with
  | .scalar _ => result.head?.map HostValue.scalar
  | _ => some (.vector result)

end HostValue

/-! ## Determinants -/

def removals {α : Type} : List α → List (α × List α)
  | [] => []
  | column :: rest =>
      (column, rest) :: (removals rest).map fun (taken, others) => (taken, column :: others)

def alternating (positive : Bool) : List (Float × Float) → List Float
  | [] => []
  | (entry, minor) :: rest =>
      (if positive then 1 else -1) * entry * minor :: alternating (!positive) rest

/-- The determinant of the first rows of a matrix with the given number of columns, expanded
along the first row. There is none if the rows are fewer than the columns. -/
def determinant : (size : Nat) → List (List Float) → Option Float
  | 0, _ => some 1
  | 1, columns => columns.head?.bind List.head?
  | size + 1, columns => do
      let terms ← (removals columns).mapM fun (column, others) => do
        let entry ← column.head?
        let minor ← determinant size (others.map List.tail)
        some (entry, minor)
      some (Double.sum (alternating true terms))

def HostValue.determinant? (value : HostValue) : Option HostValue :=
  match value with
  | .matrix columns => do
      value.roundLike (← determinant columns.length (columnNumbers columns))
  | _ => none

/-! ## Evaluation -/

namespace StandardFunction

open HostValue

def applyOne (function : StandardFunction) (value : HostValue) : Option HostValue :=
  match function with
  | .abs => value.mapComponents Scalar.magnitude
  | .saturate => value.mapFloats Double.limit
  | .sin => value.mapFloats Float.sin
  | .cos => value.mapFloats Float.cos
  | .tan => value.mapFloats Float.tan
  | .sinh => value.mapFloats Float.sinh
  | .cosh => value.mapFloats Float.cosh
  | .tanh => value.mapFloats Float.tanh
  | .asin => value.mapFloats Float.asin
  | .acos => value.mapFloats Float.acos
  | .atan => value.mapFloats Float.atan
  | .exp => value.mapFloats Float.exp
  | .exp2 => value.mapFloats Float.exp2
  | .log => value.mapFloats Float.log
  | .log2 => value.mapFloats Float.log2
  | .sqrt => value.mapFloats Float.sqrt
  | .inverseSqrt => value.mapFloats fun number => 1 / number.sqrt
  | .floor => value.mapFloats Float.floor
  | .ceil => value.mapFloats Float.ceil
  | .round => value.mapFloats Double.roundEven
  | .fract => value.mapFloats fun number => number - number.floor
  | .trunc => value.mapFloats Double.truncate
  | .sign => value.mapComponents Scalar.sign
  | .length => do
      let length ← value.euclideanLength
      value.roundLike length
  | .normalize => value.normalized
  | .transpose => value.transposed
  | .determinant => value.determinant?
  | .allTrue => value.allHold
  | .anyTrue => value.anyHolds
  | .radians => value.mapFloats Double.radiansOfDegrees
  | .degrees => value.mapFloats Double.degreesOfRadians
  | _ => none

def applyTwo (function : StandardFunction) (first second : HostValue) : Option HostValue :=
  match function with
  | .min => zipComponents Scalar.least first second
  | .max => zipComponents Scalar.greatest first second
  | .atan2 => zipNumbers Float.atan2 first second
  | .pow => zipNumbers Float.pow first second
  | .step => zipNumbers (fun edge number => if number ≥ edge then 1 else 0) first second
  | .dot => (innerProduct first second).map HostValue.scalar
  | .cross => crossProduct first second
  | .distance => do
      let difference ← applyBinary .sub first second
      let length ← difference.euclideanLength
      first.roundLike length
  | .reflect => reflected first second
  | _ => none

def applyThree (function : StandardFunction) (first second third : HostValue) :
    Option HostValue :=
  match function with
  | .clamp => do
      let raised ← zipComponents Scalar.greatest first second
      zipComponents Scalar.least raised third
  | .mix => mixed first second third
  | .smoothStep => smoothTransition first second third
  | .fma => do
      let product ← applyBinary .mul first second
      applyBinary .add product third
  | .select => selected first second third
  | _ => none

/-- The result for a list of arguments. The length of an array is not known on the
host. -/
def applyList (function : StandardFunction) (arguments : List HostValue) :
    Option HostValue :=
  match arguments with
  | [value] => function.applyOne value
  | [first, second] => function.applyTwo first second
  | [first, second, third] => function.applyThree first second third
  | _ => none

/-- The result of a standard function. Its first argument is a scalar, a vector or a
matrix. -/
def apply (function : StandardFunction) (arguments : List HostValue) : Option HostValue := do
  let first ← arguments.head?
  let _ ← first.componentKind?
  function.applyList arguments

end StandardFunction

/-! ## Helpers -/

def differsWithin (precision : Float) (pair : Scalar × Scalar) : Bool :=
  (pair.1.toFloat - pair.2.toFloat).abs ≤ precision

def Helper.apply (helper : Helper) (arguments : List HostValue) : Option HostValue :=
  match helper, arguments with
  | .isCloseTo _, [first, second, precision] => do
      let left ← first.components?
      let right ← second.components?
      let limit ← precision.scalar?
      some (.scalar (.bool ((left.zip right).all (differsWithin limit.toFloat))))
  | _, _ => none

end ShaderKit
