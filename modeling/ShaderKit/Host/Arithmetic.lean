import ShaderKit.Function.Operator
import ShaderKit.Host.Double
import ShaderKit.Value

/-!
# Operators on host values

Integers wrap around, and a division by zero gives the dividend. Floating point results
are rounded to the component kind after each operation. Operators work on components, with
a scalar standing for a vector of equal components, except for the products of linear
algebra.
-/

namespace ShaderKit

/-! ## Scalars -/

def BinaryOperator.compare? {α : Type} [BEq α] [LT α] [LE α] [DecidableLT α] [DecidableLE α]
    (operator : BinaryOperator) (left right : α) : Option Scalar :=
  match operator with
  | .equal => some (.bool (left == right))
  | .notEqual => some (.bool (!(left == right)))
  | .less => some (.bool (left < right))
  | .lessEqual => some (.bool (left ≤ right))
  | .greater => some (.bool (right < left))
  | .greaterEqual => some (.bool (right ≤ left))
  | _ => none

namespace Scalar

def applyUnary (operator : UnaryOperator) (value : Scalar) : Option Scalar :=
  match operator, value with
  | .neg, .f32 bits => some (.f32 (Single.negate bits))
  | .neg, .f16 bits => some (.f16 (Half.negate bits))
  | .neg, .i32 number => some (.i32 (-number))
  | .not, .bool truth => some (.bool !truth)
  | .bitNot, .i32 number => some (.i32 (~~~number))
  | .bitNot, .u32 number => some (.u32 (~~~number))
  | _, _ => none

def applyFloat (operator : BinaryOperator) (kind : ScalarKind) (left right : Float) :
    Option Scalar :=
  match operator with
  | .add => some (ofFloat kind (left + right))
  | .sub => some (ofFloat kind (left - right))
  | .mul => some (ofFloat kind (left * right))
  | .div => some (ofFloat kind (left / right))
  | .rem => some (ofFloat kind (Double.remainder left right))
  | _ => operator.compare? left right

/-- Apply a binary operator to signed integers. The quotient of the least number and minus
one wraps around to the dividend. -/
def applySigned (operator : BinaryOperator) (left right : Int32) : Option Scalar :=
  match operator with
  | .add => some (.i32 (left + right))
  | .sub => some (.i32 (left - right))
  | .mul => some (.i32 (left * right))
  | .div => some (.i32 (if right = 0 then left else left / right))
  | .rem => some (.i32 (if right = 0 then 0 else left % right))
  | .bitAnd => some (.i32 (left &&& right))
  | .bitOr => some (.i32 (left ||| right))
  | .bitXor => some (.i32 (left ^^^ right))
  | _ => operator.compare? left right

/-- Apply a binary operator to unsigned integers. The amount of a shift counts modulo the
width. -/
def applyUnsigned (operator : BinaryOperator) (left right : UInt32) : Option Scalar :=
  match operator with
  | .add => some (.u32 (left + right))
  | .sub => some (.u32 (left - right))
  | .mul => some (.u32 (left * right))
  | .div => some (.u32 (if right = 0 then left else left / right))
  | .rem => some (.u32 (if right = 0 then 0 else left % right))
  | .bitAnd => some (.u32 (left &&& right))
  | .bitOr => some (.u32 (left ||| right))
  | .bitXor => some (.u32 (left ^^^ right))
  | .shiftLeft => some (.u32 (left <<< (right % 32)))
  | .shiftRight => some (.u32 (left >>> (right % 32)))
  | _ => operator.compare? left right

def applyShift (operator : BinaryOperator) (left : Int32) (amount : UInt32) :
    Option Scalar :=
  match operator with
  | .shiftLeft => some (.i32 (left <<< (amount % 32).toInt32))
  | .shiftRight => some (.i32 (left >>> (amount % 32).toInt32))
  | _ => none

def applyBool (operator : BinaryOperator) (left right : Bool) : Option Scalar :=
  match operator with
  | .logicalAnd | .bitAnd => some (.bool (left && right))
  | .logicalOr | .bitOr => some (.bool (left || right))
  | _ => operator.compare? left right

def applyBinary (operator : BinaryOperator) (left right : Scalar) : Option Scalar :=
  match left, right with
  | .f32 _, .f32 _ => applyFloat operator .f32 left.toFloat right.toFloat
  | .f16 _, .f16 _ => applyFloat operator .f16 left.toFloat right.toFloat
  | .i32 number, .u32 amount => applyShift operator number amount
  | .u32 first, .u32 second => applyUnsigned operator first second
  | .i32 first, .i32 second => applySigned operator first second
  | .bool first, .bool second => applyBool operator first second
  | _, _ => none

example : applyBinary .div (.i32 Int32.minValue) (.i32 (-1)) =
    some (.i32 Int32.minValue) := by decide
example : applyBinary .rem (.i32 Int32.minValue) (.i32 (-1)) = some (.i32 0) := by decide
example : applyBinary .shiftRight (.i32 (-8)) (.u32 33) = some (.i32 (-4)) := by decide

end Scalar

/-! ## Components -/

namespace HostValue

def mapComponents (transform : Scalar → Option Scalar) : HostValue → Option HostValue
  | .scalar value => (transform value).map HostValue.scalar
  | .vector values => (values.mapM transform).map HostValue.vector
  | _ => none

def zipVectors (combine : Scalar → Scalar → Option Scalar) (left right : Components) :
    Option HostValue :=
  if left.length = right.length then
    ((left.zip right).mapM fun pair => combine pair.1 pair.2).map HostValue.vector
  else none

/-- Combine two values component by component. A scalar is combined with each component
of a vector. -/
def zipComponents (combine : Scalar → Scalar → Option Scalar) (left right : HostValue) :
    Option HostValue :=
  match left, right with
  | .scalar first, .scalar second => (combine first second).map HostValue.scalar
  | .vector first, .vector second => zipVectors combine first second
  | .vector first, .scalar second =>
      (first.mapM fun value => combine value second).map HostValue.vector
  | .scalar first, .vector second =>
      (second.mapM fun value => combine first value).map HostValue.vector
  | _, _ => none

def components? : HostValue → Option Components
  | .scalar value => some [value]
  | .vector values => some values
  | _ => none

def componentKind? : HostValue → Option ScalarKind
  | .scalar value => some value.kind
  | .vector values => values.head?.map Scalar.kind
  | .matrix columns => columns.head?.bind fun column => column.head?.map Scalar.kind
  | _ => none

end HostValue

/-! ## Matrices -/

def columnNumbers (columns : List Components) : List (List Float) :=
  columns.map fun column => column.map Scalar.toFloat

def roundedVector (kind : ScalarKind) (numbers : List Float) : Components :=
  numbers.map (Scalar.ofFloat kind)

def roundedMatrix (kind : ScalarKind) (columns : List (List Float)) : HostValue :=
  .matrix (columns.map (roundedVector kind))

def rowCount (columns : List (List Float)) : Nat :=
  (columns.head?.map List.length).getD 0

/-- The inner product of one row of a matrix with a vector. The longer of the two is cut
off. There is none if a column does not reach down to the row. -/
def rowTimesVector (columns : List (List Float)) (vector : List Float) (row : Nat) :
    Option Float := do
  let products ← (columns.zip vector).mapM fun (column, number) =>
    column[row]?.map (· * number)
  some (Double.sum products)

def matrixTimesVector (columns : List (List Float)) (vector : List Float) :
    Option (List Float) :=
  (List.range (rowCount columns)).mapM (rowTimesVector columns vector)

def vectorTimesMatrix (vector : List Float) (columns : List (List Float)) : List Float :=
  columns.map fun column => Double.sum (List.zipWith (· * ·) column vector)

def zipMatrices (combine : Float → Float → Float) (left right : List (List Float)) :
    List (List Float) :=
  List.zipWith (List.zipWith combine) left right

def applyMatrices (operator : BinaryOperator) (left right : List (List Float)) :
    Option (List (List Float)) :=
  match operator with
  | .add => some (zipMatrices (· + ·) left right)
  | .sub => some (zipMatrices (· - ·) left right)
  | .mul => right.mapM (matrixTimesVector left)
  | _ => none

namespace HostValue

def applyProduct (left right : HostValue) : Option HostValue :=
  match left, right with
  | .matrix columns, .vector values => do
      let kind ← left.componentKind?
      let result ← matrixTimesVector (columnNumbers columns) (values.map Scalar.toFloat)
      some (.vector (roundedVector kind result))
  | .vector values, .matrix columns => do
      let kind ← right.componentKind?
      some (.vector (roundedVector kind
        (vectorTimesMatrix (values.map Scalar.toFloat) (columnNumbers columns))))
  | .matrix columns, .scalar factor | .scalar factor, .matrix columns => do
      let kind ← (HostValue.matrix columns).componentKind?
      some (roundedMatrix kind
        ((columnNumbers columns).map fun column => column.map (· * factor.toFloat)))
  | _, _ => none

def applyBinary (operator : BinaryOperator) (left right : HostValue) : Option HostValue :=
  match left, right with
  | .matrix first, .matrix second => do
      let kind ← left.componentKind?
      let result ← applyMatrices operator (columnNumbers first) (columnNumbers second)
      some (roundedMatrix kind result)
  | .matrix _, _ | _, .matrix _ =>
      if operator = .mul then applyProduct left right else none
  | _, _ => zipComponents (Scalar.applyBinary operator) left right

def applyUnary (operator : UnaryOperator) (value : HostValue) : Option HostValue :=
  value.mapComponents (Scalar.applyUnary operator)

end HostValue

end ShaderKit
