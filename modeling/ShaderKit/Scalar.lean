import ShaderKit.Scalar.Kind
import ShaderKit.Scalar.Half
import ShaderKit.Decimal.Shortest

/-!
# Scalar values

Floating point values are kept as bit patterns, so that moving them through a buffer
loses nothing. Integers wrap around.
-/

namespace ShaderKit

inductive Scalar where
  | bool (value : Bool)
  | f16 (bits : UInt16)
  | f32 (bits : UInt32)
  | i32 (value : Int32)
  | u32 (value : UInt32)
deriving DecidableEq, Repr

namespace Scalar

def kind : Scalar → ScalarKind
  | .bool _ => .bool
  | .f16 _ => .f16
  | .f32 _ => .f32
  | .i32 _ => .i32
  | .u32 _ => .u32

def zero : ScalarKind → Scalar
  | .bool => .bool false
  | .f16 => .f16 0
  | .f32 => .f32 0
  | .i32 => .i32 0
  | .u32 => .u32 0

@[simp] theorem kind_zero (kind : ScalarKind) : (zero kind).kind = kind := by
  cases kind <;> rfl

def isFinite : Scalar → Bool
  | .f16 bits => Half.isFinite bits
  | .f32 bits => Single.isFinite bits
  | _ => true

/-- The double precision number of the same value. It is exact for every kind. -/
def toFloat : Scalar → Float
  | .bool value => if value then 1 else 0
  | .f16 bits => (Float32.ofBits (Half.widen bits)).toFloat
  | .f32 bits => (Float32.ofBits bits).toFloat
  | .i32 value => Float.ofInt value.toInt
  | .u32 value => Float.ofNat value.toNat

/-- The nearest value of a kind. Integers are truncated toward zero and limited to their
range, and no number gives zero. Halves are rounded by way of single precision. -/
def ofFloat (kind : ScalarKind) (number : Float) : Scalar :=
  match kind with
  | .bool => .bool (number != 0)
  | .f16 => .f16 (Half.narrow number.toFloat32.toBits)
  | .f32 => .f32 number.toFloat32.toBits
  | .i32 => .i32 number.toInt32
  | .u32 => .u32 number.toUInt32

@[simp] theorem kind_ofFloat (kind : ScalarKind) (number : Float) :
    (ofFloat kind number).kind = kind := by
  cases kind <;> rfl

/-- Conversion to another kind. Conversion between the integer kinds keeps the bits, and
conversion from floating point goes to the nearest value. -/
def convert (kind : ScalarKind) : Scalar → Scalar
  | .bool value =>
      match kind with
      | .bool => .bool value
      | .i32 => .i32 (if value then 1 else 0)
      | .u32 => .u32 (if value then 1 else 0)
      | _ => ofFloat kind (Scalar.bool value).toFloat
  | .i32 value =>
      match kind with
      | .bool => .bool (value != 0)
      | .i32 => .i32 value
      | .u32 => .u32 value.toUInt32
      | _ => ofFloat kind (Scalar.i32 value).toFloat
  | .u32 value =>
      match kind with
      | .bool => .bool (value != 0)
      | .i32 => .i32 value.toInt32
      | .u32 => .u32 value
      | _ => ofFloat kind (Scalar.u32 value).toFloat
  | .f16 bits => if kind = .f16 then .f16 bits else ofFloat kind (Scalar.f16 bits).toFloat
  | .f32 bits => if kind = .f32 then .f32 bits else ofFloat kind (Scalar.f32 bits).toFloat

@[simp] theorem kind_convert (kind : ScalarKind) (value : Scalar) :
    (value.convert kind).kind = kind := by
  cases value <;> cases kind <;> rfl

/-! ## Spelling -/

/-- The number inside a literal, without its suffix. -/
def digits : Scalar → String
  | .bool value => if value then "true" else "false"
  | .f16 bits => String.ofList (Decimal.writeSingle (Half.widen bits))
  | .f32 bits => String.ofList (Decimal.writeSingle bits)
  | .i32 value => toString value.toInt
  | .u32 value => toString value.toNat

def suffix : Scalar → String
  | .bool _ => ""
  | .f16 _ => "h"
  | .f32 _ => "f"
  | .i32 _ => "i"
  | .u32 _ => "u"

def describe : Scalar → String
  | .bool value => s!"Bool({(Scalar.bool value).digits})"
  | .f16 bits => s!"F16({(Scalar.f16 bits).digits})"
  | .f32 bits => s!"F32({(Scalar.f32 bits).digits})"
  | .i32 value => s!"I32({value.toInt})"
  | .u32 value => s!"U32({value.toNat})"

/-- A literal that begins with a minus sign stands in parentheses, because an operator may
come before it. -/
def wrapNegative (literal : String) : String :=
  if literal.toList.head? == some '-' then "(" ++ literal ++ ")" else literal

/-- The WGSL spelling of a value. The least integer has no literal of its own, since its
magnitude is out of range, and is spelled as a difference. -/
def literal (value : Scalar) : String :=
  if value = .i32 (Int32.ofInt (-2147483648)) then "(-2147483647i - 1i)"
  else wrapNegative (value.digits ++ value.suffix)

example : (Scalar.i32 (-5)).literal = "(-5i)" := by decide +kernel
example : (Scalar.f16 0x3e00).literal = "1.5h" := by decide +kernel

end Scalar

end ShaderKit
