import ShaderKit.Descriptor

/-!
# Standard functions

The functions of the WGSL standard library that a body may call, with their overloads.
-/

namespace ShaderKit

/-- The standard functions. `select` takes the value for false before the one for true,
and `arrayLength` takes a runtime-sized array by reference. -/
inductive StandardFunction where
  | abs
  | min
  | max
  | clamp
  | saturate
  | sin
  | cos
  | tan
  | sinh
  | cosh
  | tanh
  | asin
  | acos
  | atan
  | atan2
  | exp
  | exp2
  | log
  | log2
  | pow
  | sqrt
  | inverseSqrt
  | floor
  | ceil
  | round
  | fract
  | trunc
  | sign
  | mix
  | step
  | smoothStep
  | fma
  | dot
  | cross
  | length
  | distance
  | normalize
  | reflect
  | transpose
  | determinant
  | allTrue
  | anyTrue
  | select
  | radians
  | degrees
  | arrayLength
deriving DecidableEq, Repr

namespace StandardFunction

def catalogue : List StandardFunction :=
  [.abs, .min, .max, .clamp, .saturate, .sin, .cos, .tan, .sinh, .cosh, .tanh, .asin,
    .acos, .atan, .atan2, .exp, .exp2, .log, .log2, .pow, .sqrt, .inverseSqrt, .floor,
    .ceil, .round, .fract, .trunc, .sign, .mix, .step, .smoothStep, .fma, .dot, .cross,
    .length, .distance, .normalize, .reflect, .transpose, .determinant, .allTrue, .anyTrue,
    .select, .radians, .degrees, .arrayLength]

def name : StandardFunction → String
  | .abs => "abs"
  | .min => "min"
  | .max => "max"
  | .clamp => "clamp"
  | .saturate => "saturate"
  | .sin => "sin"
  | .cos => "cos"
  | .tan => "tan"
  | .sinh => "sinh"
  | .cosh => "cosh"
  | .tanh => "tanh"
  | .asin => "asin"
  | .acos => "acos"
  | .atan => "atan"
  | .atan2 => "atan2"
  | .exp => "exp"
  | .exp2 => "exp2"
  | .log => "log"
  | .log2 => "log2"
  | .pow => "pow"
  | .sqrt => "sqrt"
  | .inverseSqrt => "inverseSqrt"
  | .floor => "floor"
  | .ceil => "ceil"
  | .round => "round"
  | .fract => "fract"
  | .trunc => "trunc"
  | .sign => "sign"
  | .mix => "mix"
  | .step => "step"
  | .smoothStep => "smoothstep"
  | .fma => "fma"
  | .dot => "dot"
  | .cross => "cross"
  | .length => "length"
  | .distance => "distance"
  | .normalize => "normalize"
  | .reflect => "reflect"
  | .transpose => "transpose"
  | .determinant => "determinant"
  | .allTrue => "all"
  | .anyTrue => "any"
  | .select => "select"
  | .radians => "radians"
  | .degrees => "degrees"
  | .arrayLength => "arrayLength"

def names : List String :=
  catalogue.map name

def ofName? (text : String) : Option StandardFunction :=
  catalogue.find? fun function => function.name == text

@[simp] theorem ofName?_name (function : StandardFunction) :
    ofName? function.name = some function := by
  cases function <;> decide

def arity : StandardFunction → Nat
  | .min | .max | .atan2 | .pow | .step | .dot | .cross | .distance | .reflect => 2
  | .clamp | .mix | .smoothStep | .fma | .select => 3
  | _ => 1

def allSame (first : TypeDescriptor) (others : List TypeDescriptor) : Bool :=
  others.all fun other => other = first

def keepIf (test : Bool) (type : TypeDescriptor) : Option TypeDescriptor :=
  if test then some type else none

def isFloatValue (type : TypeDescriptor) : Bool :=
  type.isValueOf ScalarKind.isFloat

def isNumericValue (type : TypeDescriptor) : Bool :=
  type.isValueOf ScalarKind.isNumeric

def floatComponent? : TypeDescriptor → Option TypeDescriptor
  | .scalar kind | .vector kind _ => keepIf kind.isFloat (.scalar kind)
  | _ => none

def isFloatVector : TypeDescriptor → Bool
  | .vector kind _ => kind.isFloat
  | _ => false

/-- Blending is by one weight for each component, or by one weight for all of them. -/
def mixType (first second weight : TypeDescriptor) : Option TypeDescriptor :=
  let weightOk := weight = first ∨ first.scalarKind?.map TypeDescriptor.scalar = some weight
  keepIf (second = first && weightOk && isFloatValue first) first

/-- Selection is by one condition for each component, or by one condition for the whole
value. -/
def selectType (first second condition : TypeDescriptor) : Option TypeDescriptor :=
  let conditionOk :=
    match first, condition with
    | .vector _ width, .vector kind conditionWidth => kind == .bool && width == conditionWidth
    | _, other => other = .bool
  keepIf (second = first && conditionOk && first.isValueOf fun _ => true) first

/-- The result for the given first argument and the arguments after it, whose number is
right. -/
def resultOf (function : StandardFunction) (first : TypeDescriptor)
    (others : List TypeDescriptor) : Option TypeDescriptor :=
  match function with
  | .saturate | .sin | .cos | .tan | .sinh | .cosh | .tanh | .asin | .acos | .atan
  | .exp | .exp2 | .log | .log2 | .sqrt | .inverseSqrt | .floor | .ceil | .round | .fract
  | .trunc | .radians | .degrees => keepIf (isFloatValue first) first
  | .atan2 | .pow | .step | .smoothStep | .fma =>
      keepIf (allSame first others && isFloatValue first) first
  | .abs => keepIf (isNumericValue first) first
  | .sign => keepIf (first.isValueOf ScalarKind.isSigned) first
  | .min | .max | .clamp => keepIf (allSame first others && isNumericValue first) first
  | .mix =>
      match others with
      | [second, weight] => mixType first second weight
      | _ => none
  | .dot =>
      match first with
      | .vector kind _ => keepIf (allSame first others && kind.isNumeric) (.scalar kind)
      | _ => none
  | .cross =>
      match first with
      | .vector kind .three => keepIf (allSame first others && kind.isFloat) first
      | _ => none
  | .length => floatComponent? first
  | .distance => if allSame first others then floatComponent? first else none
  | .normalize => keepIf (isFloatVector first) first
  | .reflect => keepIf (allSame first others && isFloatVector first) first
  | .transpose =>
      match first with
      | .matrix kind columns rows => some (.matrix kind rows columns)
      | _ => none
  | .determinant =>
      match first with
      | .matrix kind columns rows => keepIf (columns == rows) (.scalar kind)
      | _ => none
  | .allTrue | .anyTrue => keepIf (first.isValueOf (· == .bool)) .bool
  | .select =>
      match others with
      | [second, condition] => selectType first second condition
      | _ => none
  | .arrayLength => keepIf first.isRuntimeArray .u32

/-- The type of the result for the given argument types, if some overload accepts them. -/
def resultType (function : StandardFunction) (arguments : List TypeDescriptor) :
    Option TypeDescriptor :=
  match arguments with
  | [] => none
  | first :: others =>
      if others.length + 1 = function.arity then function.resultOf first others else none

end StandardFunction

/-! ## Helpers -/

/-- Operations that the standard library lacks. The module declares a function for each
one that it uses. -/
inductive Helper where
  /-- Whether two values of a floating point type differ by no more than a precision in
  every component. -/
  | isCloseTo (type : TypeDescriptor)
deriving DecidableEq, Repr

namespace Helper

def label : Helper → String
  | .isCloseTo _ => "isCloseTo"

def parameterNames : Helper → List String
  | .isCloseTo _ => ["a", "b", "epsilon"]

def parameterTypes : Helper → List TypeDescriptor
  | .isCloseTo type => [type, type, .scalar (type.scalarKind?.getD .f32)]

def resultType : Helper → TypeDescriptor
  | .isCloseTo _ => .bool

def block : Helper → String
  | .isCloseTo (.vector kind width) =>
      "\x7b\n  return all(abs(a - b) <= " ++ (TypeDescriptor.vector kind width).text ++
        "(epsilon));\n\x7d"
  | .isCloseTo _ => "\x7b\n  return abs(a - b) <= epsilon;\n\x7d"

end Helper

end ShaderKit
