import ShaderKit.Codec.Path
import ShaderKit.Recording.Expression

/-!
# Failures of functions

What can go wrong while functions are recorded, evaluated on the host or compiled into a
module.
-/

namespace ShaderKit

inductive GraphError where
  /-- The names of functions that call each other; the last is the first again. -/
  | recursiveCall (chain : List String)
  | argumentCount (function : String) (expected found : Nat)
  | argumentType (function parameter : String) (expected found : TypeDescriptor)
  | returnType (function : String) (expected found : Option TypeDescriptor)
deriving DecidableEq, Repr

def resultText : Option TypeDescriptor → String
  | none => "nothing"
  | some type => type.text

def GraphError.kind : GraphError → String
  | .recursiveCall _ => "RecursiveCall"
  | .argumentCount .. => "ArgumentCount"
  | .argumentType .. => "ArgumentType"
  | .returnType .. => "ReturnType"

def GraphError.message : GraphError → String
  | .recursiveCall chain => "recursive shader function: " ++ " -> ".intercalate chain
  | .argumentCount function expected found =>
      s!"`{function}` expects {expected} arguments, got {found}"
  | .argumentType function parameter expected found =>
      s!"argument `{parameter}` of `{function}` expects `{expected.text}`, " ++
        s!"got `{found.text}`"
  | .returnType function expected found =>
      s!"`{function}` must return `{resultText expected}`, got `{resultText found}`"

inductive RecordingFault where
  | nonFiniteLiteral (value : Scalar)
  | foreignNode
  | unknownNode
  | hiddenNode
  | loadUnsized (type : TypeDescriptor)
  | loadOf (type : TypeDescriptor)
  | loadFromValue (type : TypeDescriptor)
  | constantType (type : TypeDescriptor)
  | nonFiniteConstant
  | zeroOf (type : TypeDescriptor)
  | construction (type : TypeDescriptor) (arguments : List TypeDescriptor)
  | conversion (source target : TypeDescriptor)
  | variableOf (type : TypeDescriptor)
  | storeReadOnly (type : TypeDescriptor)
  | storeIntoValue (type : TypeDescriptor)
  | storeInto (type : TypeDescriptor)
  | storeOf (value target : TypeDescriptor)
  | unary (operator : UnaryOperator) (operand : TypeDescriptor)
  | binary (operator : BinaryOperator) (left right : TypeDescriptor)
  | member (type : TypeDescriptor) (name : String)
  | indexType (type : TypeDescriptor)
  | indexing (type : TypeDescriptor)
  | indexBounds (position : Int) (type : TypeDescriptor)
  | dynamicIndex (type : TypeDescriptor)
  | swizzle (type : TypeDescriptor) (pattern : String)
  | unknownFunction
  | entryPointCall (name : String)
  | missingResult (name : String)
  | nestedTooDeep
  | arrayLengthOfValue
  | standard (function : StandardFunction) (arguments : List TypeDescriptor)
  | closeTo (arguments : List TypeDescriptor)
  | condition (type : TypeDescriptor)
  | range (first last : TypeDescriptor)
  | leaveLoopOutside
  | nextRoundOutside
  | discardOutside
deriving DecidableEq, Repr

def typeListText (types : List TypeDescriptor) : String :=
  ", ".intercalate (types.map TypeDescriptor.text)

def RecordingFault.text : RecordingFault → String
  | .nonFiniteLiteral value => s!"non-finite literal {value.describe}"
  | .foreignNode => "node recorded by another function"
  | .unknownNode => "unknown node"
  | .hiddenNode => "value used outside of the block that defined it"
  | .loadUnsized type => s!"load of runtime sized `{type.text}`"
  | .loadOf type => s!"load of `{type.text}`"
  | .loadFromValue type => s!"load from the `{type.text}` value, which is not a reference"
  | .constantType type => s!"constant of type `{type.text}`"
  | .nonFiniteConstant => "non-finite constant"
  | .zeroOf type => s!"zero value of `{type.text}`"
  | .construction type arguments =>
      s!"construction of `{type.text}` from ({typeListText arguments})"
  | .conversion source target => s!"conversion from `{source.text}` to `{target.text}`"
  | .variableOf type => s!"local variable of type `{type.text}`"
  | .storeReadOnly type => s!"store into read only `{type.text}`"
  | .storeIntoValue type => s!"store into the `{type.text}` value"
  | .storeInto type => s!"store into `{type.text}`"
  | .storeOf value target => s!"store of `{value.text}` into `{target.text}`"
  | .unary operator operand => s!"operator `{operator.token}` on `{operand.text}`"
  | .binary operator left right =>
      s!"operator `{operator.token}` on `{left.text}` and `{right.text}`"
  | .member type name => s!"member `.{name}` of `{type.text}`"
  | .indexType type => s!"index of type `{type.text}`"
  | .indexing type => s!"indexing into `{type.text}`"
  | .indexBounds position type => s!"index {position} out of bounds for `{type.text}`"
  | .dynamicIndex type => s!"dynamic index into the `{type.text}` value"
  | .swizzle type pattern => s!"swizzle `.{pattern}` of `{type.text}`"
  | .unknownFunction => "call to an unknown function"
  | .entryPointCall name => s!"call to entry point `{name}`"
  | .missingResult name => s!"value of `{name}`, which returns nothing"
  | .nestedTooDeep => "calls nested deeper than there are functions"
  | .arrayLengthOfValue => "arrayLength of a value, it needs a reference"
  | .standard function arguments => s!"`{function.name}` on ({typeListText arguments})"
  | .closeTo arguments => s!"`isCloseTo` on ({typeListText arguments})"
  | .condition type => s!"condition of type `{type.text}`"
  | .range first last => s!"for range from `{first.text}` to `{last.text}`"
  | .leaveLoopOutside => "`break` outside of a loop"
  | .nextRoundOutside => "`continue` outside of a loop"
  | .discardOutside => "`discard` outside of a fragment entry point"

inductive HostFault where
  | rawBody
  | storeIntoValue
  | storePath
  | readPath
  | loopIncrement
  | discard
  | unknownCallee
  | notComputed
  | notScalar
  | notBool
  | negativeIndex (value : Scalar)
  | unknownConstant
  | binding (slot : Slot)
  | construction
  | unary (operator : UnaryOperator)
  | binary (operator : BinaryOperator)
  | memberAccess
  | outOfBounds
  | swizzle
  | callResult
  | arrayLength
  | standard (function : StandardFunction)
  | helper (helper : Helper)
  | conversion
deriving DecidableEq, Repr

def HostFault.text : HostFault → String
  | .rawBody => "raw WGSL body on the host"
  | .storeIntoValue => "store into a value"
  | .storePath => "store through an invalid path"
  | .readPath => "read through an invalid path"
  | .loopIncrement => "loop counter increment"
  | .discard => "`discard` on the host"
  | .unknownCallee => "call to a function that was never traced"
  | .notComputed => "value read before it was computed"
  | .notScalar => "expected a scalar"
  | .notBool => "condition is not a bool"
  | .negativeIndex value => s!"index {value.describe} on the host"
  | .unknownConstant => "unknown module constant"
  | .binding slot => s!"{slot.attributes} access on the host"
  | .construction => "construction"
  | .unary operator => operator.token
  | .binary operator => operator.token
  | .memberAccess => "member access"
  | .outOfBounds => "access out of bounds"
  | .swizzle => "swizzle"
  | .callResult => "call result"
  | .arrayLength => "arrayLength on the host"
  | .standard function => function.name
  | .helper used => used.label
  | .conversion => "conversion"

/-- A construct that a function uses and that cannot be handled. -/
inductive Construct where
  | recording (fault : RecordingFault)
  | host (fault : HostFault)
deriving DecidableEq, Repr

def Construct.text : Construct → String
  | .recording fault => fault.text
  | .host fault => fault.text

inductive ShaderError where
  | schema (error : SchemaError)
  | layout (error : LayoutError)
  | encode (error : EncodeError)
  | decode (error : DecodeError)
  | graph (error : GraphError)
  | unsupported (function : String) (construct : Construct)
  | resolve (error : ResolveError)
deriving DecidableEq, Repr

/-- The family and the kind of the failure, for reports that machines read. -/
def ShaderError.kind : ShaderError → String
  | .schema error => "SchemaError." ++ error.kind
  | .layout error => "LayoutError." ++ error.kind
  | .encode error => "EncodeError." ++ error.kind
  | .decode error => "DecodeError." ++ error.kind
  | .graph error => "GraphError." ++ error.kind
  | .unsupported .. => "UnsupportedConstructError"
  | .resolve error => "ResolveError." ++ error.kind

def ShaderError.message : ShaderError → String
  | .schema error => error.message
  | .layout error => error.message
  | .encode error => error.message
  | .decode error => error.message
  | .graph error => error.message
  | .unsupported function construct =>
      s!"unsupported construct in `{function}`: {construct.text}"
  | .resolve error => error.message

end ShaderKit
