import ShaderKit.Layout
import ShaderKit.Value

/-!
# Places inside values, and the errors of the codec
-/

namespace ShaderKit

/-- One step from a value to a value inside it. -/
inductive PathSegment where
  | member (name : String)
  | index (position : Nat)
deriving DecidableEq, Repr

abbrev ValuePath := List PathSegment

def PathSegment.text : PathSegment → String
  | .member name => "." ++ name
  | .index position => s!"[{position}]"

/-- A place as messages show it, such as `.light.color[2]`. -/
def ValuePath.text (path : ValuePath) : String :=
  if path.isEmpty then "<root>" else String.join (path.map PathSegment.text)

/-- Why a path cannot be followed in a type. -/
inductive PathFault where
  | noMember (type : TypeDescriptor) (name : String)
  | element (position length : Nat)
  | column (position : Nat)
  | component (position : Nat)
  | notIndexable (type : TypeDescriptor)
deriving DecidableEq, Repr

def PathFault.text : PathFault → String
  | .noMember type name => s!"`{type.text}` has no member `{name}`"
  | .element position length => s!"index {position} out of bounds for length {length}"
  | .column position => s!"column {position} out of bounds"
  | .component position => s!"component {position} out of bounds"
  | .notIndexable type => s!"`{type.text}` is not indexable"

/-- Why a value cannot be written. The places are those of the offending sub-values. -/
inductive EncodeError where
  | shapeMismatch (path : ValuePath) (expected : TypeDescriptor) (found : String)
  | missingField (path : ValuePath) (name : String)
  | unknownField (path : ValuePath) (name : String)
  | arrayLength (path : ValuePath) (expected found : Nat)
  | invalidPath (path : ValuePath) (fault : PathFault)
  | outOfBounds (path : ValuePath) (offset needed available : Nat)
  | layout (error : LayoutError)
deriving DecidableEq, Repr

def EncodeError.kind : EncodeError → String
  | .shapeMismatch .. => "ShapeMismatch"
  | .missingField .. => "MissingField"
  | .unknownField .. => "UnknownField"
  | .arrayLength .. => "ArrayLength"
  | .invalidPath .. => "InvalidPath"
  | .outOfBounds .. => "OutOfBounds"
  | .layout _ => "Layout"

def EncodeError.message : EncodeError → String
  | .shapeMismatch path expected found =>
      s!"`{path.text}`: expected {expected.text}, found {found}"
  | .missingField path name => s!"`{path.text}`: missing struct field `{name}`"
  | .unknownField path name => s!"`{path.text}`: unknown struct field `{name}`"
  | .arrayLength path expected found =>
      s!"`{path.text}`: expected {expected} array elements, found {found}"
  | .invalidPath path fault => s!"`{path.text}`: {fault.text}"
  | .outOfBounds path offset needed available =>
      s!"`{path.text}`: write of {needed} bytes at offset {offset} exceeds buffer of " ++
        s!"{available} bytes"
  | .layout error => error.message

inductive DecodeError where
  | outOfBounds (path : ValuePath) (offset needed available : Nat)
  | layout (error : LayoutError)
deriving DecidableEq, Repr

def DecodeError.kind : DecodeError → String
  | .outOfBounds .. => "OutOfBounds"
  | .layout _ => "Layout"

def DecodeError.message : DecodeError → String
  | .outOfBounds path offset needed available =>
      s!"`{path.text}`: read of {needed} bytes at offset {offset} exceeds buffer of " ++
        s!"{available} bytes"
  | .layout error => error.message

end ShaderKit
