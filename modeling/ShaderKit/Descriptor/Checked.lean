import ShaderKit.Identifier
import ShaderKit.Layout

/-!
# Checked constructors of descriptors

Descriptors built by these functions alone can always be laid out. Each function names
the first rule that its arguments break.
-/

namespace ShaderKit

/-- Why a type or a stage cannot serve an entry point. -/
inductive EntryIoFault where
  | notStruct (type : TypeDescriptor)
  | builtinUnavailable (builtin : Builtin) (name : String)
  | computeNeedsBuiltin (name : String)
  | notNumeric (name : String) (type : TypeDescriptor)
  | missingPosition
  | emptyWorkgroup
deriving DecidableEq, Repr

def EntryIoFault.text : EntryIoFault → String
  | .notStruct type => s!"`{type.text}` is not a struct of entry point inputs/outputs"
  | .builtinUnavailable builtin name =>
      s!"@builtin({builtin.name}) is not available on field `{name}` here"
  | .computeNeedsBuiltin name => s!"compute inputs must be builtins, `{name}` is not"
  | .notNumeric name type =>
      s!"user defined io `{name}` must be a numeric scalar or vector, got `{type.text}`"
  | .missingPosition => "vertex output must contain @builtin(position)"
  | .emptyWorkgroup => "workgroup size must be at least 1 in every dimension"

/-- Why a descriptor or a function signature is refused. -/
inductive SchemaError where
  | nestedRuntimeArray (type : TypeDescriptor)
  | invalidElementCount (count : Int)
  | nonFinalRuntimeField (name : String)
  | duplicateField (name : String)
  | emptyStruct
  | invalidIdentifier (name : String)
  | invalidMatrixComponent (kind : ScalarKind)
  | invalidAtomicComponent (kind : ScalarKind)
  | invalidAlign (name : String) (asked natural : Nat)
  | invalidSize (name : String) (asked natural : Nat)
  | builtinTypeMismatch (name : String) (builtin : Builtin) (found : TypeDescriptor)
  | structTooLarge (type : TypeDescriptor)
  | invalidEntryIo (fault : EntryIoFault)
deriving DecidableEq, Repr

def SchemaError.kind : SchemaError → String
  | .nestedRuntimeArray _ => "NestedRuntimeArray"
  | .invalidElementCount _ => "InvalidElementCount"
  | .nonFinalRuntimeField _ => "NonFinalRuntimeField"
  | .duplicateField _ => "DuplicateField"
  | .emptyStruct => "EmptyStruct"
  | .invalidIdentifier _ => "InvalidIdentifier"
  | .invalidMatrixComponent _ => "InvalidMatrixComponent"
  | .invalidAtomicComponent _ => "InvalidAtomicComponent"
  | .invalidAlign .. => "InvalidAlign"
  | .invalidSize .. => "InvalidSize"
  | .builtinTypeMismatch .. => "BuiltinTypeMismatch"
  | .structTooLarge _ => "StructTooLarge"
  | .invalidEntryIo _ => "InvalidEntryIo"

def SchemaError.message : SchemaError → String
  | .nestedRuntimeArray type =>
      s!"nested runtime-sized array: element type `{type.text}` has no fixed size"
  | .invalidElementCount count => s!"invalid element count: {count}"
  | .nonFinalRuntimeField name =>
      s!"runtime-sized field `{name}` must be the last member of its struct"
  | .duplicateField name => s!"duplicate struct field `{name}`"
  | .emptyStruct => "a struct must declare at least one field"
  | .invalidIdentifier name => s!"`{name}` is not a valid WGSL identifier"
  | .invalidMatrixComponent kind =>
      s!"matrix components must be floating point, got `{kind.name}`"
  | .invalidAtomicComponent kind =>
      s!"atomic components must be i32 or u32, got `{kind.name}`"
  | .invalidAlign name asked natural =>
      s!"@align({asked}) on field `{name}` must be a power of two no smaller than {natural}"
  | .invalidSize name asked natural =>
      s!"@size({asked}) on field `{name}` is smaller than the field's natural size {natural}"
  | .builtinTypeMismatch name builtin found =>
      s!"builtin `{builtin.name}` on field `{name}` requires `{builtin.type.text}`, " ++
        s!"found `{found.text}`"
  | .structTooLarge type => s!"struct `{type.text}` is too large to lay out"
  | .invalidEntryIo fault => s!"invalid entry point io: {fault.text}"

namespace ArrayLength

/-- A count of zero stands for a runtime-sized array. -/
def ofCount : Nat → ArrayLength
  | 0 => .runtime
  | count => .fixed count

def ofSigned (count : Int) : Except SchemaError ArrayLength :=
  if count < 0 then .error (.invalidElementCount count) else .ok (ofCount count.toNat)

end ArrayLength

namespace TypeDescriptor

def matrixOf (kind : ScalarKind) (columns rows : VectorWidth) :
    Except SchemaError TypeDescriptor :=
  if kind.isFloat then .ok (.matrix kind columns rows)
  else .error (.invalidMatrixComponent kind)

def atomicOf (kind : ScalarKind) : Except SchemaError TypeDescriptor :=
  if kind.isInteger then .ok (.atomic kind) else .error (.invalidAtomicComponent kind)

def isTooLarge (type : TypeDescriptor) : Bool :=
  match type.layout with
  | .error (.sizeOverflow _) => true
  | _ => false

/-- The greatest element count that a message shows, the greatest signed integer of
sixty-four bits. -/
def greatestShownCount : Nat := 0x7fffffffffffffff

/-- An array type. The element must have a size, and the whole array must fit. -/
def arrayOf (element : TypeDescriptor) (length : ArrayLength) :
    Except SchemaError TypeDescriptor :=
  if !element.isSized then .error (.nestedRuntimeArray element)
  else
    match length with
    | .runtime => .ok (.array element .runtime)
    | .fixed count =>
        if (TypeDescriptor.array element (.fixed count)).isTooLarge then
          .error (.invalidElementCount (min count greatestShownCount))
        else .ok (.array element (.fixed count))

def arrayOfSigned (element : TypeDescriptor) (count : Int) :
    Except SchemaError TypeDescriptor := do
  arrayOf element (← ArrayLength.ofSigned count)

end TypeDescriptor

/-! ## Structures -/

namespace Member

def naturalAlignment (member : Member) : Nat :=
  match member.type.layout with
  | .ok layout => layout.alignment
  | .error _ => 1

/-- The size that `@size` must not go below. Without a size of its own a member can have
no `@size` at all, so no number is great enough. -/
def leastSize (member : Member) : Nat :=
  match member.type.layout with
  | .ok layout => layout.size.getD (addressLimit - 1)
  | .error _ => addressLimit - 1

def checkAlign (member : Member) : Except SchemaError Unit :=
  match member.attributes.alignBytes? with
  | none => .ok ()
  | some align =>
      if isPowerOfTwo align && member.naturalAlignment ≤ align then .ok ()
      else .error (.invalidAlign member.name align member.naturalAlignment)

def checkSize (member : Member) : Except SchemaError Unit :=
  match member.attributes.sizeBytes? with
  | none => .ok ()
  | some size =>
      if size < member.leastSize then
        .error (.invalidSize member.name size member.leastSize)
      else .ok ()

def checkBuiltin (member : Member) : Except SchemaError Unit :=
  match member.attributes.io with
  | some (.builtin builtin) =>
      if builtin.type = member.type then .ok ()
      else .error (.builtinTypeMismatch member.name builtin member.type)
  | _ => .ok ()

/-- The first fault of the attributes, in the order alignment, size, pipeline value. -/
def checkAttributes (member : Member) : Except SchemaError Unit := do
  member.checkAlign
  member.checkSize
  member.checkBuiltin

/-- Only the last member may lack a size, and only as a runtime-sized array. -/
def checkSized (member : Member) (isLast : Bool) : Except SchemaError Unit :=
  if member.type.isSized then .ok ()
  else if !isLast then .error (.nonFinalRuntimeField member.name)
  else if !member.type.isRuntimeArray then .error (.nestedRuntimeArray member.type)
  else .ok ()

def checkName (member : Member) (seen : List String) : Except SchemaError Unit :=
  if !Identifier.isValid member.name then .error (.invalidIdentifier member.name)
  else if seen.contains member.name then .error (.duplicateField member.name)
  else .ok ()

def checkAll (seen : List String) : List Member → Except SchemaError Unit
  | [] => .ok ()
  | member :: rest => do
      member.checkName seen
      member.checkSized rest.isEmpty
      member.checkAttributes
      checkAll (member.name :: seen) rest

end Member

/-- A structure type, with or without a label. The label names the structure in a module
and takes part in equality. -/
def TypeDescriptor.structOf (label : Option String) (members : List Member) :
    Except SchemaError TypeDescriptor := do
  if members.isEmpty then .error .emptyStruct
  else
    Member.checkAll [] members
    let type := TypeDescriptor.struct label (.ofList members)
    if type.isTooLarge then .error (.structTooLarge type) else .ok type

end ShaderKit
