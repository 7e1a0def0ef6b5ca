import ShaderKit.Descriptor

/-!
# Memory layout

The exact layout that WGSL gives to a type: sizes, alignments, member offsets and
strides. Computing a layout checks what the language demands of the type, in particular
of descriptors that no checked constructor has seen, and that every offset and size fits
an address of sixty-four bits.
-/

namespace ShaderKit

inductive LayoutStep where
  | member (name : String)
  | element
deriving DecidableEq, Repr

abbrev LayoutPath := List LayoutStep

def LayoutStep.text : LayoutStep → String
  | .member name => "." ++ name
  | .element => "[]"

def LayoutPath.text (path : LayoutPath) : String :=
  if path.isEmpty then "<root>" else String.join (path.map LayoutStep.text)

inductive AttributeFault where
  | align (asked natural : Nat)
  | size (asked natural : Nat)
  | sizeOfRuntime (asked : Nat)
deriving DecidableEq, Repr

def AttributeFault.text : AttributeFault → String
  | .align asked natural => s!"@align({asked}) must be a power of two of at least {natural}"
  | .size asked natural => s!"@size({asked}) is smaller than the natural size {natural}"
  | .sizeOfRuntime asked => s!"@size({asked}) on a runtime-sized member"

inductive UniformFault where
  | bool
  | atomic
  | runtimeArray
  | stride (bytes : Nat)
  | memberOffset (offset : Nat)
  | tooClose (distance : Nat) (member : String)
deriving DecidableEq, Repr

def UniformFault.text : UniformFault → String
  | .bool => "bool is not host-shareable"
  | .atomic => "atomics are only valid in the storage and workgroup address spaces"
  | .runtimeArray => "runtime-sized array"
  | .stride bytes => s!"array stride {bytes} is not a multiple of 16"
  | .memberOffset offset =>
      s!"member of struct or array type at offset {offset} is not aligned to 16"
  | .tooClose distance member =>
      s!"must start at least {distance} bytes after struct member `{member}`"

/-- Why a type has no layout, or none that its address space allows. -/
inductive LayoutError where
  | nonFinalRuntimeField (path : LayoutPath)
  | unsizedElement (path : LayoutPath)
  | emptyStruct (path : LayoutPath)
  | invalidAttribute (path : LayoutPath) (fault : AttributeFault)
  | uniformIncompatible (path : LayoutPath) (fault : UniformFault)
  | sizeOverflow (path : LayoutPath)
deriving DecidableEq, Repr

def LayoutError.kind : LayoutError → String
  | .nonFinalRuntimeField _ => "NonFinalRuntimeField"
  | .unsizedElement _ => "UnsizedElement"
  | .emptyStruct _ => "EmptyStruct"
  | .invalidAttribute .. => "InvalidAttribute"
  | .uniformIncompatible .. => "UniformIncompatible"
  | .sizeOverflow _ => "SizeOverflow"

def LayoutError.message : LayoutError → String
  | .nonFinalRuntimeField path =>
      s!"`{path.text}`: runtime-sized member must be the last field of its struct"
  | .unsizedElement path => s!"`{path.text}`: array element has no fixed size"
  | .emptyStruct path => s!"`{path.text}`: struct has no fields"
  | .invalidAttribute path fault =>
      s!"`{path.text}`: invalid layout attribute, {fault.text}"
  | .uniformIncompatible path fault =>
      s!"`{path.text}`: not usable in the uniform address space, {fault.text}"
  | .sizeOverflow path => s!"`{path.text}`: byte size does not fit in the address range"

/-! ## Layouts -/

mutual
/-- The layout of one type. Runtime-sized arrays, and structures that end in one, have
no size. -/
inductive Layout where
  | leaf (size alignment : Nat)
  | matrix (size alignment columnStride : Nat)
  | array (size : Option Nat) (alignment stride : Nat) (element : Layout)
  | struct (size : Option Nat) (alignment : Nat) (members : MemberLayouts)

/-- The layouts of structure members. The span of a member is the number of bytes
reserved for it, which `@size` may extend. -/
inductive MemberLayouts where
  | nil
  | cons (name : String) (offset : Nat) (span : Option Nat) (layout : Layout)
      (rest : MemberLayouts)
end

deriving instance DecidableEq for Layout
deriving instance DecidableEq for MemberLayouts
deriving instance Repr for Layout
deriving instance Repr for MemberLayouts

structure MemberLayout where
  name : String
  offset : Nat
  span : Option Nat
  layout : Layout
deriving DecidableEq, Repr

namespace MemberLayouts

def toList : MemberLayouts → List MemberLayout
  | .nil => []
  | .cons name offset span layout rest => ⟨name, offset, span, layout⟩ :: rest.toList

end MemberLayouts

/-- The least multiple of `alignment` that is not below `size`. -/
def roundUp (alignment size : Nat) : Nat :=
  (size + (alignment - 1)) / alignment * alignment

namespace Layout

def size : Layout → Option Nat
  | .leaf size _ | .matrix size _ _ => some size
  | .array size _ _ _ | .struct size _ _ => size

def alignment : Layout → Nat
  | .leaf _ alignment | .matrix _ alignment _ | .array _ alignment _ _
  | .struct _ alignment _ => alignment

def stride (layout : Layout) : Option Nat :=
  layout.size.map (roundUp layout.alignment)

def members : Layout → MemberLayouts
  | .struct _ _ members => members
  | _ => .nil

def member? (layout : Layout) (name : String) : Option MemberLayout :=
  layout.members.toList.find? fun member => member.name == name

end Layout

/-! ## Sizes of the basic types -/

/-- A vector of three components is aligned like one of four. -/
def VectorWidth.alignFactor : VectorWidth → Nat
  | .two => 2
  | .three | .four => 4

def Layout.ofVector (kind : ScalarKind) (width : VectorWidth) : Layout :=
  .leaf (width.count * kind.size) (width.alignFactor * kind.size)

def columnStride (kind : ScalarKind) (rows : VectorWidth) : Nat :=
  roundUp (rows.alignFactor * kind.size) (rows.count * kind.size)

def Layout.ofMatrix (kind : ScalarKind) (columns rows : VectorWidth) : Layout :=
  .matrix (columns.count * columnStride kind rows) (rows.alignFactor * kind.size)
    (columnStride kind rows)

/-! ## Computing a layout -/

/-- Addresses and sizes stay below this number, two to the sixty-fourth. -/
def addressLimit : Nat := 0x10000000000000000

def isPowerOfTwo (number : Nat) : Bool :=
  Nat.pow 2 number.log2 == number

def checkAddress (path : LayoutPath) (number : Nat) : Except LayoutError Nat :=
  if number < addressLimit then .ok number else .error (.sizeOverflow path)

def memberAlignment (path : LayoutPath) (natural : Nat) :
    Option Nat → Except LayoutError Nat
  | none => .ok natural
  | some align =>
      if isPowerOfTwo align && natural ≤ align then .ok align
      else .error (.invalidAttribute path (.align align natural))

/-- The bytes reserved for a member: its natural size, or a greater one that it asks
for. -/
def memberSpan (path : LayoutPath) (natural : Option Nat) :
    Option Nat → Except LayoutError (Option Nat)
  | none => .ok natural
  | some size =>
      match natural with
      | some least =>
          if least ≤ size then .ok (some size)
          else .error (.invalidAttribute path (.size size least))
      | none => .error (.invalidAttribute path (.sizeOfRuntime size))

/-- The layouts of consecutive members, where they end, and their greatest alignment. The
end is missing when the last member has no size. -/
structure MemberRun where
  layouts : MemberLayouts
  finish : Option Nat
  alignment : Nat
deriving DecidableEq, Repr

mutual
/-- The layout of a type found at `path`. -/
def TypeDescriptor.layoutAt (path : LayoutPath) :
    TypeDescriptor → Except LayoutError Layout
  | .scalar kind | .atomic kind => .ok (.leaf kind.size kind.size)
  | .vector kind width => .ok (.ofVector kind width)
  | .matrix kind columns rows => .ok (.ofMatrix kind columns rows)
  | .array element length => do
      let inner ← element.layoutAt (path ++ [.element])
      match inner.stride with
      | none => .error (.unsizedElement path)
      | some stride =>
          match length with
          | .runtime => .ok (.array none inner.alignment stride inner)
          | .fixed count => do
              let size ← checkAddress path (count * stride)
              .ok (.array (some size) inner.alignment stride inner)
  | .struct _ members => do
      if members.isEmpty then .error (.emptyStruct path)
      else
        let run ← members.layoutFrom path 0 1
        match run.finish with
        | none => .ok (.struct none run.alignment run.layouts)
        | some finish => do
            let size ← checkAddress path (roundUp run.alignment finish)
            .ok (.struct (some size) run.alignment run.layouts)

/-- The layouts of the members of a structure found at `path`, from the first free
offset on. -/
def MemberList.layoutFrom (path : LayoutPath) (offset alignment : Nat) :
    MemberList → Except LayoutError MemberRun
  | .nil => .ok ⟨.nil, some offset, alignment⟩
  | .cons name type attributes rest => do
      let here := path ++ [.member name]
      let layout ← type.layoutAt here
      if layout.size.isNone && !(rest.isEmpty && type.isRuntimeArray) then
        .error (.nonFinalRuntimeField here)
      else
        let align ← memberAlignment here layout.alignment attributes.alignBytes?
        let span ← memberSpan here layout.size attributes.sizeBytes?
        let start ← checkAddress here (roundUp align offset)
        match span with
        | none =>
            .ok ⟨.cons name start none layout .nil, none, max alignment align⟩
        | some bytes => do
            let next ← checkAddress here (start + bytes)
            let run ← rest.layoutFrom path next (max alignment align)
            .ok { run with layouts := .cons name start (some bytes) layout run.layouts }
end

def TypeDescriptor.layout (type : TypeDescriptor) : Except LayoutError Layout :=
  type.layoutAt []

namespace TypeDescriptor

def size (type : TypeDescriptor) : Except LayoutError (Option Nat) :=
  type.layout.map Layout.size

def alignment (type : TypeDescriptor) : Except LayoutError Nat :=
  type.layout.map Layout.alignment

def offsetOf (type : TypeDescriptor) (name : String) : Except LayoutError (Option Nat) :=
  type.layout.map fun layout => (layout.member? name).map MemberLayout.offset

end TypeDescriptor

end ShaderKit
