import ShaderKit.Codec.Path
import ShaderKit.Codec.Bytes

/-!
# Decoding

Decoding reads every scalar of a type from its place. A runtime-sized array has as many
whole elements as the buffer holds past its start.
-/

namespace ShaderKit

def Bytes.readScalar (buffer : Bytes) (path : ValuePath) (kind : ScalarKind)
    (offset : Nat) : Except DecodeError Scalar :=
  match buffer.read? offset kind.size with
  | some bytes => .ok (.ofBytes kind bytes)
  | none => .error (.outOfBounds path offset kind.size buffer.size)

def readEach {ε α : Type} (read : Nat → Except ε α) :
    (count start : Nat) → Except ε (List α)
  | 0, _ => .ok []
  | count + 1, start => do
      let item ← read start
      let rest ← readEach read count (start + 1)
      .ok (item :: rest)

def Bytes.readComponents (buffer : Bytes) (path : ValuePath) (kind : ScalarKind)
    (count offset : Nat) : Except DecodeError Components :=
  readEach (fun index => buffer.readScalar path kind (offset + index * kind.size)) count 0

/-- The number of elements to read for an array that starts at an offset. -/
def ArrayLength.available (length : ArrayLength) (bufferSize offset stride : Nat) : Nat :=
  match length with
  | .fixed count => count
  | .runtime => (bufferSize - offset) / max stride 1

/-- What reading asks a buffer for: scalars at offsets, and the number of elements to make space
for where an array of a length and a stride starts. -/
structure Source (ε : Type) where
  scalar : ValuePath → ScalarKind → Nat → Except ε Scalar
  count : ArrayLength → Nat → Nat → Except ε Nat

namespace Source

/-- A buffer whose offsets are addresses, and space for any number of elements. -/
def exact (buffer : Bytes) : Source DecodeError where
  scalar := buffer.readScalar
  count length offset stride := .ok (length.available buffer.size offset stride)

def components {ε : Type} (source : Source ε) (path : ValuePath) (kind : ScalarKind)
    (count offset : Nat) : Except ε Components :=
  readEach (fun index => source.scalar path kind (offset + index * kind.size)) count 0

end Source

mutual
def TypeDescriptor.readFrom {ε : Type} (source : Source ε) (path : ValuePath) (offset : Nat) :
    TypeDescriptor → Layout → Except ε HostValue
  | .scalar kind, _ | .atomic kind, _ =>
      (source.scalar path kind offset).map HostValue.scalar
  | .vector kind width, _ =>
      (source.components path kind width.count offset).map HostValue.vector
  | .matrix kind columns rows, layout =>
      match layout with
      | .matrix _ _ stride =>
          (readEach (fun index =>
            source.components path kind rows.count (offset + index * stride))
            columns.count 0).map HostValue.matrix
      | _ => .ok (TypeDescriptor.matrix kind columns rows).zero
  | .array element length, layout =>
      match layout with
      | .array _ _ stride inner => do
          let count ← source.count length offset stride
          (readEach (fun index =>
            element.readFrom source (path ++ [.index index]) (offset + index * stride) inner)
            count 0).map HostValue.array
      | _ => .ok (TypeDescriptor.array element length).zero
  | .struct label members, layout =>
      match layout with
      | .struct _ _ layouts =>
          (members.readAllFrom source path offset layouts).map HostValue.struct
      | _ => .ok (TypeDescriptor.struct label members).zero

def MemberList.readAllFrom {ε : Type} (source : Source ε) (path : ValuePath) (offset : Nat) :
    MemberList → MemberLayouts → Except ε (List (String × HostValue))
  | .cons name type _ rest, .cons _ memberOffset _ layout layouts => do
      let value ← type.readFrom source (path ++ [.member name]) (offset + memberOffset) layout
      let others ← rest.readAllFrom source path offset layouts
      .ok ((name, value) :: others)
  | _, _ => .ok []
end

/-! ## Reading where offsets are addresses -/

def TypeDescriptor.read (buffer : Bytes) (path : ValuePath) (offset : Nat)
    (type : TypeDescriptor) (layout : Layout) : Except DecodeError HostValue :=
  type.readFrom (.exact buffer) path offset layout

def MemberList.readAll (buffer : Bytes) (path : ValuePath) (offset : Nat)
    (members : MemberList) (layouts : MemberLayouts) :
    Except DecodeError (List (String × HostValue)) :=
  members.readAllFrom (.exact buffer) path offset layouts

section

variable (buffer : Bytes) (path : ValuePath) (offset : Nat)

theorem TypeDescriptor.read_scalar (kind : ScalarKind) (layout : Layout) :
    (scalar kind).read buffer path offset layout =
      (buffer.readScalar path kind offset).map .scalar := by
  rw [read, readFrom]
  rfl

theorem TypeDescriptor.read_atomic (kind : ScalarKind) (layout : Layout) :
    (atomic kind).read buffer path offset layout =
      (buffer.readScalar path kind offset).map .scalar := by
  rw [read, readFrom]
  rfl

theorem TypeDescriptor.read_vector (kind : ScalarKind) (width : VectorWidth)
    (layout : Layout) :
    (vector kind width).read buffer path offset layout =
      (buffer.readComponents path kind width.count offset).map .vector := by
  rw [read, readFrom]
  rfl

theorem TypeDescriptor.read_matrix (kind : ScalarKind) (columns rows : VectorWidth)
    (size alignment stride : Nat) :
    (matrix kind columns rows).read buffer path offset (.matrix size alignment stride) =
      (readEach (fun index =>
        buffer.readComponents path kind rows.count (offset + index * stride))
        columns.count 0).map .matrix := by
  rw [read, readFrom]
  rfl

theorem TypeDescriptor.read_array (element : TypeDescriptor) (length : ArrayLength)
    (size : Option Nat) (alignment stride : Nat) (inner : Layout) :
    (array element length).read buffer path offset (.array size alignment stride inner) =
      (readEach (fun index =>
        element.read buffer (path ++ [.index index]) (offset + index * stride) inner)
        (length.available buffer.size offset stride) 0).map .array := by
  rw [read, readFrom]
  rfl

theorem TypeDescriptor.read_struct (label : Option String) (members : MemberList)
    (size : Option Nat) (alignment : Nat) (layouts : MemberLayouts) :
    (struct label members).read buffer path offset (.struct size alignment layouts) =
      (members.readAll buffer path offset layouts).map .struct := by
  rw [read, readFrom]
  rfl

theorem MemberList.readAll_cons (name : String) (type : TypeDescriptor)
    (attributes : MemberAttributes) (rest : MemberList) (memberName : String)
    (memberOffset : Nat) (span : Option Nat) (layout : Layout) (layouts : MemberLayouts) :
    (cons name type attributes rest).readAll buffer path offset
        (.cons memberName memberOffset span layout layouts) = (do
      let value ← type.read buffer (path ++ [.member name]) (offset + memberOffset) layout
      let others ← rest.readAll buffer path offset layouts
      .ok ((name, value) :: others)) := by
  rw [readAll, readAllFrom]
  rfl

end

def decodeWithLayout (buffer : Bytes) (type : TypeDescriptor) (layout : Layout)
    (offset : Nat) : Except DecodeError HostValue :=
  type.read buffer [] offset layout

/-- Read a value at an offset. -/
def decode (buffer : Bytes) (type : TypeDescriptor) (offset : Nat) :
    Except DecodeError HostValue :=
  match type.layout with
  | .error error => .error (.layout error)
  | .ok layout => decodeWithLayout buffer type layout offset

end ShaderKit
