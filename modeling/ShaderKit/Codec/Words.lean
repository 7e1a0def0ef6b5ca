import ShaderKit.Codec.Decode
import ShaderKit.Codec.Update

/-!
# The codec in machine words

Offsets and lengths are words of sixty-four bits, and nothing checks their sums and products: what
leaves the words wraps around. Words wrap at every operation. Sums, products and what is rounded up
to a power of two are reduced once here, at the end, which comes to the same.

A bound that is checked against a wrapped end may be passed by a scalar whose end is before its
start. Cutting the bytes from the start to such an end out of a buffer panics, and so does asking
for more memory than an allocation can have. A panic gives no result, and keeps what was written.
-/

namespace ShaderKit

/-- The number of bytes that no allocation exceeds, and so no buffer. -/
def memoryLimit : Nat := 0x7fffffffffffffff

inductive Halt (ε : Type) where
  | failed (error : ε)
  | panicked
deriving DecidableEq, Repr

/-- The end of the scalar wraps around to before its start. -/
def Patch.Straddles (patch : Patch) : Prop :=
  addressLimit ≤ patch.offset + patch.value.kind.size

instance (patch : Patch) : Decidable patch.Straddles :=
  inferInstanceAs (Decidable (addressLimit ≤ patch.offset + patch.value.kind.size))

namespace Machine

/-! ## Encoding -/

structure Encoded where
  buffer : Bytes
  halt : Option (Halt EncodeError) := none
deriving DecidableEq, Repr

/-- Store scalars in order, before the failure that ended their planning. -/
def store (failure : Option EncodeError) (buffer : Bytes) : List Patch → Encoded
  | [] => ⟨buffer, failure.map .failed⟩
  | patch :: rest =>
      if patch.Straddles then ⟨buffer, some .panicked⟩
      else store failure (buffer.write patch.offset patch.value.bytes) rest

def encodeWithLayout (value : HostValue) (type : TypeDescriptor) (layout : Layout)
    (buffer : Bytes) (offset : Nat) : Encoded :=
  let needed := type.encodedLength layout value
  if buffer.size < lowWord (offset + needed) then
    ⟨buffer, some (.failed (.outOfBounds [] offset (lowWord needed) buffer.size))⟩
  else
    let plan := type.plan (.words buffer.size) [] offset layout value
    store plan.failure buffer plan.patches

def encode (value : HostValue) (type : TypeDescriptor) (buffer : Bytes) (offset : Nat) :
    Encoded :=
  match type.layout with
  | .error error => ⟨buffer, some (.failed (.layout error))⟩
  | .ok layout => encodeWithLayout value type layout buffer offset

def encodeNew (value : HostValue) (type : TypeDescriptor) : Except (Halt EncodeError) Bytes :=
  match type.layout with
  | .error error => .error (.failed (.layout error))
  | .ok layout =>
      let length := lowWord (type.encodedLength layout value)
      if memoryLimit < length then .error .panicked
      else
        match encodeWithLayout value type layout (Array.replicate length 0) 0 with
        | ⟨buffer, none⟩ => .ok buffer
        | ⟨_, some halt⟩ => .error halt

/-! ## Decoding -/

/-- A buffer that is read at words. Space for elements is asked for at once, `valueBytes` for
each. -/
def source (valueBytes : Nat) (buffer : Bytes) : Source (Halt DecodeError) where
  scalar path kind offset := (buffer.readScalar path kind (lowWord offset)).mapError .failed
  count length offset stride :=
    let count := length.available buffer.size (lowWord offset) stride
    if memoryLimit < count * valueBytes then .error .panicked else .ok count

def decodeWithLayout (valueBytes : Nat) (buffer : Bytes) (type : TypeDescriptor)
    (layout : Layout) (offset : Nat) : Except (Halt DecodeError) HostValue :=
  type.readFrom (source valueBytes buffer) [] offset layout

def decode (valueBytes : Nat) (buffer : Bytes) (type : TypeDescriptor) (offset : Nat) :
    Except (Halt DecodeError) HostValue :=
  match type.layout with
  | .error error => .error (.failed (.layout error))
  | .ok layout => decodeWithLayout valueBytes buffer type layout offset

/-! ## Updates -/

def writeTargets (buffer : Bytes) : List Target → Encoded
  | [] => { buffer }
  | target :: rest =>
      let plan := target.plan (.words buffer.size)
      let written := store plan.failure buffer plan.patches
      match written.halt with
      | some _ => written
      | none => writeTargets written.buffer rest

def range (target : Target) : ByteRange :=
  ⟨target.place.offset, lowWord (target.place.offset + target.length)⟩

structure Updated where
  buffer : Bytes
  result : Except (Halt EncodeError) (List ByteRange)

def updateWithLayout (updates : List Update) (type : TypeDescriptor) (layout : Layout)
    (buffer : Bytes) (offset : Nat) : Updated :=
  match checkUpdates ⟨type, layout, offset⟩ (.words buffer.size) updates with
  | .error error => ⟨buffer, .error (.failed error)⟩
  | .ok targets =>
      let written := writeTargets buffer targets
      match written.halt with
      | some halt => ⟨written.buffer, .error halt⟩
      | none => ⟨written.buffer, .ok (ByteRange.merge (targets.map range))⟩

def updateBuffer (updates : List Update) (type : TypeDescriptor) (buffer : Bytes)
    (offset : Nat) : Updated :=
  match type.layout with
  | .error error => ⟨buffer, .error (.failed (.layout error))⟩
  | .ok layout => updateWithLayout updates type layout buffer offset

end Machine

end ShaderKit
