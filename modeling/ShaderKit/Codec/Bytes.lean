import ShaderKit.Scalar

/-!
# Bytes of scalars

Words are stored with the least significant byte first. A `bool` is stored as the word
one or zero, and any word but zero is read as true.
-/

namespace ShaderKit

abbrev Bytes := Array UInt8

def littleEndian : (count : Nat) → (number : Nat) → List UInt8
  | 0, _ => []
  | count + 1, number => UInt8.ofNat number :: littleEndian count (number / 256)

def ofLittleEndian : List UInt8 → Nat
  | [] => 0
  | byte :: rest => byte.toNat + 256 * ofLittleEndian rest

@[simp] theorem length_littleEndian (count number : Nat) :
    (littleEndian count number).length = count := by
  induction count generalizing number with
  | zero => rfl
  | succ count ih => simp [littleEndian, ih]

theorem ofLittleEndian_littleEndian (count number : Nat) :
    ofLittleEndian (littleEndian count number) = number % Nat.pow 256 count := by
  induction count generalizing number with
  | zero => simp [littleEndian, ofLittleEndian, Nat.mod_one]
  | succ count ih =>
      have step : number % Nat.pow 256 (count + 1) =
          number % 256 + 256 * (number / 256 % Nat.pow 256 count) := by
        have power : Nat.pow 256 (count + 1) = 256 * Nat.pow 256 count := Nat.mul_comm _ _
        rw [power, Nat.mod_mul]
      simp only [littleEndian, ofLittleEndian, ih, UInt8.toNat_ofNat', step]

namespace Scalar

def bytes : Scalar → List UInt8
  | .bool value => littleEndian 4 (if value then 1 else 0)
  | .f16 bits => littleEndian 2 bits.toNat
  | .f32 bits => littleEndian 4 bits.toNat
  | .i32 value => littleEndian 4 value.toUInt32.toNat
  | .u32 value => littleEndian 4 value.toNat

@[simp] theorem length_bytes (value : Scalar) : value.bytes.length = value.kind.size := by
  cases value <;> simp [bytes, kind, ScalarKind.size]

def ofBytes (kind : ScalarKind) (bytes : List UInt8) : Scalar :=
  let number := ofLittleEndian bytes
  match kind with
  | .bool => .bool (number != 0)
  | .f16 => .f16 (UInt16.ofNat number)
  | .f32 => .f32 (UInt32.ofNat number)
  | .i32 => .i32 (UInt32.ofNat number).toInt32
  | .u32 => .u32 (UInt32.ofNat number)

@[simp] theorem kind_ofBytes (kind : ScalarKind) (bytes : List UInt8) :
    (ofBytes kind bytes).kind = kind := by
  cases kind <;> rfl

theorem ofBytes_bytes (value : Scalar) : ofBytes value.kind value.bytes = value := by
  cases value with
  | bool value => cases value <;> rfl
  | f16 bits =>
      have below : bits.toNat < 65536 := bits.toNat_lt
      simp [ofBytes, bytes, kind, ofLittleEndian_littleEndian, Nat.mod_eq_of_lt below]
  | f32 bits =>
      have below : bits.toNat < 4294967296 := bits.toNat_lt
      simp [ofBytes, bytes, kind, ofLittleEndian_littleEndian, Nat.mod_eq_of_lt below]
  | i32 value =>
      have below : value.toUInt32.toNat < 4294967296 := value.toUInt32.toNat_lt
      simp [ofBytes, bytes, kind, ofLittleEndian_littleEndian, Nat.mod_eq_of_lt below]
  | u32 value =>
      have below : value.toNat < 4294967296 := value.toNat_lt
      simp [ofBytes, bytes, kind, ofLittleEndian_littleEndian, Nat.mod_eq_of_lt below]

end Scalar

namespace Bytes

/-- Overwrite consecutive bytes. Bytes beyond the end are dropped. -/
def write (buffer : Bytes) (offset : Nat) : List UInt8 → Bytes
  | [] => buffer
  | byte :: rest => write (buffer.setIfInBounds offset byte) (offset + 1) rest

@[simp] theorem size_write (buffer : Bytes) (offset : Nat) (bytes : List UInt8) :
    (write buffer offset bytes).size = buffer.size := by
  induction bytes generalizing buffer offset with
  | nil => rfl
  | cons byte rest ih => simp [write, ih]

def read? (buffer : Bytes) (offset count : Nat) : Option (List UInt8) :=
  if offset + count ≤ buffer.size then some (buffer.extract offset (offset + count)).toList
  else none

end Bytes

end ShaderKit
