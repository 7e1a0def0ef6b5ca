import ShaderKit.Codec.Decode
import ShaderKit.Codec.Encode
import ShaderKit.Proofs.Layout.Leaves

/-!
# Scalars in a buffer

A written scalar can be read back, and writes that are apart from it leave it alone.
-/

namespace ShaderKit

namespace Bytes

variable {buffer : Bytes} {offset other count position : Nat} {bytes read : List UInt8}

theorem getElem?_write_outside (outside : position < offset ∨ offset + bytes.length ≤ position) :
    (buffer.write offset bytes)[position]? = buffer[position]? := by
  induction bytes generalizing buffer offset with
  | nil => rfl
  | cons byte rest induction =>
      rw [List.length_cons] at outside
      have later : position < offset + 1 ∨ offset + 1 + rest.length ≤ position := by omega
      have different : offset ≠ position := by omega
      rw [write, induction later, Array.getElem?_setIfInBounds_ne different]

theorem getElem?_write_inside {index : Nat} (fits : offset + bytes.length ≤ buffer.size)
    (inside : index < bytes.length) :
    (buffer.write offset bytes)[offset + index]? = bytes[index]? := by
  induction bytes generalizing buffer offset index with
  | nil => exact absurd inside (Nat.not_lt_zero index)
  | cons byte rest induction =>
      rw [List.length_cons] at fits inside
      rw [write]
      cases index with
      | zero =>
          have before : offset + 0 < offset + 1 := Nat.lt_succ_self offset
          rw [getElem?_write_outside (.inl before), Nat.add_zero,
            Array.getElem?_setIfInBounds_self_of_lt (by omega), List.getElem?_cons_zero]
      | succ index =>
          have restFits : offset + 1 + rest.length ≤ (buffer.setIfInBounds offset byte).size := by
            rw [Array.size_setIfInBounds]
            omega
          have found := induction restFits (Nat.lt_of_succ_lt_succ inside)
          rw [Nat.add_assoc, Nat.add_comm 1] at found
          rw [found, List.getElem?_cons_succ]

theorem read?_eq_some :
    buffer.read? offset count = some read ↔
      offset + count ≤ buffer.size ∧ read.length = count ∧
        ∀ index, index < count → buffer[offset + index]? = read[index]? := by
  unfold read?
  split
  next fits =>
    have length : (buffer.extract offset (offset + count)).toList.length = count := by
      rw [Array.length_toList, Array.size_extract, Nat.min_eq_left fits, Nat.add_sub_cancel_left]
    have same : ∀ index, index < count →
        (buffer.extract offset (offset + count)).toList[index]? = buffer[offset + index]? := by
      intro index inside
      have held : index < min (offset + count) buffer.size - offset := by
        rw [Nat.min_eq_left fits, Nat.add_sub_cancel_left]
        exact inside
      rw [Array.getElem?_toList, Array.getElem?_extract, if_pos held]
    constructor
    · intro found
      cases found
      exact ⟨fits, length, fun index inside => (same index inside).symm⟩
    · rintro ⟨_, readLength, equal⟩
      congr 1
      apply List.ext_getElem?
      intro index
      rcases Nat.lt_or_ge index count with inside | outside
      · rw [same index inside, equal index inside]
      · rw [List.getElem?_eq_none (by omega), List.getElem?_eq_none (by omega)]
  next short =>
    constructor
    · intro impossible
      cases impossible
    · intro found
      exact absurd found.1 short

theorem read?_write_self (fits : offset + bytes.length ≤ buffer.size) :
    (buffer.write offset bytes).read? offset bytes.length = some bytes := by
  rw [read?_eq_some, size_write]
  exact ⟨fits, rfl, fun _ inside => getElem?_write_inside fits inside⟩

theorem read?_write_apart
    (apart : other + count ≤ offset ∨ offset + bytes.length ≤ other)
    (found : buffer.read? other count = some read) :
    (buffer.write offset bytes).read? other count = some read := by
  rw [read?_eq_some] at found ⊢
  rw [size_write]
  refine ⟨found.1, found.2.1, ?_⟩
  intro index inside
  rw [getElem?_write_outside (by omega)]
  exact found.2.2 index inside

end Bytes

/-! ## Stored patches -/

def Patch.span (patch : Patch) : Span :=
  ⟨patch.offset, patch.value.kind⟩

/-- The scalar of a patch stands in a buffer. -/
def Bytes.Holds (buffer : Bytes) (patch : Patch) : Prop :=
  buffer.read? patch.offset patch.value.kind.size = some patch.value.bytes

namespace Bytes

variable {buffer : Bytes}

@[simp] theorem size_apply (buffer : Bytes) (patches : List Patch) :
    (buffer.apply patches).size = buffer.size := by
  induction patches generalizing buffer with
  | nil => rfl
  | cons patch rest induction => exact (induction _).trans (size_write _ _ _)

theorem getElem?_apply_outside {position : Nat} {patches : List Patch}
    (outside : ∀ patch ∈ patches, position < patch.span.offset ∨ patch.span.finish ≤ position) :
    (buffer.apply patches)[position]? = buffer[position]? := by
  induction patches generalizing buffer with
  | nil => rfl
  | cons patch rest induction =>
      have here := outside patch List.mem_cons_self
      have others := @induction (buffer.write patch.offset patch.value.bytes)
        fun later member => outside later (List.mem_cons_of_mem _ member)
      rw [apply, List.foldl_cons]
      refine others.trans (getElem?_write_outside ?_)
      rw [Scalar.length_bytes]
      exact here

theorem Holds.write {patch other : Patch} (apart : other.span.Apart patch.span)
    (held : buffer.Holds patch) :
    (buffer.write other.offset other.value.bytes).Holds patch := by
  apply read?_write_apart _ held
  rw [Scalar.length_bytes]
  exact apart.symm

theorem Holds.apply {patch : Patch} {patches : List Patch}
    (apart : ∀ other ∈ patches, other.span.Apart patch.span) (held : buffer.Holds patch) :
    (buffer.apply patches).Holds patch := by
  induction patches generalizing buffer with
  | nil => exact held
  | cons other rest induction =>
      have kept := held.write (apart other List.mem_cons_self)
      exact induction (fun later member => apart later (List.mem_cons_of_mem _ member)) kept

/-- Patches that are apart from each other are all found in the buffer afterwards. -/
theorem holds_apply {patches : List Patch} (apart : (patches.map Patch.span).Pairwise Span.Apart)
    (fits : ∀ patch ∈ patches, patch.span.finish ≤ buffer.size) :
    ∀ patch ∈ patches, (buffer.apply patches).Holds patch := by
  induction patches generalizing buffer with
  | nil =>
      intro patch member
      cases member
  | cons first rest induction =>
      rw [List.map_cons, List.pairwise_cons] at apart
      have written : (buffer.write first.offset first.value.bytes).Holds first := by
        have room := fits first List.mem_cons_self
        unfold Holds
        rw [← Scalar.length_bytes]
        apply read?_write_self
        rw [Scalar.length_bytes]
        exact room
      intro patch member
      cases member with
      | head =>
          apply Holds.apply _ written
          intro other later
          exact (apart.1 other.span (List.mem_map_of_mem later)).symm
      | tail _ member =>
          apply induction apart.2 _ patch member
          intro later member
          rw [size_write]
          exact fits later (List.mem_cons_of_mem _ member)

theorem Holds.readScalar {patch : Patch} (held : buffer.Holds patch) (path : ValuePath) :
    buffer.readScalar path patch.value.kind patch.offset = .ok patch.value := by
  unfold Bytes.readScalar
  rw [held]
  exact congrArg Except.ok (Scalar.ofBytes_bytes patch.value)

end Bytes

end ShaderKit
