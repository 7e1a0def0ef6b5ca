import ShaderKit.Proofs.Codec.LayoutFailures

/-!
# What encoding accepts and what it writes

Encoding compares the encoded length with the buffer before it writes, and after that the only
thing that can stop it is a value that does not fit its type. Whether it is stopped or not, it
writes scalars of the type and nothing else.
-/

namespace ShaderKit

section

variable {type : TypeDescriptor} {layout : Layout} {value : HostValue} {buffer : Bytes}
  {available offset : Nat}

/-! ## Where there is room and where there is none -/

theorem encode_of_layout (computed : type.layout = .ok layout) :
    encode value type buffer offset = encodeWithLayout value type layout buffer offset := by
  simp only [encode, computed]

theorem encodeWithLayout_of_short
    (short : buffer.size < offset + type.encodedLength layout value) :
    encodeWithLayout value type layout buffer offset =
      ⟨buffer, some (.outOfBounds [] offset (type.encodedLength layout value) buffer.size)⟩ := by
  simp [encodeWithLayout, short]

theorem encodeWithLayout_of_room
    (room : offset + type.encodedLength layout value ≤ buffer.size) :
    encodeWithLayout value type layout buffer offset =
      ⟨buffer.apply (type.plan buffer.size [] offset layout value).patches,
        (type.plan buffer.size [] offset layout value).failure⟩ := by
  simp [encodeWithLayout, Nat.not_lt_of_le room]

/-- Where there is room for the encoded length, the plans of the accepted values are those
without a failure. -/
theorem LaidOut.plan_complete_iff (laid : LaidOut type layout)
    (room : offset + type.encodedLength layout value ≤ available) (path : ValuePath) :
    (type.plan available path offset layout value).failure = none ↔ type.Accepts value := by
  constructor
  · intro complete
    cases planned : type.plan available path offset layout value with
    | mk patches failure =>
        rw [planned] at complete
        cases complete
        exact laid.accepts planned
  · intro accepted
    have reach := laid.extent_le_encodedLength value
    have fits : offset + layout.extent (type.tailLength value) ≤ available := by omega
    obtain ⟨patches, whole⟩ := laid.plan_whole path accepted fits
    rw [whole]

/-! ## Acceptance -/

theorem LaidOut.encodeWithLayout_complete_iff (laid : LaidOut type layout) :
    (encodeWithLayout value type layout buffer offset).failure = none ↔
      type.Accepts value ∧ offset + type.encodedLength layout value ≤ buffer.size := by
  by_cases room : offset + type.encodedLength layout value ≤ buffer.size
  · rw [encodeWithLayout_of_room room, laid.plan_complete_iff room]
    simp [room]
  · rw [encodeWithLayout_of_short (Nat.lt_of_not_le room)]
    simp [room]

/-- Encoding runs out of the buffer exactly if the encoded length does not fit, and then it says
so for the whole value. -/
theorem LaidOut.encodeWithLayout_outOfBounds_iff (laid : LaidOut type layout) (path : ValuePath)
    (start needed size : Nat) :
    (encodeWithLayout value type layout buffer offset).failure =
        some (.outOfBounds path start needed size) ↔
      buffer.size < offset + type.encodedLength layout value ∧ path = [] ∧ start = offset ∧
        needed = type.encodedLength layout value ∧ size = buffer.size := by
  by_cases room : offset + type.encodedLength layout value ≤ buffer.size
  · rw [encodeWithLayout_of_room room]
    have inBounds := laid.plan_inBounds room [] path start needed size
    simp [inBounds, Nat.not_lt_of_le room]
  · have short := Nat.lt_of_not_le room
    rw [encodeWithLayout_of_short short]
    simp only [Option.some.injEq, EncodeError.outOfBounds.injEq, short, true_and, eq_comm]

theorem encodeNew_of_layout (computed : type.layout = .ok layout) :
    encodeNew value type =
      match (type.plan (type.encodedLength layout value) [] 0 layout value).failure with
      | some error => .error error
      | none => .ok (Bytes.apply (Array.replicate (type.encodedLength layout value) 0)
          (type.plan (type.encodedLength layout value) [] 0 layout value).patches) := by
  simp only [encodeNew, computed]
  rw [encodeWithLayout_of_room (by simp), Array.size_replicate]
  cases (type.plan (type.encodedLength layout value) [] 0 layout value).failure <;> rfl

theorem LaidOut.encodeNew_complete_iff (laid : LaidOut type layout) :
    (∃ bytes, encodeNew value type = .ok bytes) ↔ type.Accepts value := by
  have room : 0 + type.encodedLength layout value ≤ type.encodedLength layout value := by omega
  rw [encodeNew_of_layout (layout_eq_ok.mpr laid), ← laid.plan_complete_iff room []]
  cases (type.plan (type.encodedLength layout value) [] 0 layout value).failure <;> simp

theorem LaidOut.size_encodeNew {bytes : Bytes} (laid : LaidOut type layout)
    (encoded : encodeNew value type = .ok bytes) :
    bytes.size = type.encodedLength layout value := by
  rw [encodeNew_of_layout (layout_eq_ok.mpr laid)] at encoded
  split at encoded
  next => cases encoded
  next =>
    cases encoded
    simp

theorem LaidOut.encodeNew_inBounds (laid : LaidOut type layout) (path : ValuePath)
    (start needed size : Nat) :
    encodeNew value type ≠ .error (.outOfBounds path start needed size) := by
  have room : 0 + type.encodedLength layout value ≤ type.encodedLength layout value := by omega
  rw [encodeNew_of_layout (layout_eq_ok.mpr laid)]
  split
  next error failed =>
    intro exceeded
    cases exceeded
    exact laid.plan_inBounds room [] path start needed size failed
  next => nofun

end

/-! ## What is written -/

end ShaderKit
