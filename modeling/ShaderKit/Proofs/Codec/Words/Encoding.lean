import ShaderKit.Proofs.Codec.FirstOffence
import ShaderKit.Proofs.Codec.Words.Plans

/-!
# Encoding in words

As long as the end of a value is below the limit of the addresses, encoding it in words is encoding
it, and does not panic. Beyond, the bound that is checked first has wrapped around, so encoding may
write what is outside the value, run out of the buffer at a scalar, or panic.
-/

namespace ShaderKit

namespace Machine

def Encoded.of (encoded : ShaderKit.Encoded) : Encoded :=
  ⟨encoded.buffer, encoded.failure.map .failed⟩

section

variable {type : TypeDescriptor} {layout : Layout} {value : HostValue} {buffer : Bytes}
  {offset : Nat}

theorem encodeWithLayout_of_fits (laid : LaidOut type layout)
    (fits : offset + type.encodedLength layout value < addressLimit) :
    encodeWithLayout value type layout buffer offset =
      .of (ShaderKit.encodeWithLayout value type layout buffer offset) := by
  have length : type.encodedLength layout value < addressLimit := by omega
  unfold encodeWithLayout ShaderKit.encodeWithLayout
  dsimp only
  rw [lowWord_of_lt fits, lowWord_of_lt length, laid.plan_words_of_fits buffer.size [] fits]
  split
  next => rfl
  next =>
    exact store_of_apart fun patch planned => laid.not_straddles_of_fits fits planned

theorem encode_of_layout (computed : type.layout = .ok layout) :
    encode value type buffer offset = encodeWithLayout value type layout buffer offset := by
  simp only [encode, computed]

theorem encode_of_fits (computed : type.layout = .ok layout)
    (fits : offset + type.encodedLength layout value < addressLimit) :
    encode value type buffer offset = .of (ShaderKit.encode value type buffer offset) := by
  rw [encode_of_layout computed, ShaderKit.encode_of_layout computed,
    encodeWithLayout_of_fits (layout_eq_ok.mp computed) fits]

theorem encodeNew_of_fits (computed : type.layout = .ok layout)
    (fits : type.encodedLength layout value ≤ memoryLimit) :
    encodeNew value type = (ShaderKit.encodeNew value type).mapError .failed := by
  have below : type.encodedLength layout value < addressLimit :=
    Nat.lt_of_le_of_lt fits (by decide)
  have fromStart : 0 + type.encodedLength layout value < addressLimit := by omega
  simp only [encodeNew, ShaderKit.encodeNew, computed, lowWord_of_lt below,
    encodeWithLayout_of_fits (layout_eq_ok.mp computed) fromStart]
  rw [if_neg (Nat.not_lt_of_le fits)]
  rcases ShaderKit.encodeWithLayout value type layout _ 0 with ⟨after, _ | error⟩ <;> rfl

end

/-! ## Acceptance -/

/-- What encoding accepts. As long as its end is below the limit of the addresses, a value is
written exactly if it fits the type, members taken by name, and its encoded length fits in the
buffer after the offset. Encoding runs out of the buffer only where that length does not fit, and
then reports it for the whole value and leaves the buffer as it was. A new buffer that can be
allocated has exactly the encoded length, so there encoding does not run out of it and accepts
every value that fits the type. -/
theorem encode_complete_iff {type : TypeDescriptor} (registered : type.Registered) :
    ∃ layout, type.layout = .ok layout ∧ ∀ value : HostValue,
      let length := type.encodedLength layout value
      (∀ (buffer : Bytes) (offset : Nat), offset + length < addressLimit →
        ((encode value type buffer offset).halt = none ↔
          type.Accepts value ∧ offset + length ≤ buffer.size) ∧
        (encode value type buffer offset).halt ≠ some .panicked ∧
        (∀ path start needed size,
          (encode value type buffer offset).halt =
              some (.failed (.outOfBounds path start needed size)) ↔
            buffer.size < offset + length ∧ path = [] ∧ start = offset ∧ needed = length ∧
              size = buffer.size) ∧
        (buffer.size < offset + length → (encode value type buffer offset).buffer = buffer)) ∧
      (length ≤ memoryLimit →
        ((∃ bytes, encodeNew value type = .ok bytes) ↔ type.Accepts value) ∧
        encodeNew value type ≠ .error .panicked ∧
        (∀ bytes, encodeNew value type = .ok bytes → bytes.size = length) ∧
        ∀ path start needed size,
          encodeNew value type ≠ .error (.failed (.outOfBounds path start needed size))) := by
  obtain ⟨layout, laid⟩ := registered.laidOut
  have computed := layout_eq_ok.mpr laid
  refine ⟨layout, computed, fun value => ⟨fun buffer offset fits => ?_, fun fits => ?_⟩⟩
  · rw [encode_of_fits computed fits, ShaderKit.encode_of_layout computed,
      ← laid.encodeWithLayout_complete_iff]
    refine ⟨Option.map_eq_none_iff, by simp [Encoded.of], ?_, ?_⟩
    · intro path start needed size
      rw [← laid.encodeWithLayout_outOfBounds_iff]
      simp [Encoded.of]
    · intro short
      rw [encodeWithLayout_of_short short]
      rfl
  · rw [encodeNew_of_fits computed fits, ← laid.encodeNew_complete_iff]
    cases encoded : ShaderKit.encodeNew value type with
    | ok bytes =>
        refine ⟨⟨fun _ => ⟨bytes, rfl⟩, fun _ => ⟨bytes, rfl⟩⟩, ?_, ?_, ?_⟩
        · rintro ⟨⟩
        · rintro other ⟨⟩
          exact laid.size_encodeNew encoded
        · rintro _ _ _ _ ⟨⟩
    | error error =>
        refine ⟨⟨?_, ?_⟩, ?_, ?_, ?_⟩
        · rintro ⟨_, ⟨⟩⟩
        · rintro ⟨_, ⟨⟩⟩
        · rintro ⟨⟩
        · rintro _ ⟨⟩
        · rintro path start needed size ⟨⟩
          exact laid.encodeNew_inBounds path start needed size encoded

def exampleHeaderValue (tail : List HostValue) : HostValue :=
  .struct [("tail", .array tail), ("count", .scalar (.u32 5)),
    ("flags", .array [.scalar (.u32 1), .scalar (.u32 2), .scalar (.u32 3)])]

/-- One element fits exactly after two bytes. One byte less, or one component less, is refused. -/
theorem encode_complete_exampleHeader :
    let type := TypeDescriptor.struct none (.ofList exampleHeader)
    let value := exampleHeaderValue [.vector [.f32 1, .f32 2, .f32 3]]
    type.Registered ∧ (encode value type (Array.replicate 130 0xee) 2).halt = none ∧
      (encode value type (Array.replicate 129 0xee) 2).halt =
        some (.failed (.outOfBounds [] 2 128 129)) ∧
      (encode (exampleHeaderValue [.vector [.f32 1, .f32 2]]) type
        (Array.replicate 130 0xee) 2).halt ≠ none := by
  intro type value
  have ⟨layout, computed, rules⟩ := encode_complete_iff exampleHeader_registered
  cases computed
  have accepted : type.Accepts value := by
    simp [type, value, exampleHeader, exampleHeaderValue, TypeDescriptor.Accepts,
      MemberList.Accepts, MemberList.ofList, MemberList.find?, HostValue.memberIn?,
      ArrayLength.accepts, ComponentsOf, Scalar.kind, VectorWidth.count]
  have refused : ¬ type.Accepts (exampleHeaderValue [.vector [.f32 1, .f32 2]]) := by
    simp [type, exampleHeader, exampleHeaderValue, TypeDescriptor.Accepts,
      MemberList.Accepts, MemberList.ofList, HostValue.memberIn?, ComponentsOf,
      VectorWidth.count]
  refine ⟨exampleHeader_registered, ?_, ?_, ?_⟩
  · exact ((rules value).1 _ 2 (by decide +kernel)).1.mpr ⟨accepted, by decide +kernel⟩
  · exact (((rules value).1 _ 2 (by decide +kernel)).2.2.1 [] 2 128 129).mpr (by decide +kernel)
  · exact fun complete => refused (((rules _).1 _ 2 (by decide +kernel)).1.mp complete).1

def exampleTriple : HostValue :=
  .array [.scalar (.u32 1), .scalar (.u32 2), .scalar (.u32 3)]

/-- Right below the limit of the addresses, a number that ends at the limit panics, and three
numbers run out of the buffer at the first of them. -/
theorem encode_exampleTriple_wrapped :
    TypeDescriptor.u32.Registered ∧
      (encode (.scalar (.u32 7)) .u32 (Array.replicate 4 0) 0xfffffffffffffffc).halt =
        some .panicked ∧
      (TypeDescriptor.array .u32 (.fixed 3)).Registered ∧
      (encode exampleTriple (.array .u32 (.fixed 3)) (Array.replicate 4 0)
        0xfffffffffffffff8).halt =
        some (.failed (.outOfBounds [.index 0] 0xfffffffffffffff8 4 4)) :=
  ⟨.scalar .u32, by decide +kernel, @TypeDescriptor.Registered.array _ _ (.fixed 3) (.scalar .u32) rfl,
    by decide +kernel⟩

/-! ## What is written -/

def exampleReserved : List Member :=
  [⟨"head", .array .u32 (.fixed 0), { size := some 16 }⟩, ⟨"b", .u32, {}⟩]

theorem exampleReserved_registered :
    (TypeDescriptor.struct none (.ofList exampleReserved)).Registered := by
  apply @TypeDescriptor.Registered.struct none exampleReserved
  · intro member inside
    simp only [exampleReserved, List.mem_cons, List.not_mem_nil, or_false] at inside
    rcases inside with rfl | rfl
    · exact @TypeDescriptor.Registered.array _ _ (.fixed 0) (.scalar .u32) rfl
    · exact .scalar .u32
  · rfl

/-- Errors name the first offending place. If a value is not encoded into a new buffer, the path of
the error leads to a part of the type and to a part of the value that does not fit it, and the error
is right about that part. Every place before that one in declaration and index order, or before the
member that is missing there, is there in the value and holds what fits. The one exception is a
scalar outside the buffer, and the encoded length of such a value is beyond the addresses. -/
theorem encodeNew_firstOffence {type : TypeDescriptor} {value : HostValue} {error : EncodeError}
    (registered : type.Registered) (failed : encodeNew value type = .error (.failed error)) :
    (∃ layout path start needed size, type.layout = .ok layout ∧
      addressLimit ≤ type.encodedLength layout value ∧
        error = .outOfBounds path start needed size) ∨
    ∃ path inner part, type.part? path = some (path, inner) ∧ value.at? path = some part ∧
      error.Reports path inner part ∧ ¬ inner.Accepts part ∧
      ∀ other earlier, type.part? other = some (other, earlier) →
        type.PlacedBefore other (path ++ error.missing) →
          ∃ found, value.at? other = some found ∧ earlier.Accepts found := by
  obtain ⟨layout, laid⟩ := registered.laidOut
  have computed := layout_eq_ok.mpr laid
  have stopped : (type.plan (.words (lowWord (type.encodedLength layout value))) [] 0 layout
      value).failure = some error := by
    simp only [encodeNew, computed] at failed
    split at failed
    next => cases failed
    next =>
      unfold encodeWithLayout at failed
      simp only [Array.size_replicate, Nat.zero_add, Nat.lt_irrefl, if_false] at failed
      split at failed
      next => cases failed
      next after halt stored =>
        cases failed
        exact failure_of_store (congrArg Encoded.halt stored)
  cases error with
  | outOfBounds path start needed size =>
      refine .inl ⟨layout, path, start, needed, size, computed, ?_, rfl⟩
      apply Nat.le_of_not_lt
      intro below
      have fits : 0 + type.encodedLength layout value < addressLimit := by omega
      rw [lowWord_of_lt below, laid.plan_words_of_fits _ [] fits] at stopped
      exact laid.plan_inBounds (by omega) [] path start needed size stopped
  | _ => exact .inr (laid.plan_firstOffence registered.distinct stopped nofun)

/-- The second element of the tail has a component of another kind. The members and the element
before it fit. -/
theorem encodeNew_firstOffence_exampleHeader :
    let type := TypeDescriptor.struct none (.ofList exampleHeader)
    let value := exampleHeaderValue
      [.vector [.f32 1, .f32 2, .f32 3], .vector [.f32 4, .f32 5, .u32 6], .array []]
    let place : ValuePath := [.member "tail", .index 1, .index 2]
    type.Registered ∧
      encodeNew value type = .error (.failed (.shapeMismatch place .f32 "u32")) ∧
      type.part? place = some (place, .f32) ∧ value.at? place = some (.scalar (.u32 6)) ∧
      ∃ found, value.at? [.member "tail", .index 0] = some found ∧
        (TypeDescriptor.vector .f32 .three).Accepts found := by
  intro type value place
  have failed : encodeNew value type = .error (.failed (.shapeMismatch place .f32 "u32")) := by
    have named : (match encodeNew value type with
      | .ok _ => false
      | .error halt => halt == .failed (.shapeMismatch place .f32 "u32")) = true := by
        decide +kernel
    cases encoded : encodeNew value type with
    | error halt =>
        rw [encoded] at named
        rw [eq_of_beq named]
    | ok bytes =>
        rw [encoded] at named
        cases named
  rcases encodeNew_firstOffence exampleHeader_registered failed with
    ⟨_, _, _, _, _, _, _, impossible⟩ | ⟨path, inner, part, inType, inValue, reports, _, before⟩
  · cases impossible
  have same : place = path := reports.1
  subst same
  cases inType
  cases inValue
  refine ⟨exampleHeader_registered, failed, rfl, rfl, ?_⟩
  apply before [.member "tail", .index 0] _ rfl
  exact .inr ⟨rfl, _, rfl, .inl Nat.zero_lt_one⟩

def exampleVastElement : List Member :=
  [⟨"a", .u32, {}⟩, ⟨"big", .array .u32 (.fixed 0x7ffffffffffffff), {}⟩]

def exampleVastType : TypeDescriptor :=
  .array (.struct none (.ofList exampleVastElement)) .runtime

theorem exampleVastType_registered : exampleVastType.Registered := by
  have element : (TypeDescriptor.struct none (.ofList exampleVastElement)).Registered := by
    apply @TypeDescriptor.Registered.struct none exampleVastElement
    · intro member inside
      simp only [exampleVastElement, List.mem_cons, List.not_mem_nil, or_false] at inside
      rcases inside with rfl | rfl
      · exact .scalar .u32
      · exact @TypeDescriptor.Registered.array _ _ (.fixed 0x7ffffffffffffff) (.scalar .u32) rfl
    · rfl
  exact @TypeDescriptor.Registered.array _ _ .runtime element rfl

/-- The first element has no elements in its second member. The length of eight of them wraps around
to zero, and the number before that member, which fits, is what runs out of the new buffer. A buffer
for four of them cannot be asked for. -/
theorem encodeNew_exampleVastType_wrapped :
    let element := HostValue.struct [("a", .scalar (.u32 5)), ("big", .array [])]
    let value := HostValue.array (List.replicate 8 element)
    let place : ValuePath := [.index 0, .member "a"]
    exampleVastType.Registered ∧
      encodeNew value exampleVastType = .error (.failed (.outOfBounds place 0 4 0)) ∧
      exampleVastType.part? place = some (place, .u32) ∧
      value.at? place = some (.scalar (.u32 5)) ∧
      encodeNew (.array (List.replicate 4 element)) exampleVastType = .error .panicked :=
  ⟨exampleVastType_registered, rfl, rfl, rfl, rfl⟩

end Machine

end ShaderKit
