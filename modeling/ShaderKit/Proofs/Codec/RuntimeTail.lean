import ShaderKit.Descriptor.Checked
import ShaderKit.Proofs.Codec.Reading
import ShaderKit.Proofs.Codec.RoundTrip

/-!
# Round trips of runtime-sized types

The length of a runtime-sized array is not stored. Decoding takes every whole element that
fits in the buffer, and the encoded length of a structure is rounded up to its alignment, so
an array that ends a structure gains elements when the padding has room for them.
-/

namespace ShaderKit

/-- The bytes after `count` elements, up to the encoded length. -/
def Layout.padding (count : Nat) (layout : Layout) : Nat :=
  roundUp layout.alignment (layout.tailPlace.finish count) - layout.tailPlace.finish count

/-! ## The elements that decoding finds -/

theorem LaidOut.room_of_read_array {element : TypeDescriptor} {layout : Layout}
    {buffer : Bytes} {available offset : Nat} {path readPath : ValuePath} {value : HostValue}
    {patches : List Patch} (laid : LaidOut (.array element .runtime) layout)
    (whole : (TypeDescriptor.array element .runtime).plan available path offset layout value =
      ⟨patches, none⟩)
    (found : (TypeDescriptor.array element .runtime).read buffer readPath offset layout =
      .ok ((TypeDescriptor.array element .runtime).canon value)) :
    layout.tailPlace.room (buffer.size - offset) =
      (TypeDescriptor.array element .runtime).tailLength value := by
  cases laid with
  | array elementLaid sized fits =>
      rcases TypeDescriptor.plan_array_eq whole with ⟨elements, rfl, _, _⟩
      rw [TypeDescriptor.read_array] at found
      rcases map_eq_ok.mp found with ⟨items, reads, equal⟩
      have same : items = elements.map element.canon := HostValue.array.inj equal
      have length := length_readEach reads
      rw [same, List.length_map] at length
      exact length.symm

theorem MembersLaidOut.room_of_read : ∀ {members : MemberList} {free alignment : Nat}
    {run : MemberRun} {buffer : Bytes} {available offset : Nat} {path readPath : ValuePath}
    {values : List (String × HostValue)} {patches : List Patch},
    MembersLaidOut free alignment members run → run.finish = none →
      members.planEach available path offset run.layouts values = ⟨patches, none⟩ →
        members.readAll buffer readPath offset run.layouts = .ok (members.canon values) →
          run.layouts.tailPlace.room (buffer.size - offset) = members.tailLength values
  | .nil, _, _, _, _, _, _, _, _, _, _, laid, unfinished, _, _ => by
      cases laid
      cases unfinished
  | .cons name type attributes rest, _, _, _, _, _, _, _, _, values, _, laid, unfinished,
      whole, reads => by
      rw [MemberList.canon] at reads
      cases laid with
      | cons memberLaid sized aligns spans fits restLaid =>
          rcases MemberList.planEach_cons_eq whole with ⟨value, _, _, found, first, others, _⟩
          rw [MemberList.readAll_cons, found] at reads
          rcases bind_eq_ok.mp reads with ⟨head, _, reads⟩
          rcases bind_eq_ok.mp reads with ⟨later, laterRead, equal⟩
          cases (List.cons.inj (Except.ok.inj equal)).2
          rw [MemberLayouts.tailPlace_cons (restLaid.layouts_ne_nil unfinished),
            MemberList.tailLength_cons (restLaid.members_ne_nil unfinished)]
          exact restLaid.room_of_read unfinished others laterRead
      | tail memberLaid aligns unsized fits =>
          rcases MemberList.planEach_cons_eq whole with ⟨value, _, _, found, first, _, _⟩
          rw [MemberList.readAll_cons, found] at reads
          rcases bind_eq_ok.mp reads with ⟨head, headRead, reads⟩
          rcases bind_eq_ok.mp reads with ⟨later, laterRead, equal⟩
          cases (List.cons.inj (Except.ok.inj equal)).1
          have last := memberLaid.room_of_read_array first headRead
          rw [MemberList.tailLength_last found, ← last, ← Nat.sub_sub]
          exact (TailPlace.room_sub _ _ _).symm

theorem LaidOut.room_of_read {type : TypeDescriptor} {layout : Layout} {buffer : Bytes}
    {available offset : Nat} {path readPath : ValuePath} {value : HostValue}
    {patches : List Patch} (laid : LaidOut type layout) (unsized : layout.size = none)
    (whole : type.plan available path offset layout value = ⟨patches, none⟩)
    (found : type.read buffer readPath offset layout = .ok (type.canon value)) :
    layout.tailPlace.room (buffer.size - offset) = type.tailLength value := by
  cases laid with
  | scalar | atomic | vector | matrix => cases unsized
  | @array element length inner size elementLaid sized fits =>
      cases length with
      | fixed count => cases unsized
      | runtime =>
          have arrayLaid : LaidOut (.array element .runtime) _ := .array elementLaid sized fits
          exact arrayLaid.room_of_read_array whole found
  | struct filled membersLaid fits =>
      have unfinished := Option.map_eq_none_iff.mp unsized
      rcases TypeDescriptor.plan_struct_eq whole with ⟨values, rfl, _, whole⟩
      rw [TypeDescriptor.read_struct] at found
      rcases map_eq_ok.mp found with ⟨items, reads, equal⟩
      cases HostValue.struct.inj equal
      exact membersLaid.room_of_read unfinished whole reads

theorem TailPlace.room_eq_iff {place : TailPlace} {count padding : Nat} :
    place.room (place.finish count + padding) = count ↔
      padding < place.stride ∨ (place.stride = 0 ∧ padding = count) := by
  unfold room finish
  rw [Nat.add_assoc, Nat.add_sub_cancel_left]
  rcases Nat.eq_zero_or_pos place.stride with none | positive
  · simp [none]
  · have whole : (count * place.stride + padding) / place.stride =
        count + padding / place.stride := by
      rw [Nat.mul_comm, Nat.mul_add_div positive]
    rw [Nat.max_eq_left positive, whole]
    have less := Nat.div_eq_zero_iff_lt positive (x := padding)
    omega

/-! ## When the round trip holds -/

/-- A value of a type without a size is decoded from its encoding exactly when the padding
after its last element holds no further element. -/
theorem decode_encodeNew_iff {value : HostValue} {type : TypeDescriptor} {layout : Layout}
    {bytes : Bytes} (laid : type.layout = .ok layout) (unsized : layout.size = none)
    (encoded : encodeNew value type = .ok bytes) :
    decode bytes type 0 = .ok (type.canon value) ↔
      layout.padding (type.tailLength value) < layout.tailPlace.stride ∨
        (layout.tailPlace.stride = 0 ∧
          layout.padding (type.tailLength value) = type.tailLength value) := by
  have rules := layout_eq_ok.mp laid
  rcases encodeNew_eq laid encoded with ⟨patches, whole, rfl⟩
  have length := rules.encodedLength_eq unsized value
  have reach := le_roundUp rules.alignment_positive
    (layout.tailPlace.finish (type.tailLength value))
  have size : (Bytes.apply (Array.replicate (type.encodedLength layout value) 0) patches).size =
      layout.tailPlace.finish (type.tailLength value) +
        layout.padding (type.tailLength value) := by
    rw [Bytes.size_apply, Array.size_replicate, length, Layout.padding]
    omega
  rw [← TailPlace.room_eq_iff, ← size]
  unfold decode
  rw [laid]
  constructor
  · intro decoded
    exact rules.room_of_read unsized whole decoded
  · intro room
    apply rules.read_plan [] whole _ (fun _ => room)
    apply rules.holds_apply whole
    rw [Nat.zero_add, Array.size_replicate, length, Layout.extent, unsized]
    exact reach

def exampleSamplesType : TypeDescriptor :=
  .struct none (.ofList [⟨"a", .vector .f32 .four, {}⟩, ⟨"tail", .array .f32 .runtime, {}⟩])

def exampleSamples (tail : List UInt32) : HostValue :=
  .struct [("a", .vector [.f32 0x3f800000, .f32 0x40000000, .f32 0x40400000, .f32 0x40800000]),
    ("tail", .array (tail.map fun bits => .scalar (.f32 bits)))]

/-- Four elements fill the structure up to its alignment. -/
theorem decode_exampleSamples_full : ∃ bytes,
    encodeNew (exampleSamples [1, 2, 3, 4]) exampleSamplesType = .ok bytes ∧
      decode bytes exampleSamplesType 0 =
        .ok (exampleSamplesType.canon (exampleSamples [1, 2, 3, 4])) := by
  have laid : exampleSamplesType.layout = .ok (.struct none 16
      (.cons "a" 0 (some 16) (.leaf 16 16)
      (.cons "tail" 16 none (.array none 4 4 (.leaf 4 4)) .nil))) :=
    rfl
  exact ⟨_, rfl, (decode_encodeNew_iff laid rfl rfl).mpr (.inl (by decide))⟩

/-- One element leaves room for three more before the alignment. -/
theorem not_decode_encodeNew : ¬ ∀ label members type value bytes,
    TypeDescriptor.structOf label members = .ok type → type.size = .ok none →
      encodeNew value type = .ok bytes → decode bytes type 0 = .ok (type.canon value) := by
  intro always
  have built : TypeDescriptor.structOf none
      [⟨"a", .vector .f32 .four, {}⟩, ⟨"tail", .array .f32 .runtime, {}⟩] =
        .ok exampleSamplesType := by
    rfl
  have claimed := always _ _ _ (exampleSamples [0x40a00000]) _ built rfl rfl
  have lengths := congrArg (Except.map exampleSamplesType.tailLength) claimed
  have four : (4 : Nat) = 1 := Except.ok.inj lengths
  cases four

end ShaderKit
