import ShaderKit.Proofs.Codec.Extent
import ShaderKit.Proofs.Codec.Plan

/-!
# Reading back what was encoded

A plan that does not fail stores exactly the scalars of its type, each at its own place.
They are apart from each other, so all of them are found in the buffer afterwards, and
decoding collects them in declaration order.
-/

namespace ShaderKit

/-! ## Stored scalars are read in canonical form -/

/-- The number of whole elements that fit between the start of a runtime-sized array and
the end of the available bytes. -/
def TailPlace.room (available : Nat) (place : TailPlace) : Nat :=
  (available - place.offset) / max place.stride 1

theorem TailPlace.room_sub (available shift : Nat) (place : TailPlace) :
    place.room (available - shift) =
      TailPlace.room available ⟨shift + place.offset, place.stride⟩ := by
  unfold room
  rw [Nat.sub_sub]

theorem ArrayLength.available_of_accepts {length : ArrayLength}
    {found bufferSize offset stride : Nat} (accepted : length.accepts found = true)
    (counted : length = .runtime → TailPlace.room (bufferSize - offset) ⟨0, stride⟩ = found) :
    length.available bufferSize offset stride = found := by
  cases length with
  | fixed count => exact (eq_of_beq accepted).symm
  | runtime => exact counted rfl

mutual
theorem LaidOut.read_plan : ∀ {type : TypeDescriptor} {layout : Layout} {buffer : Bytes}
    {available offset : Nat} {path : ValuePath} {value : HostValue} {patches : List Patch}
    (readPath : ValuePath), LaidOut type layout →
      type.plan available path offset layout value = ⟨patches, none⟩ →
        (∀ patch ∈ patches, buffer.Holds patch) →
          (layout.size = none →
            layout.tailPlace.room (buffer.size - offset) = type.tailLength value) →
            type.read buffer readPath offset layout = .ok (type.canon value)
  | .scalar kind, _, _, _, _, _, _, _, readPath, _, whole, held, _ => by
      rcases TypeDescriptor.plan_scalar_eq whole with ⟨scalar, rfl, whole⟩
      rcases Plan.scalar_eq whole with ⟨rfl, _, rfl⟩
      have found := (held _ List.mem_cons_self).readScalar readPath
      rw [TypeDescriptor.read_scalar, found]
      rfl
  | .atomic kind, _, _, _, _, _, _, _, readPath, _, whole, held, _ => by
      rcases TypeDescriptor.plan_atomic_eq whole with ⟨scalar, rfl, whole⟩
      rcases Plan.scalar_eq whole with ⟨rfl, _, rfl⟩
      have found := (held _ List.mem_cons_self).readScalar readPath
      rw [TypeDescriptor.read_atomic, found]
      rfl
  | .vector kind width, _, _, _, _, _, _, _, readPath, _, whole, held, _ => by
      rcases TypeDescriptor.plan_vector_eq whole with ⟨components, rfl, complete, whole⟩
      have found := Plan.readComponents_components readPath whole held
      rw [TypeDescriptor.read_vector, ← complete, found]
      rfl
  | .matrix kind columns rows, _, buffer, _, offset, _, _, _, readPath, laid, whole, held,
      _ => by
      cases laid
      rcases TypeDescriptor.plan_matrix_eq whole with
        ⟨values, rfl, complete, rectangular, whole⟩
      have found := Plan.readEach_each (fun index =>
        buffer.readComponents readPath kind rows.count
          (offset + index * columnStride kind rows)) id whole held
        (fun index column patches member planned heldColumn => by
          rw [← rectangular column member]
          exact Plan.readComponents_components readPath planned heldColumn)
      rw [Layout.ofMatrix, TypeDescriptor.read_matrix, ← complete, found, List.map_id]
      rfl
  | .array element length, _, buffer, _, offset, _, _, _, readPath, laid, whole, held,
      counted => by
      cases laid with
      | @array _ _ inner size elementLaid sized fits =>
          rcases TypeDescriptor.plan_array_eq whole with ⟨elements, rfl, accepted, whole⟩
          have count : length.available buffer.size offset (roundUp inner.alignment size) =
              elements.length := by
            apply ArrayLength.available_of_accepts accepted
            rintro rfl
            exact counted rfl
          have found := Plan.readEach_each (fun index =>
            element.read buffer (readPath ++ [.index index])
              (offset + index * roundUp inner.alignment size) inner) element.canon whole held
            (fun index value patches _ planned heldElement => by
              apply elementLaid.read_plan _ planned heldElement
              intro unsized
              rw [sized] at unsized
              cases unsized)
          rw [TypeDescriptor.read_array, count, found, TypeDescriptor.canon]
          rfl
  | .struct label members, _, _, _, _, _, _, _, readPath, laid, whole, held, counted => by
      cases laid with
      | struct filled membersLaid fits =>
          rcases TypeDescriptor.plan_struct_eq whole with ⟨values, rfl, _, whole⟩
          have found := membersLaid.read_plan readPath whole held
            (fun unfinished => by
              apply counted
              rw [Layout.size, MemberRun.size, unfinished, Option.map_none])
          rw [TypeDescriptor.read_struct, found, TypeDescriptor.canon]
          rfl

theorem MembersLaidOut.read_plan : ∀ {members : MemberList} {free alignment : Nat}
    {run : MemberRun} {buffer : Bytes} {available offset : Nat} {path : ValuePath}
    {values : List (String × HostValue)} {patches : List Patch} (readPath : ValuePath),
    MembersLaidOut free alignment members run →
      members.planEach available path offset run.layouts values = ⟨patches, none⟩ →
        (∀ patch ∈ patches, buffer.Holds patch) →
          (run.finish = none →
            run.layouts.tailPlace.room (buffer.size - offset) = members.tailLength values) →
            members.readAll buffer readPath offset run.layouts = .ok (members.canon values)
  | .nil, _, _, _, _, _, _, _, _, _, _, laid, _, _, _ => by
      cases laid
      rfl
  | .cons name type attributes rest, _, _, _, _, _, offset, _, values, _, readPath, laid, whole,
      held, counted => by
      cases laid with
      | cons memberLaid sized aligns spans fits restLaid =>
          rcases MemberList.planEach_cons_eq whole with
            ⟨value, before, after, found, first, others, rfl⟩
          have head := memberLaid.read_plan (readPath ++ [.member name]) first
            (fun patch member => held patch (List.mem_append_left _ member))
            (fun unsized => by
              rw [sized] at unsized
              cases unsized)
          have later := restLaid.read_plan readPath others
            (fun patch member => held patch (List.mem_append_right _ member))
            (fun unfinished => by
              have last := counted unfinished
              rw [MemberLayouts.tailPlace_cons (restLaid.layouts_ne_nil unfinished),
                MemberList.tailLength_cons (restLaid.members_ne_nil unfinished)] at last
              exact last)
          rw [MemberList.readAll_cons, head, ok_bind, later, MemberList.canon, found]
          rfl
      | tail memberLaid aligns unsized fits =>
          rcases MemberList.planEach_cons_eq whole with
            ⟨value, before, after, found, first, others, rfl⟩
          have head := memberLaid.read_plan (readPath ++ [.member name]) first
            (fun patch member => held patch (List.mem_append_left _ member))
            (fun _ => by
              have last := counted rfl
              rw [MemberList.tailLength_last found] at last
              rw [← Nat.sub_sub, TailPlace.room_sub]
              exact last)
          rw [MemberList.readAll_cons, head, ok_bind, MemberList.canon, found]
          rfl
end

/-! ## Round trips -/

theorem encodeWithLayout_eq {value : HostValue} {type : TypeDescriptor} {layout : Layout}
    {offset : Nat} {buffer after : Bytes}
    (encoded : encodeWithLayout value type layout buffer offset = ⟨after, none⟩) :
    offset + type.encodedLength layout value ≤ buffer.size ∧
      ∃ patches, type.plan buffer.size [] offset layout value = ⟨patches, none⟩ ∧
        after = buffer.apply patches := by
  simp only [encodeWithLayout] at encoded
  split at encoded
  · cases encoded
  next fits =>
    rcases planned : type.plan buffer.size [] offset layout value with ⟨patches, failure⟩
    rw [planned] at encoded
    cases encoded
    exact ⟨Nat.le_of_not_lt fits, patches, rfl, rfl⟩

theorem encodeNew_eq {value : HostValue} {type : TypeDescriptor} {layout : Layout}
    {bytes : Bytes} (laid : type.layout = .ok layout)
    (encoded : encodeNew value type = .ok bytes) :
    ∃ patches, type.plan (type.encodedLength layout value) [] 0 layout value =
        ⟨patches, none⟩ ∧
      bytes = Bytes.apply (Array.replicate (type.encodedLength layout value) 0) patches := by
  simp only [encodeNew, laid] at encoded
  split at encoded
  next after written =>
    cases encoded
    rcases encodeWithLayout_eq written with ⟨_, patches, whole, stored⟩
    rw [Array.size_replicate] at whole
    exact ⟨patches, whole, stored⟩
  next => cases encoded

/-- The scalars of a plan are all found in the buffer afterwards. -/
theorem LaidOut.holds_apply {type : TypeDescriptor} {layout : Layout} {value : HostValue}
    {buffer : Bytes} {available offset : Nat} {path : ValuePath} {patches : List Patch}
    (laid : LaidOut type layout)
    (whole : type.plan available path offset layout value = ⟨patches, none⟩)
    (fits : offset + layout.extent (type.tailLength value) ≤ buffer.size) :
    ∀ patch ∈ patches, (buffer.apply patches).Holds patch := by
  have ordered := laid.ordered (type.tailLength value) offset
  rw [← laid.spans_plan _ whole (fun _ => rfl)] at ordered
  apply Bytes.holds_apply ordered.apart
  intro patch member
  have inside := ordered.inside (List.mem_map_of_mem member)
  exact Nat.le_trans inside.2 fits

/-- What was encoded is decoded in canonical form, whatever the buffer held before. -/
theorem decode_encode {value : HostValue} {type : TypeDescriptor} {size offset : Nat}
    {buffer after : Bytes} (sized : type.size = .ok (some size))
    (encoded : encode value type buffer offset = ⟨after, none⟩) :
    decode after type offset = .ok (type.canon value) := by
  unfold encode at encoded
  unfold decode
  cases computed : type.layout with
  | error error =>
      rw [computed] at encoded
      cases encoded
  | ok layout =>
      rw [computed] at encoded
      have laid := layout_eq_ok.mp computed
      have layoutSized : layout.size = some size := by
        rw [TypeDescriptor.size, computed] at sized
        exact Except.ok.inj sized
      rcases encodeWithLayout_eq encoded with ⟨fits, patches, whole, rfl⟩
      rw [encodedLength_of_size value layoutSized, ← Layout.extent_of_size _ layoutSized] at fits
      apply laid.read_plan [] whole (laid.holds_apply whole fits)
      intro unsized
      rw [layoutSized] at unsized
      cases unsized

def exampleParticle : HostValue :=
  .struct [("cell", .vector [.u32 7, .u32 9]), ("mass", .scalar (.f32 0x7fc00001)),
    ("cell", .vector [.u32 0, .u32 0])]

def exampleParticleType : TypeDescriptor :=
  .struct (some "Particle") (.ofList [⟨"mass", .f32, {}⟩, ⟨"cell", .vector .u32 .two, {}⟩])

theorem decode_encode_exampleParticle :
    decode (encode exampleParticle exampleParticleType (Array.replicate 24 0xff) 4).buffer
        exampleParticleType 4 =
      .ok (.struct [("mass", .scalar (.f32 0x7fc00001)), ("cell", .vector [.u32 7, .u32 9])]) :=
  @decode_encode exampleParticle exampleParticleType 16 4 (Array.replicate 24 0xff) _ rfl rfl

end ShaderKit
