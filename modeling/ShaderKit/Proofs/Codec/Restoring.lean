import ShaderKit.Proofs.Codec.FunctionalUpdate
import ShaderKit.Proofs.Codec.LayoutFailures

/-!
# Encoding what was decoded

Every buffer that has room for a type of fixed size holds a value of it. Writing that value
back to its place changes nothing but the words of `bool` scalars, which are read as true
unless they are zero and written as one.
-/

namespace ShaderKit

/-! ## The bytes of a scalar that was read -/

theorem ofLittleEndian_lt (bytes : List UInt8) :
    ofLittleEndian bytes < Nat.pow 256 bytes.length := by
  induction bytes with
  | nil => exact Nat.one_pos
  | cons byte rest induction =>
      have digit : byte.toNat < 256 := byte.toNat_lt
      have power : Nat.pow 256 (rest.length + 1) = Nat.pow 256 rest.length * 256 := rfl
      rw [ofLittleEndian, List.length_cons, power]
      omega

theorem littleEndian_ofLittleEndian (bytes : List UInt8) :
    littleEndian bytes.length (ofLittleEndian bytes) = bytes := by
  induction bytes with
  | nil => rfl
  | cons byte rest induction =>
      have digit : byte.toNat < 256 := byte.toNat_lt
      have lowest : UInt8.ofNat (byte.toNat + 256 * ofLittleEndian rest) = byte := by
        apply UInt8.toNat_inj.mp
        rw [UInt8.toNat_ofNat']
        omega
      have others : (byte.toNat + 256 * ofLittleEndian rest) / 256 = ofLittleEndian rest := by
        omega
      rw [List.length_cons, ofLittleEndian, littleEndian, lowest, others, induction]

namespace Scalar

variable {kind : ScalarKind} {bytes : List UInt8}

/-- Only a `bool` may be stored in other bytes than those that it was read from. -/
theorem bytes_ofBytes (length : bytes.length = kind.size) (plain : kind ≠ .bool) :
    (ofBytes kind bytes).bytes = bytes := by
  have small := ofLittleEndian_lt bytes
  have whole := littleEndian_ofLittleEndian bytes
  rw [length] at small whole
  cases kind with
  | bool => exact absurd rfl plain
  | f16 =>
      have below : ofLittleEndian bytes < 65536 := small
      simpa [ofBytes, Scalar.bytes, ScalarKind.size, Nat.mod_eq_of_lt below] using whole
  | f32 | i32 | u32 =>
      have below : ofLittleEndian bytes < 4294967296 := small
      simpa [ofBytes, Scalar.bytes, ScalarKind.size, Nat.mod_eq_of_lt below] using whole

theorem bytes_ofBytes_of_zero (length : bytes.length = kind.size)
    (zero : ofLittleEndian bytes = 0) : (ofBytes kind bytes).bytes = bytes := by
  by_cases bool : kind = .bool
  · have whole := littleEndian_ofLittleEndian bytes
    rw [length, zero] at whole
    rw [bool] at whole ⊢
    simpa [ofBytes, Scalar.bytes, ScalarKind.size, zero] using whole
  · exact bytes_ofBytes length bool

end Scalar

/-! ## What is read has the type -/

theorem componentsOf_of_read {buffer : Bytes} {path : ValuePath} {kind : ScalarKind}
    {count offset : Nat} {components : Components}
    (found : buffer.readComponents path kind count offset = .ok components) :
    ComponentsOf kind count components := by
  have ⟨length, reads⟩ := readEach_eq_ok.mp found
  refine ⟨length, ?_⟩
  intro component member
  have ⟨index, known⟩ := List.mem_iff_getElem?.mp member
  have ⟨bytes, _, same⟩ := Bytes.readScalar_eq_ok.mp (reads index component known)
  rw [← same, Scalar.kind_ofBytes]

mutual
theorem LaidOut.hasType_read : ∀ {type : TypeDescriptor} {layout : Layout} {buffer : Bytes}
    {path : ValuePath} {offset : Nat} {value : HostValue}, LaidOut type layout →
      type.read buffer path offset layout = .ok value → HasType type value
  | .scalar kind, _, _, _, _, _, _, found | .atomic kind, _, _, _, _, _, _, found => by
      simp only [TypeDescriptor.read_scalar, TypeDescriptor.read_atomic, map_eq_ok] at found
      rcases found with ⟨scalar, known, rfl⟩
      rcases Bytes.readScalar_eq_ok.mp known with ⟨bytes, _, rfl⟩
      simp [HasType]
  | .vector kind width, _, _, _, _, _, _, found => by
      rw [TypeDescriptor.read_vector, map_eq_ok] at found
      rcases found with ⟨components, known, rfl⟩
      rw [HasType]
      exact componentsOf_of_read known
  | .matrix kind columns rows, _, _, _, _, _, laid, found => by
      cases laid
      rw [Layout.ofMatrix, TypeDescriptor.read_matrix, map_eq_ok] at found
      rcases found with ⟨values, known, rfl⟩
      rcases readEach_eq_ok.mp known with ⟨length, reads⟩
      rw [HasType]
      refine ⟨length, ?_⟩
      intro column member
      rcases List.mem_iff_getElem?.mp member with ⟨index, columnKnown⟩
      exact componentsOf_of_read (reads index column columnKnown)
  | .array element length, _, _, _, _, _, laid, found => by
      cases laid with
      | array elementLaid sized fits =>
          rw [TypeDescriptor.read_array, map_eq_ok] at found
          rcases found with ⟨elements, known, rfl⟩
          rcases readEach_eq_ok.mp known with ⟨counted, reads⟩
          rw [HasType]
          constructor
          · cases length with
            | fixed count => exact beq_iff_eq.mpr counted
            | runtime => rfl
          · intro inner member
            rcases List.mem_iff_getElem?.mp member with ⟨index, innerKnown⟩
            exact elementLaid.hasType_read (reads index inner innerKnown)
  | .struct label members, _, _, _, _, _, laid, found => by
      cases laid with
      | struct filled membersLaid fits =>
          rw [TypeDescriptor.read_struct, map_eq_ok] at found
          rcases found with ⟨values, known, rfl⟩
          rw [HasType]
          exact membersLaid.haveTypes_readAll known

theorem MembersLaidOut.haveTypes_readAll : ∀ {members : MemberList} {free alignment : Nat}
    {run : MemberRun} {buffer : Bytes} {path : ValuePath} {offset : Nat}
    {values : List (String × HostValue)}, MembersLaidOut free alignment members run →
      members.readAll buffer path offset run.layouts = .ok values →
        MembersHaveTypes members values
  | .nil, _, _, _, _, _, _, _, laid, found => by
      cases laid
      cases found
      rw [MembersHaveTypes]
  | .cons name type attributes rest, _, _, _, _, _, _, _, laid, found => by
      rw [MembersHaveTypes]
      cases laid with
      | cons memberLaid sized aligns spans fits restLaid =>
          rw [MemberList.readAll_cons] at found
          rcases bind_eq_ok.mp found with ⟨value, valueRead, found⟩
          rcases bind_eq_ok.mp found with ⟨others, othersRead, same⟩
          cases same
          exact ⟨value, others, rfl, memberLaid.hasType_read valueRead,
            restLaid.haveTypes_readAll othersRead⟩
      | tail memberLaid aligns unsized fits =>
          rw [MemberList.readAll_cons] at found
          rcases bind_eq_ok.mp found with ⟨value, valueRead, found⟩
          cases found
          refine ⟨value, [], rfl, memberLaid.hasType_read valueRead, ?_⟩
          rw [MembersHaveTypes]
end

theorem hasType_of_decode {buffer : Bytes} {type : TypeDescriptor} {offset : Nat}
    {value : HostValue} (decoded : decode buffer type offset = .ok value) : HasType type value := by
  unfold decode at decoded
  split at decoded
  next => cases decoded
  next layout computed => exact (layout_eq_ok.mp computed).hasType_read decoded

/-! ## A value that was read is planned as it stands -/

namespace Plan

theorem mem_each {α : Type} {plan : Nat → α → Plan} {start : Nat} {items : List α}
    {patches : List Patch} {patch : Patch} (whole : each plan start items = ⟨patches, none⟩)
    (member : patch ∈ patches) :
    ∃ index item own, items[index]? = some item ∧ plan (start + index) item = ⟨own, none⟩ ∧
      patch ∈ own := by
  induction items generalizing start patches with
  | nil =>
      cases whole
      cases member
  | cons first rest induction =>
      rcases andThen_eq whole with ⟨before, after, firstPlan, others, rfl⟩
      cases List.mem_append.mp member with
      | inl member => exact ⟨0, first, before, rfl, firstPlan, member⟩
      | inr member =>
          have ⟨index, item, own, known, planned, inside⟩ := induction others member
          refine ⟨index + 1, item, own, known, ?_, inside⟩
          rw [← planned, Nat.add_assoc, Nat.add_comm 1]

end Plan

def Bytes.Gives (buffer : Bytes) (patch : Patch) : Prop :=
  ∃ path, buffer.readScalar path patch.value.kind patch.offset = .ok patch.value

section

variable {buffer : Bytes} {available offset : Nat} {path readPath : ValuePath}
  {kind : ScalarKind} {patches : List Patch}

theorem Plan.gives_scalar {scalar : Scalar}
    (found : buffer.readScalar readPath kind offset = .ok scalar)
    (whole : Plan.scalar available kind path offset scalar = ⟨patches, none⟩) :
    ∀ patch ∈ patches, buffer.Gives patch := by
  rcases Plan.scalar_eq whole with ⟨rfl, _, rfl⟩
  intro patch member
  cases List.mem_singleton.mp member
  exact ⟨readPath, found⟩

theorem Plan.gives_components {count : Nat} {components : Components}
    (found : buffer.readComponents readPath kind count offset = .ok components)
    (whole : Plan.components available kind path offset components = ⟨patches, none⟩) :
    ∀ patch ∈ patches, buffer.Gives patch := by
  have reads := (readEach_eq_ok.mp found).2
  intro patch member
  have ⟨index, scalar, own, known, planned, inside⟩ := Plan.mem_each whole member
  exact Plan.gives_scalar (reads index scalar known) planned patch inside

end

mutual
/-- The plan of a value that was read puts every scalar where it was found. -/
theorem LaidOut.gives_plan : ∀ {type : TypeDescriptor} {layout : Layout} {buffer : Bytes}
    {available offset : Nat} {path readPath : ValuePath} {value : HostValue}
    {patches : List Patch}, LaidOut type layout → type.Distinct →
      type.read buffer readPath offset layout = .ok value →
        type.plan available path offset layout value = ⟨patches, none⟩ →
          ∀ patch ∈ patches, buffer.Gives patch
  | .scalar kind, _, _, _, _, _, _, _, _, _, _, found, whole => by
      rw [TypeDescriptor.read_scalar, map_eq_ok] at found
      rcases found with ⟨scalar, known, rfl⟩
      exact Plan.gives_scalar known whole
  | .atomic kind, _, _, _, _, _, _, _, _, _, _, found, whole => by
      rw [TypeDescriptor.read_atomic, map_eq_ok] at found
      rcases found with ⟨scalar, known, rfl⟩
      exact Plan.gives_scalar known whole
  | .vector kind width, _, _, _, _, _, _, _, _, _, _, found, whole => by
      rw [TypeDescriptor.read_vector, map_eq_ok] at found
      rcases found with ⟨components, known, rfl⟩
      rcases TypeDescriptor.plan_vector_eq whole with ⟨_, same, _, whole⟩
      cases same
      exact Plan.gives_components known whole
  | .matrix kind columns rows, _, _, _, _, _, _, _, _, laid, _, found, whole => by
      cases laid
      rw [Layout.ofMatrix, TypeDescriptor.read_matrix, map_eq_ok] at found
      rcases found with ⟨values, known, rfl⟩
      rcases TypeDescriptor.plan_matrix_eq whole with ⟨_, same, _, _, whole⟩
      cases same
      have reads := (readEach_eq_ok.mp known).2
      intro patch member
      have ⟨index, column, own, columnKnown, planned, inside⟩ := Plan.mem_each whole member
      rw [Nat.zero_add] at planned
      have columnRead := reads index column columnKnown
      rw [Nat.zero_add] at columnRead
      exact Plan.gives_components columnRead planned patch inside
  | .array element length, _, _, _, _, _, _, _, _, laid, distinct, found, whole => by
      cases laid with
      | array elementLaid sized fits =>
          rw [TypeDescriptor.Distinct] at distinct
          rw [TypeDescriptor.read_array, map_eq_ok] at found
          rcases found with ⟨elements, known, rfl⟩
          rcases TypeDescriptor.plan_array_eq whole with ⟨_, same, _, whole⟩
          cases same
          have reads := (readEach_eq_ok.mp known).2
          intro patch member
          have ⟨index, inner, own, innerKnown, planned, inside⟩ := Plan.mem_each whole member
          exact elementLaid.gives_plan distinct (reads index inner innerKnown) planned patch inside
  | .struct label members, _, _, _, _, _, _, _, _, laid, distinct, found, whole => by
      cases laid with
      | struct filled membersLaid fits =>
          rw [TypeDescriptor.Distinct] at distinct
          rw [TypeDescriptor.read_struct, map_eq_ok] at found
          rcases found with ⟨values, known, rfl⟩
          rcases TypeDescriptor.plan_struct_eq whole with ⟨_, same, _, whole⟩
          cases same
          exact membersLaid.gives_planEach distinct known (fun _ _ => rfl) whole

theorem MembersLaidOut.gives_planEach : ∀ {members : MemberList} {free alignment : Nat}
    {run : MemberRun} {buffer : Bytes} {available offset : Nat} {path readPath : ValuePath}
    {values given : List (String × HostValue)} {patches : List Patch},
    MembersLaidOut free alignment members run → members.Distinct →
      members.readAll buffer readPath offset run.layouts = .ok values →
        (∀ name, (members.find? name).isSome = true →
          HostValue.memberIn? name given = HostValue.memberIn? name values) →
          members.planEach available path offset run.layouts given = ⟨patches, none⟩ →
            ∀ patch ∈ patches, buffer.Gives patch
  | .nil, _, _, _, _, _, _, _, _, _, _, _, laid, _, _, _, whole => by
      cases laid
      cases whole
      nofun
  | .cons name type attributes rest, _, _, _, _, _, _, _, _, _, given, _, laid, distinct, found,
      agrees, whole => by
      rw [MemberList.Distinct] at distinct
      have own := agrees name (MemberList.find?_cons_isSome.mpr (.inl rfl))
      cases laid with
      | cons memberLaid sized aligns spans fits restLaid =>
          rw [MemberList.readAll_cons] at found
          rcases bind_eq_ok.mp found with ⟨value, valueRead, found⟩
          rcases bind_eq_ok.mp found with ⟨others, othersRead, same⟩
          cases same
          rcases MemberList.planEach_cons_eq whole with
            ⟨planned, before, after, known, first, later, rfl⟩
          rw [own, HostValue.memberIn?, if_pos rfl] at known
          cases known
          have restAgrees := MemberList.memberIn?_rest distinct.1 agrees
          intro patch member
          cases List.mem_append.mp member with
          | inl member => exact memberLaid.gives_plan distinct.2.1 valueRead first patch member
          | inr member =>
              exact restLaid.gives_planEach distinct.2.2 othersRead restAgrees later patch member
      | tail memberLaid aligns unsized fits =>
          rw [MemberList.readAll_cons] at found
          rcases bind_eq_ok.mp found with ⟨value, valueRead, found⟩
          cases found
          rcases MemberList.planEach_cons_eq whole with
            ⟨planned, before, after, known, first, later, rfl⟩
          rw [own, HostValue.memberIn?, if_pos rfl] at known
          cases known
          cases later
          rw [List.append_nil]
          exact memberLaid.gives_plan distinct.2.1 valueRead first
end

/-! ## The buffer afterwards -/

def Bytes.HoldsTrue (buffer : Bytes) (span : Span) : Prop :=
  span.kind = .bool ∧ ∃ word, buffer.read? span.offset 4 = some word ∧ ofLittleEndian word ≠ 0

namespace Bytes

variable {buffer after : Bytes} {patch : Patch}

theorem Gives.holds (gives : buffer.Gives patch) (plain : ¬ buffer.HoldsTrue patch.span) :
    buffer.Holds patch := by
  have ⟨path, read⟩ := gives
  have ⟨bytes, known, same⟩ := readScalar_eq_ok.mp read
  have length := (read?_eq_some.mp known).2.1
  unfold Holds
  rw [known, ← same]
  by_cases bool : patch.value.kind = .bool
  · have zero : ofLittleEndian bytes = 0 := by
      apply Classical.byContradiction
      intro nonzero
      rw [bool] at known
      exact plain ⟨bool, bytes, known, nonzero⟩
    rw [Scalar.bytes_ofBytes_of_zero length zero]
  · rw [Scalar.bytes_ofBytes length bool]

theorem Gives.value_of_holdsTrue (gives : buffer.Gives patch)
    (holdsTrue : buffer.HoldsTrue patch.span) : patch.value = .bool true := by
  have ⟨path, read⟩ := gives
  have ⟨bytes, known, same⟩ := readScalar_eq_ok.mp read
  have ⟨(bool : patch.value.kind = .bool), word, (found : buffer.read? patch.offset 4 = _),
    nonzero⟩ := holdsTrue
  rw [bool] at known same
  cases known.symm.trans found
  rw [← same, Scalar.ofBytes, bne_iff_ne.mpr nonzero]

theorem Holds.same {position : Nat} (held : buffer.Holds patch) (heldAfter : after.Holds patch)
    (low : patch.span.offset ≤ position) (high : position < patch.span.finish) :
    after[position]? = buffer[position]? := by
  have before := (read?_eq_some.mp held).2.2 (position - patch.offset)
  have later := (read?_eq_some.mp heldAfter).2.2 (position - patch.offset)
  simp only [Patch.span, Span.finish] at low high
  rw [Nat.add_sub_cancel' low] at before later
  rw [before (by omega), later (by omega)]

end Bytes

/-- In a buffer with room for a type of fixed size, a value of the type is decoded, and it is
encoded again without a failure. Afterwards every `bool` that was read as true holds the word
one, and all other bytes are the same. -/
theorem encode_decode {type : TypeDescriptor} {size offset : Nat} {buffer : Bytes}
    (registered : type.Registered) (sized : type.size = .ok (some size))
    (room : offset + size ≤ buffer.size) :
    ∃ layout value after, type.layout = .ok layout ∧ decode buffer type offset = .ok value ∧
      HasType type value ∧ encode value type buffer offset = ⟨after, none⟩ ∧
      after.size = buffer.size ∧
      (∀ span ∈ type.leaves 0 offset layout, buffer.HoldsTrue span →
        after.read? span.offset 4 = some (littleEndian 4 1)) ∧
      ∀ position, (∀ span ∈ type.leaves 0 offset layout, buffer.HoldsTrue span →
          position < span.offset ∨ span.finish ≤ position) →
        after[position]? = buffer[position]? := by
  have ⟨layout, computed, layoutSize⟩ := map_eq_ok.mp sized
  have laid := layout_eq_ok.mp computed
  have ⟨value, read⟩ := laid.read_ok [] layoutSize room
  have typed := laid.hasType_read read
  have fits : offset + layout.extent (type.tailLength value) ≤ buffer.size := by
    rw [Layout.extent_of_size _ layoutSize]
    exact room
  have ⟨patches, whole⟩ := laid.plan_whole [] (typed.accepts registered.distinct) fits
  have spans : patches.map Patch.span = type.leaves 0 offset layout := by
    apply laid.spans_plan 0 whole
    intro unsized
    rw [layoutSize] at unsized
    cases unsized
  have gives := laid.gives_plan registered.distinct read whole
  have held := laid.holds_apply whole fits
  refine ⟨layout, value, buffer.apply patches, computed, ?_, typed, ?_, Bytes.size_apply _ _,
    ?_, ?_⟩
  · simp only [decode, computed, decodeWithLayout, read]
  · simp only [encode, computed, encodeWithLayout, encodedLength_of_size value layoutSize,
      if_neg (Nat.not_lt_of_le room), whole]
  · intro span member holdsTrue
    rw [← spans] at member
    rcases List.mem_map.mp member with ⟨patch, patchMember, rfl⟩
    have stored := held patch patchMember
    rw [Bytes.Holds, (gives patch patchMember).value_of_holdsTrue holdsTrue] at stored
    exact stored
  · intro position outside
    by_cases inside : ∃ patch ∈ patches,
        patch.span.offset ≤ position ∧ position < patch.span.finish
    · -- the scalar at this place is not a true `bool`, so it is written as it was
      rcases inside with ⟨patch, member, low, high⟩
      have plain : ¬ buffer.HoldsTrue patch.span := by
        intro holdsTrue
        have apart := outside patch.span (spans ▸ List.mem_map_of_mem member) holdsTrue
        omega
      exact ((gives patch member).holds plain).same (held patch member) low high
    · apply Bytes.getElem?_apply_outside
      intro patch member
      apply Classical.byContradiction
      intro within
      exact inside ⟨patch, member, by omega, by omega⟩

def exampleSwitch : List Member :=
  [⟨"on", .bool, {}⟩, ⟨"spot", .vector .u32 .two, {}⟩]

theorem exampleSwitch_registered :
    (TypeDescriptor.struct none (.ofList exampleSwitch)).Registered := by
  apply @TypeDescriptor.Registered.struct none exampleSwitch
  · intro member inside
    simp only [exampleSwitch, List.mem_cons, List.not_mem_nil, or_false] at inside
    rcases inside with rfl | rfl
    · exact .scalar .bool
    · exact .vector .u32 .two
  · rfl

def exampleSwitchBytes : Bytes :=
  #[0xee, 7, 1, 0, 0, 0xff, 0xff, 0xff, 0xff, 1, 2, 3, 4, 5, 6, 7, 8, 0xee]

theorem encode_decode_exampleSwitch :
    ∃ value after,
      decode exampleSwitchBytes (.struct none (.ofList exampleSwitch)) 1 = .ok value ∧
      encode value (.struct none (.ofList exampleSwitch)) exampleSwitchBytes 1 = ⟨after, none⟩ ∧
      after.read? 1 4 = some [1, 0, 0, 0] ∧ after[6]? = some 0xff := by
  have ⟨layout, value, after, computed, decoded, _, encoded, _, switched, same⟩ :=
    @encode_decode _ 16 1 exampleSwitchBytes exampleSwitch_registered rfl (by decide)
  cases computed
  refine ⟨value, after, decoded, encoded, ?_, ?_⟩
  · exact switched ⟨1, .bool⟩ (by decide) ⟨rfl, [7, 1, 0, 0], by decide, by decide⟩
  · apply same 6
    intro span member holdsTrue
    have bool := holdsTrue.1
    clear holdsTrue
    revert span
    decide

end ShaderKit
