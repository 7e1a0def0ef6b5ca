import ShaderKit.Proofs.Codec.Restoring

/-!
# What decoding finds in a buffer

Decoding succeeds where all scalars outside the runtime-sized tail are inside the buffer. The tail
of a decoded value has as many elements as there is room for.
-/

namespace ShaderKit

/-! ## The runtime-sized tail -/

theorem TailPlace.finish_le_of_room {place : TailPlace} {available : Nat}
    (holds : 0 < place.room available) : place.finish (place.room available) ≤ available := by
  have last : place.offset + (place.room available - 1) * place.stride + place.stride ≤
      available :=
    available_item_le (Nat.sub_one_lt_of_lt holds) (Nat.le_refl place.stride)
  have whole : (place.room available - 1) * place.stride + place.stride =
      place.room available * place.stride := by
    rw [← Nat.succ_mul, Nat.succ_eq_add_one, Nat.sub_add_cancel holds]
  unfold finish
  omega

theorem LaidOut.tailLength_read_array {element : TypeDescriptor} {layout : Layout}
    {buffer : Bytes} {path : ValuePath} {offset : Nat} {value : HostValue}
    (laid : LaidOut (.array element .runtime) layout)
    (found : (TypeDescriptor.array element .runtime).read buffer path offset layout =
      .ok value) :
    (TypeDescriptor.array element .runtime).tailLength value =
      layout.tailPlace.room (buffer.size - offset) := by
  cases laid with
  | array elementLaid sized fits =>
      rw [TypeDescriptor.read_array, map_eq_ok] at found
      obtain ⟨elements, known, rfl⟩ := found
      exact length_readEach known

theorem MembersLaidOut.tailLength_readAll : ∀ {members : MemberList} {free alignment : Nat}
    {run : MemberRun} {buffer : Bytes} {path : ValuePath} {offset : Nat}
    {values given : List (String × HostValue)}, MembersLaidOut free alignment members run →
      members.Distinct → run.finish = none →
        members.readAll buffer path offset run.layouts = .ok values →
          (∀ name, (members.find? name).isSome = true →
            HostValue.memberIn? name given = HostValue.memberIn? name values) →
            members.tailLength given = run.layouts.tailPlace.room (buffer.size - offset)
  | .nil, _, _, _, _, _, _, _, _, laid, _, unfinished, _, _ => by
      cases laid
      cases unfinished
  | .cons name type attributes rest, _, _, _, _, _, _, _, _, laid, distinct, unfinished, found,
      agrees => by
      rw [MemberList.Distinct] at distinct
      cases laid with
      | cons memberLaid sized aligns spans fits restLaid =>
          rw [MemberList.readAll_cons] at found
          obtain ⟨value, _, found⟩ := bind_eq_ok.mp found
          obtain ⟨others, othersRead, same⟩ := bind_eq_ok.mp found
          cases same
          rw [MemberLayouts.tailPlace_cons (restLaid.layouts_ne_nil unfinished),
            MemberList.tailLength_cons (restLaid.members_ne_nil unfinished)]
          exact restLaid.tailLength_readAll distinct.2.2 unfinished othersRead
            (MemberList.memberIn?_rest distinct.1 agrees)
      | tail memberLaid aligns unsized fits =>
          rw [MemberList.readAll_cons] at found
          obtain ⟨value, valueRead, found⟩ := bind_eq_ok.mp found
          cases found
          have own := agrees name (MemberList.find?_cons_isSome.mpr (.inl rfl))
          rw [HostValue.memberIn?, if_pos rfl] at own
          rw [MemberList.tailLength_last own, memberLaid.tailLength_read_array valueRead,
            ← Nat.sub_sub, TailPlace.room_sub]
          rfl

/-- The tail of a decoded value has the elements that the buffer has room for. -/
theorem LaidOut.tailLength_read {type : TypeDescriptor} {layout : Layout} {buffer : Bytes}
    {path : ValuePath} {offset : Nat} {value : HostValue} (laid : LaidOut type layout)
    (distinct : type.Distinct) (unsized : layout.size = none)
    (found : type.read buffer path offset layout = .ok value) :
    type.tailLength value = layout.tailPlace.room (buffer.size - offset) := by
  cases laid with
  | scalar | atomic | vector | matrix => cases unsized
  | @array element length inner size elementLaid sized fits =>
      cases length with
      | fixed count => cases unsized
      | runtime =>
          have arrayLaid : LaidOut (.array element .runtime) _ := .array elementLaid sized fits
          exact arrayLaid.tailLength_read_array found
  | struct filled membersLaid fits =>
      rw [TypeDescriptor.Distinct] at distinct
      rw [TypeDescriptor.read_struct, map_eq_ok] at found
      obtain ⟨values, known, rfl⟩ := found
      exact membersLaid.tailLength_readAll distinct (Option.map_eq_none_iff.mp unsized) known
        fun _ _ => rfl

/-! ## Decoding -/

/-- Where the scalars outside the tail are inside the buffer, those of the counted elements are
as well. -/
theorem LaidOut.leaves_le_size {type : TypeDescriptor} {layout : Layout} {offset available : Nat}
    (laid : LaidOut type layout) (unsized : layout.size = none)
    (fit : ∀ span ∈ type.leaves 0 offset layout, span.finish ≤ available) :
    ∀ span ∈ type.leaves (layout.tailPlace.room (available - offset)) offset layout,
      span.finish ≤ available := by
  rcases Nat.eq_zero_or_pos (layout.tailPlace.room (available - offset)) with none | some
  · rw [none]
    exact fit
  · intro span member
    have inside := (laid.ordered _ offset).inside member
    have reach := TailPlace.finish_le_of_room some
    rw [Layout.extent, unsized, Option.getD_none] at inside
    have starts : 0 < span.finish - span.offset := by
      rw [Span.finish, Nat.add_sub_cancel_left]
      exact isPowerOfTwo.positive (isPowerOfTwo_size span.kind)
    omega

/-- Decoding succeeds exactly if every scalar outside the runtime-sized tail ends inside the
buffer. -/
theorem LaidOut.decodeWithLayout_complete_iff {type : TypeDescriptor} {layout : Layout}
    (laid : LaidOut type layout) (buffer : Bytes) (offset : Nat) :
    (∃ value, decodeWithLayout buffer type layout offset = .ok value) ↔
      ∀ span ∈ type.leaves 0 offset layout, span.finish ≤ buffer.size := by
  have through := laid.read_goesThrough buffer [] offset
  refine ⟨?_, through.succeeds⟩
  rintro ⟨value, found⟩
  apply Span.firstBeyond_eq_none.mp
  cases beyond : Span.firstBeyond buffer.size (type.leaves 0 offset layout) with
  | none => rfl
  | some span =>
      obtain ⟨path, failed⟩ := through.fails span beyond
      cases found.symm.trans failed

/-- A failure reports the first scalar that does not. -/
theorem LaidOut.decodeWithLayout_eq_error {type : TypeDescriptor} {layout : Layout}
    {buffer : Bytes} {offset : Nat} {error : DecodeError} (laid : LaidOut type layout)
    (failed : decodeWithLayout buffer type layout offset = .error error) :
    ∃ path span, Span.firstBeyond buffer.size (type.leaves 0 offset layout) = some span ∧
      error = .outOfBounds path span.offset span.kind.size buffer.size := by
  have through := laid.read_goesThrough buffer [] offset
  cases beyond : Span.firstBeyond buffer.size (type.leaves 0 offset layout) with
  | none =>
      obtain ⟨value, found⟩ := through.succeeds (Span.firstBeyond_eq_none.mp beyond)
      cases failed.symm.trans found
  | some span =>
      obtain ⟨path, known⟩ := through.fails span beyond
      cases failed.symm.trans known
      exact ⟨path, span, rfl, rfl⟩

end ShaderKit
