import ShaderKit.Proofs.Codec.Covering

/-!
# How far encoding reaches

The encoded length of a value counts the bytes up to the last scalar that a plan for it goes
through, also where the value does not fit its type. A runtime-sized tail counts with as many
elements as the value gives it, and with none where it gives no array.
-/

namespace ShaderKit

theorem encodedLength_of_size {type : TypeDescriptor} {layout : Layout} {size : Nat}
    (value : HostValue) (sized : layout.size = some size) :
    type.encodedLength layout value = size := by
  cases type <;> simp [TypeDescriptor.encodedLength, sized]

theorem LaidOut.encodedLength_runtimeArray {element : TypeDescriptor} {layout : Layout}
    (laid : LaidOut (.array element .runtime) layout) (value : HostValue) :
    (TypeDescriptor.array element .runtime).encodedLength layout value =
      layout.tailPlace.finish ((TypeDescriptor.array element .runtime).tailLength value) := by
  cases laid with
  | array elementLaid sized fits =>
      cases value with
      | array elements => exact (Nat.zero_add _).symm
      | _ => simp [TypeDescriptor.encodedLength, Layout.size, ArrayLength.bytes,
          TypeDescriptor.tailLength, TailPlace.finish, Layout.tailPlace]

theorem MemberList.tailLength_of_nothing : ∀ members : MemberList, members.tailLength [] = 0
  | .nil => by rw [tailLength]
  | .cons _ _ _ .nil => by rw [tailLength, HostValue.memberIn?]
  | .cons _ _ _ (.cons name type attributes rest) => by
      rw [tailLength_cons (by simp)]
      exact tailLength_of_nothing (.cons name type attributes rest)

theorem MembersLaidOut.encodedEnd : ∀ {members : MemberList} {free alignment : Nat}
    {run : MemberRun} {value : HostValue} {values : List (String × HostValue)},
    MembersLaidOut free alignment members run → run.finish = none →
      (∀ name, value.member? name = HostValue.memberIn? name values) →
        members.encodedEnd run.layouts value =
          run.layouts.tailPlace.finish (members.tailLength values)
  | .nil, _, _, _, _, _, laid, unfinished, _ => by
      cases laid
      cases unfinished
  | .cons name type attributes rest, _, _, _, value, values, laid, unfinished, given => by
      cases laid with
      | cons memberLaid sized aligns spans fits restLaid =>
          have later := restLaid.encodedEnd unfinished given
          have more := restLaid.members_ne_nil unfinished
          rw [MemberLayouts.tailPlace_cons (restLaid.layouts_ne_nil unfinished),
            MemberList.tailLength_cons more, ← later]
          cases rest with
          | nil => exact absurd rfl more
          | cons => simp [MemberList.encodedEnd]
      | tail memberLaid aligns unsized fits =>
          rw [MemberList.encodedEnd, given name]
          cases found : HostValue.memberIn? name values with
          | none =>
              cases memberLaid
              simp [MemberList.tailLength, found, MemberLayouts.tailPlace, Layout.tailPlace,
                TailPlace.finish]
          | some tail =>
              have last := memberLaid.encodedLength_runtimeArray tail
              rw [MemberList.tailLength_last found]
              simp only [last, MemberLayouts.tailPlace, TailPlace.finish, Nat.add_assoc]

/-- Without a size, the encoded length reaches to the last element and then up to the
alignment. -/
theorem LaidOut.encodedLength_eq {type : TypeDescriptor} {layout : Layout}
    (laid : LaidOut type layout) (unsized : layout.size = none) (value : HostValue) :
    type.encodedLength layout value =
      roundUp layout.alignment (layout.tailPlace.finish (type.tailLength value)) := by
  cases laid with
  | scalar | atomic | vector | matrix => cases unsized
  | @array element length inner size elementLaid sized fits =>
      cases length with
      | fixed count => cases unsized
      | runtime =>
          have arrayLaid : LaidOut (.array element .runtime) _ := .array elementLaid sized fits
          rw [arrayLaid.encodedLength_runtimeArray value]
          apply (roundUp_eq_self elementLaid.alignment_positive _).symm
          apply Nat.dvd_add (Nat.dvd_zero _)
          exact Nat.dvd_mul_left_of_dvd (dvd_roundUp _ _) _
  | @struct label members run filled membersLaid fits =>
      have unfinished := Option.map_eq_none_iff.mp unsized
      rw [TypeDescriptor.encodedLength, unsized]
      apply congrArg (roundUp _)
      cases value with
      | struct values => exact membersLaid.encodedEnd unfinished fun _ => rfl
      | _ =>
          simp only [TypeDescriptor.tailLength]
          rw [← members.tailLength_of_nothing]
          exact membersLaid.encodedEnd unfinished fun _ => rfl

theorem LaidOut.extent_le_encodedLength {type : TypeDescriptor} {layout : Layout}
    (laid : LaidOut type layout) (value : HostValue) :
    layout.extent (type.tailLength value) ≤ type.encodedLength layout value := by
  cases sized : layout.size with
  | some size => simp [Layout.extent_of_size _ sized, encodedLength_of_size value sized]
  | none =>
      rw [laid.encodedLength_eq sized value, Layout.extent, sized]
      exact le_roundUp laid.alignment_positive _

/-- The scalars that a plan goes through stand inside the encoded length of the value. -/
theorem LaidOut.leaves_inside {type : TypeDescriptor} {layout : Layout} {offset : Nat}
    {value : HostValue} {span : Span} (laid : LaidOut type layout)
    (member : span ∈ type.leaves (type.tailLength value) offset layout) :
    offset ≤ span.offset ∧ span.finish ≤ offset + type.encodedLength layout value := by
  have inside := (laid.ordered (type.tailLength value) offset).inside member
  have reach := laid.extent_le_encodedLength value
  omega

theorem LaidOut.plan_inBounds {type : TypeDescriptor} {layout : Layout} {available offset : Nat}
    {value : HostValue} (laid : LaidOut type layout)
    (room : offset + type.encodedLength layout value ≤ available) (path place : ValuePath)
    (start needed size : Nat) :
    (type.plan available path offset layout value).failure ≠
      some (.outOfBounds place start needed size) := by
  intro exceeded
  have covers := laid.plan_covers _ available offset path value fun _ => rfl
  obtain ⟨span, member, beyond⟩ := covers.exceeds place start needed size exceeded
  have inside := laid.leaves_inside member
  omega

end ShaderKit
