import ShaderKit.Codec.Words
import ShaderKit.Proofs.Codec.Extent

/-!
# Plans in words

Where every scalar that a plan goes through ends at an address, no offset wraps around, and the
plan is the one over unbounded offsets. No scalar of it straddles the last address, so all of it is
stored.
-/

namespace ShaderKit

namespace Plan

variable {available offset start : Nat} {kind : ScalarKind} {path : ValuePath}

theorem each_congr {α : Type} {plan other : Nat → α → Plan} {items : List α}
    (same : ∀ index item, start ≤ index → index < start + items.length → item ∈ items →
      plan index item = other index item) :
    each plan start items = each other start items := by
  induction items generalizing start with
  | nil => rfl
  | cons item rest induction =>
      have first := same start item (Nat.le_refl start) (by simp) List.mem_cons_self
      have others : each plan (start + 1) rest = each other (start + 1) rest := by
        apply induction
        intro index later after before member
        apply same index later (by omega) _ (List.mem_cons_of_mem item member)
        rw [List.length_cons]
        omega
      rw [each, each, first, others]

theorem scalar_words (value : Scalar) (below : offset + kind.size < addressLimit) :
    scalar (.words available) kind path offset value =
      scalar available kind path offset value := by
  have start : offset < addressLimit := by omega
  simp only [scalar, Room.address_words, lowWord_of_lt below, lowWord_of_lt start]
  rfl

theorem components_words {values : Components}
    (below : ∀ span ∈ componentLeaves kind offset values.length, span.finish < addressLimit) :
    components (.words available) kind path offset values =
      components available kind path offset values := by
  apply each_congr
  intro index value after before _
  apply scalar_words
  exact below _ (List.mem_map_of_mem (List.mem_range'_1.mpr ⟨after, before⟩))

end Plan

mutual
/-- Where no scalar of the type ends beyond the addresses, planning in words is planning. -/
theorem LaidOut.plan_words : ∀ {type : TypeDescriptor} {layout : Layout} (tail : Nat)
    (available offset : Nat) (path : ValuePath) (value : HostValue), LaidOut type layout →
      (layout.size = none → type.tailLength value = tail) →
        (∀ span ∈ type.leaves tail offset layout, span.finish < addressLimit) →
          type.plan (.words available) path offset layout value =
            type.plan available path offset layout value
  | .scalar kind, _, tail, available, offset, path, value, _, _, below => by
      rw [TypeDescriptor.leaves_scalar] at below
      cases value with
      | scalar scalar =>
          exact Plan.scalar_words scalar (below _ List.mem_cons_self)
      | _ => rfl
  | .atomic kind, _, tail, available, offset, path, value, _, _, below => by
      rw [TypeDescriptor.leaves_atomic] at below
      cases value with
      | scalar scalar =>
          exact Plan.scalar_words scalar (below _ List.mem_cons_self)
      | _ => rfl
  | .vector kind width, _, tail, available, offset, path, value, _, _, below => by
      rw [TypeDescriptor.leaves_vector] at below
      cases value with
      | vector components =>
          simp only [TypeDescriptor.plan]
          split
          next complete => exact Plan.components_words (complete ▸ below)
          next => rfl
      | _ => rfl
  | .matrix kind columns rows, _, tail, available, offset, path, value, laid, _, below => by
      cases laid
      rw [Layout.ofMatrix, TypeDescriptor.leaves_matrix] at below
      cases value with
      | matrix values =>
          simp only [TypeDescriptor.plan, Layout.ofMatrix]
          split
          next complete =>
            apply Plan.each_congr
            intro index column after before member
            have height : column.length = rows.count :=
              eq_of_beq (List.all_eq_true.mp complete.2 column member)
            apply Plan.components_words
            intro span inside
            apply below span
            rw [← complete.1]
            exact List.mem_flatMap.mpr
              ⟨index, List.mem_range'_1.mpr ⟨after, before⟩, height ▸ inside⟩
          next => rfl
      | _ => rfl
  | .array element length, _, tail, available, offset, path, value, laid, counted, below => by
      cases laid with
      | array elementLaid sized fits =>
          rw [TypeDescriptor.leaves_array] at below
          cases value with
          | array elements =>
              simp only [TypeDescriptor.plan]
              split
              next accepted =>
                have count : length.elements tail = elements.length := by
                  apply ArrayLength.elements_of_accepts accepted
                  rintro rfl
                  exact counted rfl
                apply Plan.each_congr
                intro index item after before _
                apply elementLaid.plan_words tail available _ _ item (by simp [sized])
                intro span inside
                apply below span
                rw [count]
                exact List.mem_flatMap.mpr ⟨index, List.mem_range'_1.mpr ⟨after, before⟩, inside⟩
              next => rfl
          | _ => rfl
  | .struct label members, _, tail, available, offset, path, value, laid, counted, below => by
      cases laid with
      | struct filled membersLaid fits =>
          rw [TypeDescriptor.leaves_struct] at below
          cases value with
          | struct values =>
              simp only [TypeDescriptor.plan]
              split
              next => rfl
              next =>
                apply membersLaid.planEach_words tail available offset path values _ below
                intro unfinished
                apply counted
                rw [Layout.size, MemberRun.size, unfinished, Option.map_none]
          | _ => rfl

theorem MembersLaidOut.planEach_words : ∀ {members : MemberList} {free alignment : Nat}
    {run : MemberRun} (tail : Nat) (available offset : Nat) (path : ValuePath)
    (values : List (String × HostValue)), MembersLaidOut free alignment members run →
      (run.finish = none → members.tailLength values = tail) →
        (∀ span ∈ members.leaves tail offset run.layouts, span.finish < addressLimit) →
          members.planEach (.words available) path offset run.layouts values =
            members.planEach available path offset run.layouts values
  | .nil, _, _, _, tail, available, offset, path, values, _, _, _ => rfl
  | .cons name type attributes rest, _, _, _, tail, available, offset, path, values, laid,
      counted, below => by
      cases laid with
      | cons memberLaid sized aligns spans fits restLaid =>
          rw [MemberList.leaves_cons] at below
          unfold MemberList.planEach
          split
          next => rfl
          next value found =>
            congr 1
            · apply memberLaid.plan_words tail available _ _ value (by simp [sized])
              exact fun span inside => below span (List.mem_append_left _ inside)
            · apply restLaid.planEach_words tail available offset path values
              · intro unfinished
                rw [← counted unfinished]
                exact (MemberList.tailLength_cons (restLaid.members_ne_nil unfinished)).symm
              · exact fun span inside => below span (List.mem_append_right _ inside)
      | tail memberLaid aligns unsized fits =>
          rw [MemberList.leaves_cons] at below
          unfold MemberList.planEach
          split
          next => rfl
          next value found =>
            congr 1
            · apply memberLaid.plan_words tail available _ _ value
              · intro _
                rw [← counted rfl, MemberList.tailLength_last found]
              · exact fun span inside => below span (List.mem_append_left _ inside)
end

theorem LaidOut.plan_words_of_fits {type : TypeDescriptor} {layout : Layout} {offset : Nat}
    {value : HostValue} (laid : LaidOut type layout) (available : Nat) (path : ValuePath)
    (fits : offset + type.encodedLength layout value < addressLimit) :
    type.plan (.words available) path offset layout value =
      type.plan available path offset layout value := by
  apply laid.plan_words _ available offset path value fun _ => rfl
  intro span inside
  have stops := (laid.leaves_inside inside).2
  omega

theorem LaidOut.not_straddles_of_fits {type : TypeDescriptor} {layout : Layout}
    {available offset : Nat} {path : ValuePath} {value : HostValue} {patch : Patch}
    (laid : LaidOut type layout)
    (fits : offset + type.encodedLength layout value < addressLimit)
    (planned : patch ∈ (type.plan available path offset layout value).patches) :
    ¬ patch.Straddles := by
  have covers := laid.plan_covers _ available offset path value fun _ => rfl
  have stops := (laid.leaves_inside (covers.begins.subset (List.mem_map_of_mem planned))).2
  dsimp only [Patch.Straddles, Span.finish, Patch.span] at stops ⊢
  omega

/-! ## Storing what was planned -/

namespace Machine

variable {buffer : Bytes} {failure : Option EncodeError} {patches : List Patch}

theorem store_of_apart (apart : ∀ patch ∈ patches, ¬ patch.Straddles) :
    store failure buffer patches = ⟨buffer.apply patches, failure.map .failed⟩ := by
  induction patches generalizing buffer with
  | nil => rfl
  | cons patch rest induction =>
      rw [store, if_neg (apart patch List.mem_cons_self)]
      exact induction fun later member => apart later (List.mem_cons_of_mem patch member)

theorem store_of_straddles (straddles : ∃ patch ∈ patches, patch.Straddles) :
    (store failure buffer patches).halt = some .panicked := by
  induction patches generalizing buffer with
  | nil => simp at straddles
  | cons patch rest induction =>
      rw [store]
      split
      next => rfl
      next apart =>
        apply induction
        rcases straddles with ⟨other, member, straddles⟩
        cases member with
        | head => exact absurd straddles apart
        | tail _ later => exact ⟨other, later, straddles⟩

/-- Storing panics exactly if one of the scalars straddles the last address, and then it reports
nothing. -/
theorem store_halt (failure : Option EncodeError) (buffer : Bytes) (patches : List Patch) :
    (store failure buffer patches).halt =
      if ∃ patch ∈ patches, patch.Straddles then some .panicked
      else failure.map .failed := by
  split
  next straddles => exact store_of_straddles straddles
  next none =>
    have apart : ∀ patch ∈ patches, ¬ patch.Straddles := fun patch member straddles =>
      none ⟨patch, member, straddles⟩
    rw [store_of_apart apart]

theorem failure_of_store {error : EncodeError}
    (failed : (store failure buffer patches).halt = some (.failed error)) :
    failure = some error := by
  rw [store_halt] at failed
  split at failed
  next => cases failed
  next =>
    obtain ⟨other, rfl, same⟩ := Option.map_eq_some_iff.mp failed
    exact congrArg some (Halt.failed.inj same)

end Machine

end ShaderKit
