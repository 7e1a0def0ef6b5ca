import ShaderKit.Proofs.Codec.Canonical
import ShaderKit.Proofs.Codec.Storage

/-!
# The scalars that plans store

A plan goes through the scalars of its type in memory order. It stores those before the place
where it fails, and all of them if it does not fail. It runs out of the buffer only at a scalar
that ends beyond it.
-/

namespace ShaderKit

/-- A plan that goes through the given scalars, for a buffer of `available` bytes. -/
structure Plan.Covers (available : Nat) (spans : List Span) (plan : Plan) : Prop where
  begins : plan.patches.map Patch.span <+: spans
  whole : plan.failure = none → plan.patches.map Patch.span = spans
  exceeds : ∀ path offset needed size,
    plan.failure = some (.outOfBounds path offset needed size) →
      ∃ span ∈ spans, available < span.finish

namespace Plan.Covers

variable {available : Nat} {spans others : List Span}

theorem nothing : Covers available [] {} :=
  ⟨List.prefix_rfl, fun _ => rfl, nofun⟩

theorem fail {error : EncodeError}
    (fits : ∀ path offset needed size, error ≠ .outOfBounds path offset needed size) :
    (Plan.fail error).Covers available spans where
  begins := List.nil_prefix
  whole := nofun
  exceeds path offset needed size failed :=
    absurd (Option.some.inj failed) (fits path offset needed size)

theorem mismatch (path : ValuePath) (expected : TypeDescriptor) (found : HostValue) :
    (Plan.mismatch path expected found).Covers available spans :=
  fail nofun

theorem andThen {first second : Plan} (one : first.Covers available spans)
    (two : second.Covers available others) :
    (first.andThen second).Covers available (spans ++ others) := by
  unfold Plan.andThen
  split
  next error failed =>
    refine ⟨one.begins.trans (List.prefix_append spans others), ?_, ?_⟩
    · simp [failed]
    · intro path offset needed size exceeded
      obtain ⟨span, member, beyond⟩ := one.exceeds path offset needed size exceeded
      exact ⟨span, List.mem_append_left others member, beyond⟩
  next complete =>
    have stored := one.whole complete
    refine ⟨?_, ?_, ?_⟩
    · simpa [stored] using two.begins
    · intro alsoComplete
      simp [stored, two.whole alsoComplete]
    · intro path offset needed size exceeded
      obtain ⟨span, member, beyond⟩ := two.exceeds path offset needed size exceeded
      exact ⟨span, List.mem_append_right spans member, beyond⟩

theorem each {α : Type} {plan : Nat → α → Plan} (group : Nat → List Span) {items : List α}
    (planned : ∀ index, ∀ item ∈ items, (plan index item).Covers available (group index))
    (start : Nat) :
    (Plan.each plan start items).Covers available
      ((List.range' start items.length).flatMap group) := by
  induction items generalizing start with
  | nil => exact nothing
  | cons item rest induction =>
      rw [List.length_cons, List.range'_succ, List.flatMap_cons]
      have later := induction
        (fun index other member => planned index other (List.mem_cons_of_mem item member))
        (start + 1)
      exact (planned start item List.mem_cons_self).andThen later

theorem scalar (kind : ScalarKind) (path : ValuePath) (offset : Nat) (value : Scalar) :
    (Plan.scalar available kind path offset value).Covers available [⟨offset, kind⟩] := by
  unfold Plan.scalar
  split
  next => exact mismatch _ _ _
  next same =>
    have own : value.kind = kind := Decidable.of_not_not same
    split
    next beyond =>
      exact ⟨List.nil_prefix, nofun,
        fun _ _ _ _ _ => ⟨⟨offset, kind⟩, List.mem_cons_self, beyond⟩⟩
    next => exact ⟨by simp [Patch.span, own], by simp [Patch.span, own], nofun⟩

theorem components (kind : ScalarKind) (path : ValuePath) (offset : Nat)
    (values : Components) :
    (Plan.components available kind path offset values).Covers available
      (componentLeaves kind offset values.length) := by
  unfold componentLeaves
  rw [List.map_eq_flatMap]
  apply each (fun index => [⟨offset + index * kind.size, kind⟩])
  intro index value _
  exact scalar kind (path ++ [.index index]) (offset + index * kind.size) value

end Plan.Covers

theorem ArrayLength.elements_of_accepts {length : ArrayLength} {found tail : Nat}
    (accepted : length.accepts found = true) (counted : length = .runtime → found = tail) :
    length.elements tail = found := by
  cases length with
  | fixed count => exact (eq_of_beq accepted).symm
  | runtime => exact (counted rfl).symm

mutual
/-- The plan of a value goes through the scalars of its type, with as many elements at the
end as the value has there. -/
theorem LaidOut.plan_covers : ∀ {type : TypeDescriptor} {layout : Layout} (tail : Nat)
    (available offset : Nat) (path : ValuePath) (value : HostValue), LaidOut type layout →
      (layout.size = none → type.tailLength value = tail) →
        (type.plan available path offset layout value).Covers available
          (type.leaves tail offset layout)
  | .scalar kind, _, tail, available, offset, path, value, _, _ => by
      rw [TypeDescriptor.leaves_scalar]
      cases value with
      | scalar scalar => exact .scalar kind path offset scalar
      | _ => exact .mismatch path (.scalar kind) _
  | .atomic kind, _, tail, available, offset, path, value, _, _ => by
      rw [TypeDescriptor.leaves_atomic]
      cases value with
      | scalar scalar => exact .scalar kind path offset scalar
      | _ => exact .mismatch path (.scalar kind) _
  | .vector kind width, _, tail, available, offset, path, value, _, _ => by
      rw [TypeDescriptor.leaves_vector]
      cases value with
      | vector components =>
          simp only [TypeDescriptor.plan]
          split
          next complete => exact complete ▸ .components kind path offset components
          next => exact .mismatch _ _ _
      | _ => exact .mismatch path (.vector kind width) _
  | .matrix kind columns rows, _, tail, available, offset, path, value, laid, _ => by
      cases laid
      rw [Layout.ofMatrix, TypeDescriptor.leaves_matrix]
      cases value with
      | matrix values =>
          simp only [TypeDescriptor.plan]
          split
          next complete =>
            rw [← complete.1]
            apply Plan.Covers.each
            intro index column member
            have height : column.length = rows.count :=
              eq_of_beq (List.all_eq_true.mp complete.2 column member)
            exact height ▸ .components kind _ _ column
          next => exact .mismatch _ _ _
      | _ => exact .mismatch path (.matrix kind columns rows) _
  | .array element length, _, tail, available, offset, path, value, laid, counted => by
      cases laid with
      | array elementLaid sized fits =>
          rw [TypeDescriptor.leaves_array]
          cases value with
          | array elements =>
              simp only [TypeDescriptor.plan]
              split
              next accepted =>
                have count : length.elements tail = elements.length := by
                  apply ArrayLength.elements_of_accepts accepted
                  rintro rfl
                  exact counted rfl
                rw [count]
                apply Plan.Covers.each
                intro index item _
                exact elementLaid.plan_covers tail available _ _ item (by simp [sized])
              next => exact .fail nofun
          | _ => exact .mismatch path (.array element length) _
  | .struct label members, _, tail, available, offset, path, value, laid, counted => by
      cases laid with
      | struct filled membersLaid fits =>
          rw [TypeDescriptor.leaves_struct]
          cases value with
          | struct values =>
              simp only [TypeDescriptor.plan]
              split
              next => exact .fail nofun
              next =>
                apply membersLaid.planEach_covers tail available offset path values
                intro unfinished
                apply counted
                rw [Layout.size, MemberRun.size, unfinished, Option.map_none]
          | _ => exact .mismatch path (.struct label members) _

theorem MembersLaidOut.planEach_covers : ∀ {members : MemberList} {free alignment : Nat}
    {run : MemberRun} (tail : Nat) (available offset : Nat) (path : ValuePath)
    (values : List (String × HostValue)), MembersLaidOut free alignment members run →
      (run.finish = none → members.tailLength values = tail) →
        (members.planEach available path offset run.layouts values).Covers available
          (members.leaves tail offset run.layouts)
  | .nil, _, _, _, tail, available, offset, path, values, laid, _ => by
      cases laid
      rw [MemberList.leaves_nil]
      exact .nothing
  | .cons name type attributes rest, _, _, _, tail, available, offset, path, values, laid,
      counted => by
      cases laid with
      | cons memberLaid sized aligns spans fits restLaid =>
          rw [MemberList.leaves_cons]
          unfold MemberList.planEach
          split
          next => exact .fail nofun
          next value found =>
            apply Plan.Covers.andThen
            · exact memberLaid.plan_covers tail available _ _ value (by simp [sized])
            · apply restLaid.planEach_covers tail available offset path values
              intro unfinished
              rw [← counted unfinished]
              exact (MemberList.tailLength_cons (restLaid.members_ne_nil unfinished)).symm
      | tail memberLaid aligns unsized fits =>
          rw [MemberList.leaves_cons]
          unfold MemberList.planEach
          split
          next => exact .fail nofun
          next value found =>
            apply Plan.Covers.andThen
            · apply memberLaid.plan_covers tail available _ _ value
              intro _
              rw [← counted rfl, MemberList.tailLength_last found]
            · rw [MemberList.leaves_nil]
              exact .nothing
end

/-- A plan that does not fail stores the scalars of its type. -/
theorem LaidOut.spans_plan {type : TypeDescriptor} {layout : Layout} {available offset : Nat}
    {path : ValuePath} {value : HostValue} {patches : List Patch} (tail : Nat)
    (laid : LaidOut type layout)
    (whole : type.plan available path offset layout value = ⟨patches, none⟩)
    (counted : layout.size = none → type.tailLength value = tail) :
    patches.map Patch.span = type.leaves tail offset layout := by
  have covers := laid.plan_covers tail available offset path value counted
  rw [whole] at covers
  exact covers.whole rfl

end ShaderKit
