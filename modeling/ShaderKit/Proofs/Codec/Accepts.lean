import ShaderKit.Proofs.Codec.RoundTrip
import ShaderKit.Proofs.Value.HasType

/-!
# Values that can be encoded

Encoding takes the members of a structure value by name, so it accepts them in any order.
Where there is room, it accepts nothing else than values of the type up to that order.
-/

namespace ShaderKit

mutual
/-- A value that fits a type when its members are taken by name. -/
def TypeDescriptor.Accepts : TypeDescriptor → HostValue → Prop
  | .scalar kind, .scalar value | .atomic kind, .scalar value => value.kind = kind
  | .vector kind width, .vector components => ComponentsOf kind width.count components
  | .matrix kind columns rows, .matrix values =>
      values.length = columns.count ∧
        ∀ column ∈ values, ComponentsOf kind rows.count column
  | .array element length, .array elements =>
      length.accepts elements.length = true ∧ ∀ value ∈ elements, element.Accepts value
  | .struct _ members, .struct values =>
      (∀ given ∈ values, (members.find? given.1).isSome = true) ∧ members.Accepts values
  | _, _ => False

def MemberList.Accepts : MemberList → List (String × HostValue) → Prop
  | .nil, _ => True
  | .cons name type _ rest, values =>
      (∃ value, HostValue.memberIn? name values = some value ∧ type.Accepts value) ∧
        rest.Accepts values
end

/-! ## What a whole plan says about the value -/

namespace Plan

variable {α : Type} {plan : Nat → α → Plan} {start : Nat} {items : List α}

theorem item_of_each {patches : List Patch} (whole : each plan start items = ⟨patches, none⟩) :
    ∀ item ∈ items, ∃ index patches, plan index item = ⟨patches, none⟩ := by
  induction items generalizing start patches with
  | nil =>
      intro item member
      cases member
  | cons first rest induction =>
      rcases andThen_eq whole with ⟨before, after, planned, others, _⟩
      intro item member
      cases member with
      | head => exact ⟨start, before, planned⟩
      | tail _ member => exact induction others item member

theorem each_of_items
    (planned : ∀ index item, index < start + items.length → item ∈ items →
      ∃ patches, plan index item = ⟨patches, none⟩) :
    ∃ patches, each plan start items = ⟨patches, none⟩ := by
  induction items generalizing start with
  | nil => exact ⟨[], rfl⟩
  | cons first rest induction =>
      rw [List.length_cons] at planned
      rcases planned start first (by omega) List.mem_cons_self with ⟨before, head⟩
      have others : ∃ patches, each plan (start + 1) rest = ⟨patches, none⟩ := by
        apply induction
        intro index item below member
        exact planned index item (by omega) (List.mem_cons_of_mem _ member)
      rcases others with ⟨after, tail⟩
      exact ⟨before ++ after, by simp only [each, head, tail, andThen]⟩

end Plan

section

variable {available offset : Nat} {kind : ScalarKind} {path : ValuePath}

theorem componentsOf_of_plan {room : Room} {count : Nat} {values : Components}
    {patches : List Patch} (complete : values.length = count)
    (whole : Plan.components room kind path offset values = ⟨patches, none⟩) :
    ComponentsOf kind count values := by
  refine ⟨complete, ?_⟩
  intro component member
  rcases Plan.item_of_each whole component member with ⟨index, patches, planned⟩
  exact Plan.kind_of_scalar planned

theorem Plan.scalar_of_kind {value : Scalar} (same : value.kind = kind)
    (room : offset + kind.size ≤ available) :
    ∃ patches, Plan.scalar available kind path offset value = ⟨patches, none⟩ := by
  exact ⟨[⟨offset, value⟩], by simp [Plan.scalar, same, Nat.not_lt_of_le room]⟩

theorem Plan.components_of_kind {count : Nat} {values : Components}
    (components : ComponentsOf kind count values)
    (room : offset + count * kind.size ≤ available) :
    ∃ patches, Plan.components available kind path offset values = ⟨patches, none⟩ := by
  apply Plan.each_of_items
  intro index component below member
  apply Plan.scalar_of_kind (components.2 component member)
  rw [components.1, Nat.zero_add] at below
  have last := Nat.mul_le_mul_right kind.size below
  rw [Nat.succ_mul] at last
  omega

end

mutual
theorem LaidOut.accepts : ∀ {type : TypeDescriptor} {layout : Layout}
    {room : Room} {offset : Nat} {path : ValuePath} {value : HostValue} {patches : List Patch},
    LaidOut type layout → type.plan room path offset layout value = ⟨patches, none⟩ →
      type.Accepts value
  | .scalar kind, _, _, _, _, _, _, _, whole => by
      rcases TypeDescriptor.plan_scalar_eq whole with ⟨scalar, rfl, whole⟩
      rw [TypeDescriptor.Accepts]
      exact Plan.kind_of_scalar whole
  | .atomic kind, _, _, _, _, _, _, _, whole => by
      rcases TypeDescriptor.plan_atomic_eq whole with ⟨scalar, rfl, whole⟩
      rw [TypeDescriptor.Accepts]
      exact Plan.kind_of_scalar whole
  | .vector kind width, _, _, _, _, _, _, _, whole => by
      rcases TypeDescriptor.plan_vector_eq whole with ⟨components, rfl, complete, whole⟩
      rw [TypeDescriptor.Accepts]
      exact componentsOf_of_plan complete whole
  | .matrix kind columns rows, _, _, _, _, _, _, laid, whole => by
      cases laid
      rcases TypeDescriptor.plan_matrix_eq whole with
        ⟨values, rfl, complete, rectangular, whole⟩
      rw [TypeDescriptor.Accepts]
      refine ⟨complete, ?_⟩
      intro column member
      rcases Plan.item_of_each whole column member with ⟨index, patches, planned⟩
      exact componentsOf_of_plan (rectangular column member) planned
  | .array element length, _, _, _, _, _, _, laid, whole => by
      cases laid with
      | array elementLaid sized fits =>
          rcases TypeDescriptor.plan_array_eq whole with ⟨elements, rfl, accepted, whole⟩
          rw [TypeDescriptor.Accepts]
          refine ⟨accepted, ?_⟩
          intro value member
          rcases Plan.item_of_each whole value member with ⟨index, patches, planned⟩
          exact elementLaid.accepts planned
  | .struct label members, _, _, _, _, _, _, laid, whole => by
      cases laid with
      | struct filled membersLaid fits =>
          rcases TypeDescriptor.plan_struct_eq whole with ⟨values, rfl, known, whole⟩
          rw [TypeDescriptor.Accepts]
          exact ⟨known, membersLaid.accepts whole⟩

theorem MembersLaidOut.accepts : ∀ {members : MemberList} {free alignment : Nat}
    {run : MemberRun} {room : Room} {offset : Nat} {path : ValuePath}
    {values : List (String × HostValue)} {patches : List Patch},
    MembersLaidOut free alignment members run →
      members.planEach room path offset run.layouts values = ⟨patches, none⟩ →
        members.Accepts values
  | .nil, _, _, _, _, _, _, _, _, _, _ => by
      rw [MemberList.Accepts]
      trivial
  | .cons name type attributes rest, _, _, _, _, _, _, _, _, laid, whole => by
      rw [MemberList.Accepts]
      cases laid with
      | cons memberLaid sized aligns spans fits restLaid =>
          rcases MemberList.planEach_cons_eq whole with ⟨value, _, _, found, first, others, _⟩
          exact ⟨⟨value, found, memberLaid.accepts first⟩, restLaid.accepts others⟩
      | tail memberLaid aligns unsized fits =>
          rcases MemberList.planEach_cons_eq whole with ⟨value, _, _, found, first, _, _⟩
          refine ⟨⟨value, found, memberLaid.accepts first⟩, ?_⟩
          rw [MemberList.Accepts]
          trivial
end

/-! ## An accepted value has a whole plan where there is room -/

mutual
theorem LaidOut.plan_whole : ∀ {type : TypeDescriptor} {layout : Layout}
    {available offset : Nat} (path : ValuePath) {value : HostValue},
    LaidOut type layout → type.Accepts value →
      offset + layout.extent (type.tailLength value) ≤ available →
        ∃ patches, type.plan available path offset layout value = ⟨patches, none⟩
  | .scalar kind, _, _, _, path, value, laid, accepted, room => by
      cases laid
      cases value with
      | scalar scalar =>
          rw [TypeDescriptor.Accepts] at accepted
          exact Plan.scalar_of_kind accepted room
      | _ => exact absurd accepted (by simp [TypeDescriptor.Accepts])
  | .atomic kind, _, _, _, path, value, laid, accepted, room => by
      cases laid
      cases value with
      | scalar scalar =>
          rw [TypeDescriptor.Accepts] at accepted
          exact Plan.scalar_of_kind accepted room
      | _ => exact absurd accepted (by simp [TypeDescriptor.Accepts])
  | .vector kind width, _, _, _, path, value, laid, accepted, room => by
      cases laid
      cases value with
      | vector components =>
          rw [TypeDescriptor.Accepts] at accepted
          simp only [TypeDescriptor.plan]
          rw [if_pos accepted.1]
          exact Plan.components_of_kind accepted room
      | _ => exact absurd accepted (by simp [TypeDescriptor.Accepts])
  | .matrix kind columns rows, _, available, offset, path, value, laid, accepted, room => by
      cases laid
      cases value with
      | matrix values =>
          rw [TypeDescriptor.Accepts] at accepted
          have rectangular : values.all (fun column => column.length == rows.count) = true := by
            rw [List.all_eq_true]
            intro column member
            exact beq_iff_eq.mpr (accepted.2 column member).1
          simp only [TypeDescriptor.plan, Layout.ofMatrix]
          rw [if_pos ⟨accepted.1, rectangular⟩]
          apply Plan.each_of_items
          intro index column below member
          apply Plan.components_of_kind (accepted.2 column member)
          rw [accepted.1, Nat.zero_add] at below
          have last := Nat.mul_le_mul_right (columnStride kind rows) below
          have height := size_le_columnStride kind rows
          have all : offset + columns.count * columnStride kind rows ≤ available := room
          rw [Nat.succ_mul] at last
          omega
      | _ => exact absurd accepted (by simp [TypeDescriptor.Accepts])
  | .array element length, _, available, offset, path, value, laid, accepted, room => by
      cases laid with
      | @array _ _ inner size elementLaid sized fits =>
          cases value with
          | array elements =>
              rw [TypeDescriptor.Accepts] at accepted
              rw [extent_array, ArrayLength.elements_of_accepts accepted.1 (by
                rintro rfl
                rfl)] at room
              simp only [TypeDescriptor.plan]
              rw [if_pos accepted.1]
              apply Plan.each_of_items
              intro index value below member
              apply elementLaid.plan_whole _ (accepted.2 value member)
              have stride := le_roundUp elementLaid.alignment_positive size
              have last := Nat.mul_le_mul_right (roundUp inner.alignment size)
                (Nat.zero_add elements.length ▸ below)
              rw [Layout.extent_of_size _ sized]
              rw [Nat.succ_mul] at last
              omega
          | _ => exact absurd accepted (by simp [TypeDescriptor.Accepts])
  | .struct label members, _, available, offset, path, value, laid, accepted, room => by
      cases laid with
      | @struct _ _ run filled membersLaid fits =>
          cases value with
          | struct values =>
              rw [TypeDescriptor.Accepts] at accepted
              have known :
                  values.find? (fun given => (members.find? given.1).isNone) = none := by
                rw [List.find?_eq_none]
                intro given member
                rw [Option.isNone_iff_eq_none]
                exact Option.isSome_iff_ne_none.mp (accepted.1 given member)
              simp only [TypeDescriptor.plan]
              rw [known]
              apply membersLaid.plan_whole path accepted.2
              have reach := run.extent_le_size (members.tailLength values)
                membersLaid.alignment_positive
              have all : offset + run.size.getD
                  (run.layouts.tailPlace.finish (members.tailLength values)) ≤ available := by
                rw [TypeDescriptor.tailLength] at room
                exact room
              omega
          | _ => exact absurd accepted (by simp [TypeDescriptor.Accepts])

theorem MembersLaidOut.plan_whole : ∀ {members : MemberList} {free alignment : Nat}
    {run : MemberRun} {available offset : Nat} (path : ValuePath)
    {values : List (String × HostValue)},
    MembersLaidOut free alignment members run → members.Accepts values →
      offset + run.extent (members.tailLength values) ≤ available →
        ∃ patches, members.planEach available path offset run.layouts values = ⟨patches, none⟩
  | .nil, _, _, _, _, _, _, _, laid, _, _ => by
      cases laid
      exact ⟨[], rfl⟩
  | .cons name type attributes rest, free, _, _, available, offset, path, values, laid,
      accepted, room => by
      rw [MemberList.Accepts] at accepted
      rcases accepted with ⟨⟨value, found, fits⟩, others⟩
      cases laid with
      | @cons _ _ align _ _ _ _ _ _ layout run memberLaid sized aligns spans _ restLaid =>
          rw [restLaid.extent_cons] at room
          have first : ∃ patches, type.plan available (path ++ [.member name])
              (offset + roundUp align free) layout value = ⟨patches, none⟩ := by
            apply memberLaid.plan_whole _ fits
            rw [Layout.extent_of_size _ sized]
            have next := restLaid.free_le_extent
              ((MemberList.cons name type attributes rest).tailLength values)
            have reserved := spans.le
            omega
          have later : ∃ patches, rest.planEach available path offset run.layouts values =
              ⟨patches, none⟩ := by
            apply restLaid.plan_whole path others
            cases finished : run.finish with
            | some finish =>
                simp only [MemberRun.extent, finished, Option.getD_some] at room ⊢
                exact room
            | none =>
                rw [MemberList.tailLength_cons (restLaid.members_ne_nil finished)] at room
                exact room
          rcases first with ⟨before, first⟩
          rcases later with ⟨after, later⟩
          exact ⟨before ++ after, MemberList.planEach_cons_of found first later⟩
      | @tail _ _ align _ element _ layout memberLaid aligns _ _ =>
          have first : ∃ patches, (TypeDescriptor.array element .runtime).plan available
              (path ++ [.member name]) (offset + roundUp align free) layout value =
                ⟨patches, none⟩ := by
            apply memberLaid.plan_whole _ fits
            rw [MemberList.tailLength_last found] at room
            simp only [MemberRun.extent, MemberLayouts.tailPlace, TailPlace.finish,
              Option.getD_none] at room
            simp only [Layout.extent, memberLaid.size_runtimeArray, TailPlace.finish,
              Option.getD_none]
            omega
          rcases first with ⟨patches, first⟩
          exact ⟨patches ++ [], MemberList.planEach_cons_of found first rfl⟩
end

/-! ## Values of a type -/

mutual
/-- The canonical form of an accepted value has the type. -/
theorem hasType_canon : ∀ {type : TypeDescriptor} {value : HostValue},
    type.Accepts value → HasType type (type.canon value)
  | .scalar _, value, accepted | .atomic _, value, accepted | .vector _ _, value, accepted
  | .matrix _ _ _, value, accepted => by
      simp only [TypeDescriptor.canon]
      cases value <;> simp only [HasType, TypeDescriptor.Accepts] at accepted ⊢ <;>
        exact accepted
  | .array element length, value, accepted => by
      cases value with
      | array elements =>
          rw [TypeDescriptor.Accepts] at accepted
          rw [TypeDescriptor.canon, HasType, List.length_map]
          refine ⟨accepted.1, ?_⟩
          intro inner member
          rcases List.mem_map.mp member with ⟨original, originalMember, rfl⟩
          exact hasType_canon (accepted.2 original originalMember)
      | _ => exact absurd accepted (by simp [TypeDescriptor.Accepts])
  | .struct label members, value, accepted => by
      cases value with
      | struct values =>
          rw [TypeDescriptor.Accepts] at accepted
          rw [TypeDescriptor.canon, HasType]
          exact membersHaveTypes_canon accepted.2
      | _ => exact absurd accepted (by simp [TypeDescriptor.Accepts])

theorem membersHaveTypes_canon : ∀ {members : MemberList}
    {values : List (String × HostValue)}, members.Accepts values →
      MembersHaveTypes members (members.canon values)
  | .nil, _, _ => by
      rw [MemberList.canon, MembersHaveTypes]
  | .cons name type _ rest, values, accepted => by
      rw [MemberList.Accepts] at accepted
      rcases accepted with ⟨⟨value, found, fits⟩, others⟩
      rw [MemberList.canon, found, MembersHaveTypes]
      exact ⟨type.canon value, rest.canon values, rfl, hasType_canon fits,
        membersHaveTypes_canon others⟩
end

mutual
/-- No structure in the type repeats a member name. -/
def TypeDescriptor.Distinct : TypeDescriptor → Prop
  | .array element _ => element.Distinct
  | .struct _ members => members.Distinct
  | _ => True

def MemberList.Distinct : MemberList → Prop
  | .nil => True
  | .cons name type _ rest => rest.find? name = none ∧ type.Distinct ∧ rest.Distinct
end

theorem MemberList.find?_cons_isSome {name given : String} {type : TypeDescriptor}
    {attributes : MemberAttributes} {rest : MemberList} :
    ((cons name type attributes rest).find? given).isSome = true ↔
      name = given ∨ (rest.find? given).isSome = true := by
  rw [find?]
  split
  next same => simp [same]
  next different => simp [different]

theorem MembersHaveTypes.declared : ∀ {members : MemberList}
    {values : List (String × HostValue)}, MembersHaveTypes members values →
      ∀ given ∈ values, (members.find? given.1).isSome = true
  | .nil, values, typed => by
      rw [MembersHaveTypes] at typed
      subst typed
      intro given impossible
      cases impossible
  | .cons name type attributes rest, values, typed => by
      rw [MembersHaveTypes] at typed
      rcases typed with ⟨value, others, rfl, _, restTyped⟩
      intro given member
      rw [MemberList.find?_cons_isSome]
      cases member with
      | head => exact .inl rfl
      | tail _ member => exact .inr (restTyped.declared given member)

theorem MemberList.memberIn?_rest {name : String} {type : TypeDescriptor}
    {attributes : MemberAttributes} {rest : MemberList} {value : HostValue}
    {others given : List (String × HostValue)} (absent : rest.find? name = none)
    (agrees : ∀ other, ((cons name type attributes rest).find? other).isSome = true →
      HostValue.memberIn? other given = HostValue.memberIn? other ((name, value) :: others)) :
    ∀ other, (rest.find? other).isSome = true →
      HostValue.memberIn? other given = HostValue.memberIn? other others := by
  intro other declared
  have different : name ≠ other := by
    intro same
    rw [← same, absent] at declared
    cases declared
  rw [agrees other (find?_cons_isSome.mpr (.inr declared)), HostValue.memberIn?,
    if_neg different]

mutual
theorem HasType.accepts : ∀ {type : TypeDescriptor} {value : HostValue},
    type.Distinct → HasType type value → type.Accepts value
  | .scalar _, value, _, typed | .atomic _, value, _, typed | .vector _ _, value, _, typed
  | .matrix _ _ _, value, _, typed => by
      cases value <;> simp only [HasType, TypeDescriptor.Accepts] at typed ⊢ <;> exact typed
  | .array element length, value, distinct, typed => by
      rcases hasType_array.mp typed with ⟨elements, rfl, counted, all⟩
      rw [TypeDescriptor.Distinct] at distinct
      rw [TypeDescriptor.Accepts]
      exact ⟨counted, fun inner member => (all inner member).accepts distinct⟩
  | .struct label members, value, distinct, typed => by
      rcases hasType_struct.mp typed with ⟨values, rfl, all⟩
      rw [TypeDescriptor.Distinct] at distinct
      rw [TypeDescriptor.Accepts]
      exact ⟨all.declared, all.accepts distinct (fun _ _ => rfl)⟩

theorem MembersHaveTypes.accepts : ∀ {members : MemberList}
    {values given : List (String × HostValue)}, members.Distinct →
      MembersHaveTypes members values →
        (∀ name, (members.find? name).isSome = true →
          HostValue.memberIn? name given = HostValue.memberIn? name values) →
          members.Accepts given
  | .nil, _, _, _, _, _ => by
      rw [MemberList.Accepts]
      trivial
  | .cons name type attributes rest, values, given, distinct, typed, agrees => by
      rw [MemberList.Distinct] at distinct
      rw [MembersHaveTypes] at typed
      rcases typed with ⟨value, others, rfl, valueTyped, restTyped⟩
      rw [MemberList.Accepts]
      constructor
      · refine ⟨value, ?_, valueTyped.accepts distinct.2.1⟩
        rw [agrees name (MemberList.find?_cons_isSome.mpr (.inl rfl)), HostValue.memberIn?,
          if_pos rfl]
      · exact restTyped.accepts distinct.2.2 (MemberList.memberIn?_rest distinct.1 agrees)
end

/-! ## Round trips of accepted values -/

/-- The value of an encoding was accepted, and decoding gives it in canonical form. -/
theorem LaidOut.decode_encodeNew {type : TypeDescriptor} {layout : Layout} {size : Nat}
    {value : HostValue} {bytes : Bytes} (laid : LaidOut type layout)
    (sized : layout.size = some size) (encoded : encodeNew value type = .ok bytes) :
    type.Accepts value ∧ decode bytes type 0 = .ok (type.canon value) := by
  have computed := layout_eq_ok.mpr laid
  rcases encodeNew_eq computed encoded with ⟨patches, whole, rfl⟩
  refine ⟨laid.accepts whole, ?_⟩
  unfold decode
  rw [computed]
  apply laid.read_plan [] whole
  · apply laid.holds_apply whole
    apply Nat.le_of_eq
    rw [Nat.zero_add, Array.size_replicate, Layout.extent_of_size _ sized,
      encodedLength_of_size value sized]
  · intro unsized
    rw [sized] at unsized
    cases unsized

theorem LaidOut.encodeNew_ok {type : TypeDescriptor} {layout : Layout} {size : Nat}
    {value : HostValue} (laid : LaidOut type layout) (sized : layout.size = some size)
    (accepted : type.Accepts value) : ∃ bytes, encodeNew value type = .ok bytes := by
  have room : 0 + layout.extent (type.tailLength value) ≤ size := by
    apply Nat.le_of_eq
    rw [Nat.zero_add, Layout.extent_of_size _ sized]
  rcases laid.plan_whole [] accepted room with ⟨patches, whole⟩
  refine ⟨Bytes.apply (Array.replicate size 0) patches, ?_⟩
  simp [encodeNew, layout_eq_ok.mpr laid, encodeWithLayout, encodedLength_of_size value sized,
    whole]

end ShaderKit
