import ShaderKit.Proofs.Codec.Canonical
import ShaderKit.Proofs.Codec.Storage

/-!
# Plans that do not fail

What a plan without a failure says about the value, for each shape of type.
-/

namespace ShaderKit

/-! ## Combining plans -/

namespace Plan

theorem andThen_eq {first second : Plan} {patches : List Patch}
    (whole : first.andThen second = ⟨patches, none⟩) :
    ∃ before after, first = ⟨before, none⟩ ∧ second = ⟨after, none⟩ ∧
      patches = before ++ after := by
  rcases first with ⟨before, failure⟩
  rcases second with ⟨after, laterFailure⟩
  cases failure with
  | some error => cases whole
  | none =>
      cases whole
      exact ⟨before, after, rfl, rfl, rfl⟩

theorem kind_of_scalar {room : Room} {offset : Nat} {kind : ScalarKind} {path : ValuePath}
    {value : Scalar} {patches : List Patch}
    (whole : scalar room kind path offset value = ⟨patches, none⟩) : value.kind = kind := by
  unfold scalar at whole
  split at whole
  next => cases whole
  next same => exact Decidable.of_not_not same

theorem scalar_eq {available offset : Nat} {kind : ScalarKind} {path : ValuePath}
    {value : Scalar} {patches : List Patch}
    (whole : scalar available kind path offset value = ⟨patches, none⟩) :
    value.kind = kind ∧ offset + kind.size ≤ available ∧ patches = [⟨offset, value⟩] := by
  refine ⟨kind_of_scalar whole, ?_⟩
  unfold scalar at whole
  split at whole
  · cases whole
  · split at whole
    · cases whole
    next fits =>
      cases whole
      exact ⟨Nat.le_of_not_lt fits, rfl⟩

section

variable {α : Type} {plan : Nat → α → Plan} {start : Nat} {items : List α}
  {patches : List Patch}

theorem readEach_each {β : Type} {buffer : Bytes} (read : Nat → Except DecodeError β)
    (result : α → β) (whole : each plan start items = ⟨patches, none⟩)
    (held : ∀ patch ∈ patches, buffer.Holds patch)
    (reads : ∀ index item patches, item ∈ items → plan index item = ⟨patches, none⟩ →
      (∀ patch ∈ patches, buffer.Holds patch) → read index = .ok (result item)) :
    readEach read items.length start = .ok (items.map result) := by
  induction items generalizing start patches with
  | nil => rfl
  | cons item rest induction =>
      rcases andThen_eq whole with ⟨before, after, first, others, rfl⟩
      have head := reads start item before List.mem_cons_self first
        (fun patch member => held patch (List.mem_append_left _ member))
      have tail := induction others
        (fun patch member => held patch (List.mem_append_right _ member))
        (fun index item patches member => reads index item patches (List.mem_cons_of_mem _ member))
      rw [List.length_cons, readEach, head, ok_bind, tail, ok_bind, List.map_cons]

end

section

variable {available offset : Nat} {kind : ScalarKind} {path : ValuePath} {values : Components}
  {patches : List Patch}

theorem readComponents_components {buffer : Bytes} (readPath : ValuePath)
    (whole : components available kind path offset values = ⟨patches, none⟩)
    (held : ∀ patch ∈ patches, buffer.Holds patch) :
    buffer.readComponents readPath kind values.length offset = .ok values := by
  have reads := readEach_each
    (fun index => buffer.readScalar readPath kind (offset + index * kind.size)) id whole held
    (fun index item patches _ planned heldItem => by
      rcases scalar_eq planned with ⟨rfl, _, rfl⟩
      exact (heldItem _ List.mem_cons_self).readScalar readPath)
  rw [List.map_id] at reads
  exact reads

end

end Plan

/-! ## Plans of a type -/

section

variable {room : Room} {offset : Nat} {path : ValuePath} {value : HostValue}
  {patches : List Patch}

theorem TypeDescriptor.plan_scalar_eq {kind : ScalarKind} {layout : Layout}
    (whole : (scalar kind).plan room path offset layout value = ⟨patches, none⟩) :
    ∃ scalar, value = .scalar scalar ∧
      Plan.scalar room kind path offset scalar = ⟨patches, none⟩ := by
  cases value with
  | scalar scalar => exact ⟨scalar, rfl, whole⟩
  | _ => cases whole

theorem TypeDescriptor.plan_atomic_eq {kind : ScalarKind} {layout : Layout}
    (whole : (atomic kind).plan room path offset layout value = ⟨patches, none⟩) :
    ∃ scalar, value = .scalar scalar ∧
      Plan.scalar room kind path offset scalar = ⟨patches, none⟩ := by
  cases value with
  | scalar scalar => exact ⟨scalar, rfl, whole⟩
  | _ => cases whole

theorem TypeDescriptor.plan_vector_eq {kind : ScalarKind} {width : VectorWidth}
    {layout : Layout}
    (whole : (vector kind width).plan room path offset layout value = ⟨patches, none⟩) :
    ∃ components, value = .vector components ∧ components.length = width.count ∧
      Plan.components room kind path offset components = ⟨patches, none⟩ := by
  cases value with
  | vector components =>
      simp only [plan] at whole
      split at whole
      next complete => exact ⟨components, rfl, complete, whole⟩
      next => cases whole
  | _ => cases whole

theorem TypeDescriptor.plan_matrix_eq {kind : ScalarKind} {columns rows : VectorWidth}
    {size alignment stride : Nat}
    (whole : (matrix kind columns rows).plan room path offset
      (.matrix size alignment stride) value = ⟨patches, none⟩) :
    ∃ values, value = .matrix values ∧ values.length = columns.count ∧
      (∀ column ∈ values, column.length = rows.count) ∧
      Plan.each (fun index column =>
        Plan.components room kind (path ++ [.index index]) (offset + index * stride)
          column) 0 values = ⟨patches, none⟩ := by
  cases value with
  | matrix values =>
      simp only [plan] at whole
      split at whole
      next complete =>
        refine ⟨values, rfl, complete.1, ?_, whole⟩
        intro column member
        exact eq_of_beq (List.all_eq_true.mp complete.2 column member)
      next => cases whole
  | _ => cases whole

theorem TypeDescriptor.plan_array_eq {element : TypeDescriptor} {length : ArrayLength}
    {size : Option Nat} {alignment stride : Nat} {inner : Layout}
    (whole : (array element length).plan room path offset
      (.array size alignment stride inner) value = ⟨patches, none⟩) :
    ∃ elements, value = .array elements ∧ length.accepts elements.length = true ∧
      Plan.each (fun index value =>
        element.plan room (path ++ [.index index]) (offset + index * stride) inner
          value) 0 elements = ⟨patches, none⟩ := by
  cases value with
  | array elements =>
      simp only [plan] at whole
      split at whole
      next complete => exact ⟨elements, rfl, complete, whole⟩
      next => cases whole
  | _ => cases whole

theorem TypeDescriptor.plan_struct_eq {label : Option String} {members : MemberList}
    {size : Option Nat} {alignment : Nat} {layouts : MemberLayouts}
    (whole : (struct label members).plan room path offset
      (.struct size alignment layouts) value = ⟨patches, none⟩) :
    ∃ values, value = .struct values ∧
      (∀ given ∈ values, (members.find? given.1).isSome = true) ∧
      members.planEach room path offset layouts values = ⟨patches, none⟩ := by
  cases value with
  | struct values =>
      simp only [plan] at whole
      split at whole
      · cases whole
      next known =>
        refine ⟨values, rfl, ?_, whole⟩
        intro given member
        have declared := List.find?_eq_none.mp known given member
        rw [Option.isNone_iff_eq_none] at declared
        exact Option.isSome_iff_ne_none.mpr declared
  | _ => cases whole

theorem MemberList.planEach_cons_eq {name name' : String} {type : TypeDescriptor}
    {attributes : MemberAttributes} {rest : MemberList} {memberOffset : Nat}
    {span : Option Nat} {layout : Layout} {layouts : MemberLayouts}
    {values : List (String × HostValue)}
    (whole : (cons name type attributes rest).planEach room path offset
      (.cons name' memberOffset span layout layouts) values = ⟨patches, none⟩) :
    ∃ value before after, HostValue.memberIn? name values = some value ∧
      type.plan room (path ++ [.member name]) (offset + memberOffset) layout value =
        ⟨before, none⟩ ∧
      rest.planEach room path offset layouts values = ⟨after, none⟩ ∧
      patches = before ++ after := by
  rw [planEach] at whole
  cases found : HostValue.memberIn? name values with
  | none =>
      rw [found] at whole
      cases whole
  | some value =>
      rw [found] at whole
      rcases Plan.andThen_eq whole with ⟨before, after, first, others, joined⟩
      exact ⟨value, before, after, rfl, first, others, joined⟩

theorem MemberList.planEach_cons_of {name name' : String} {type : TypeDescriptor}
    {attributes : MemberAttributes} {rest : MemberList} {memberOffset : Nat}
    {span : Option Nat} {layout : Layout} {layouts : MemberLayouts}
    {values : List (String × HostValue)} {before after : List Patch}
    (found : HostValue.memberIn? name values = some value)
    (first : type.plan room (path ++ [.member name]) (offset + memberOffset) layout
      value = ⟨before, none⟩)
    (others : rest.planEach room path offset layouts values = ⟨after, none⟩) :
    (cons name type attributes rest).planEach room path offset
      (.cons name' memberOffset span layout layouts) values = ⟨before ++ after, none⟩ := by
  simp only [planEach, found, first, others, Plan.andThen]

end

end ShaderKit
