import ShaderKit.Codec.Encode

/-!
# Values of a type

A value of a structure type has exactly the declared members, in declaration order.
-/

namespace ShaderKit

def ComponentsOf (kind : ScalarKind) (count : Nat) (components : Components) : Prop :=
  components.length = count ∧ ∀ component ∈ components, component.kind = kind

mutual
/-- A value that has a type. -/
def HasType : TypeDescriptor → HostValue → Prop
  | .scalar kind, .scalar value | .atomic kind, .scalar value => value.kind = kind
  | .vector kind width, .vector components => ComponentsOf kind width.count components
  | .matrix kind columns rows, .matrix values =>
      values.length = columns.count ∧
        ∀ column ∈ values, ComponentsOf kind rows.count column
  | .array element length, .array elements =>
      length.accepts elements.length = true ∧ ∀ value ∈ elements, HasType element value
  | .struct _ members, .struct values => MembersHaveTypes members values
  | _, _ => False

def MembersHaveTypes : MemberList → List (String × HostValue) → Prop
  | .nil, values => values = []
  | .cons name type _ rest, values =>
      ∃ value others, values = (name, value) :: others ∧ HasType type value ∧
        MembersHaveTypes rest others
end

/-! ## The shapes of values -/

section

variable {value : HostValue}

theorem hasType_scalar {kind : ScalarKind} :
    HasType (.scalar kind) value ↔ ∃ scalar, value = .scalar scalar ∧ scalar.kind = kind := by
  cases value <;> simp [HasType]

theorem hasType_atomic {kind : ScalarKind} :
    HasType (.atomic kind) value ↔ ∃ scalar, value = .scalar scalar ∧ scalar.kind = kind := by
  cases value <;> simp [HasType]

theorem hasType_vector {kind : ScalarKind} {width : VectorWidth} :
    HasType (.vector kind width) value ↔
      ∃ components, value = .vector components ∧ ComponentsOf kind width.count components := by
  cases value <;> simp [HasType]

theorem hasType_matrix {kind : ScalarKind} {columns rows : VectorWidth} :
    HasType (.matrix kind columns rows) value ↔
      ∃ values, value = .matrix values ∧ values.length = columns.count ∧
        ∀ column ∈ values, ComponentsOf kind rows.count column := by
  cases value <;> simp [HasType]

theorem hasType_array {element : TypeDescriptor} {length : ArrayLength} :
    HasType (.array element length) value ↔
      ∃ elements, value = .array elements ∧ length.accepts elements.length = true ∧
        ∀ inner ∈ elements, HasType element inner := by
  cases value <;> simp [HasType]

theorem hasType_struct {label : Option String} {members : MemberList} :
    HasType (.struct label members) value ↔
      ∃ values, value = .struct values ∧ MembersHaveTypes members values := by
  cases value <;> simp [HasType]

end

/-! ## Zero values -/

theorem componentsOf_replicate {kind : ScalarKind} {component : Scalar} (count : Nat)
    (same : component.kind = kind) : ComponentsOf kind count (List.replicate count component) := by
  constructor
  · exact List.length_replicate
  · intro other member
    rw [List.eq_of_mem_replicate member]
    exact same

mutual
theorem hasType_zero : ∀ type : TypeDescriptor, HasType type type.zero
  | .scalar kind | .atomic kind => by
      rw [TypeDescriptor.zero, HasType]
      exact Scalar.kind_zero kind
  | .vector kind width => by
      rw [TypeDescriptor.zero, HasType]
      exact componentsOf_replicate _ (Scalar.kind_zero kind)
  | .matrix kind columns rows => by
      rw [TypeDescriptor.zero, HasType]
      constructor
      · exact List.length_replicate
      · intro column member
        rw [List.eq_of_mem_replicate member]
        exact componentsOf_replicate _ (Scalar.kind_zero kind)
  | .array element (.fixed count) => by
      rw [TypeDescriptor.zero, HasType]
      constructor
      · rw [List.length_replicate]
        exact beq_self_eq_true count
      · intro value member
        rw [List.eq_of_mem_replicate member]
        exact hasType_zero element
  | .array element .runtime => by
      rw [TypeDescriptor.zero, HasType]
      exact ⟨rfl, fun _ impossible => nomatch impossible⟩
  | .struct _ members => by
      rw [TypeDescriptor.zero, HasType]
      exact membersHaveTypes_zeros members

theorem membersHaveTypes_zeros : ∀ members : MemberList,
    MembersHaveTypes members members.zeros
  | .nil => by
      rw [MemberList.zeros, MembersHaveTypes]
  | .cons name type _ rest => by
      rw [MemberList.zeros, MembersHaveTypes]
      exact ⟨_, _, rfl, hasType_zero type, membersHaveTypes_zeros rest⟩
end

end ShaderKit
