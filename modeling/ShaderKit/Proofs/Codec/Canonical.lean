import ShaderKit.Codec.Encode

/-!
# Values in canonical form
-/

namespace ShaderKit

mutual
/-- The value with the members of every structure in declaration order. Where a name is
repeated, the first member of that name is taken. -/
def TypeDescriptor.canon : TypeDescriptor → HostValue → HostValue
  | .array element _, value =>
      match value with
      | .array elements => .array (elements.map element.canon)
      | other => other
  | .struct _ members, value =>
      match value with
      | .struct values => .struct (members.canon values)
      | other => other
  | _, value => value

def MemberList.canon : MemberList → List (String × HostValue) → List (String × HostValue)
  | .nil, _ => []
  | .cons name type _ rest, values =>
      match HostValue.memberIn? name values with
      | some value => (name, type.canon value) :: rest.canon values
      | none => rest.canon values
end

mutual
/-- The number of elements that a value gives to the runtime-sized array that its type is,
or ends in. -/
def TypeDescriptor.tailLength : TypeDescriptor → HostValue → Nat
  | .array _ .runtime, .array elements => elements.length
  | .struct _ members, .struct values => members.tailLength values
  | _, _ => 0

def MemberList.tailLength : MemberList → List (String × HostValue) → Nat
  | .nil, _ => 0
  | .cons name type _ .nil, values =>
      match HostValue.memberIn? name values with
      | some value => type.tailLength value
      | none => 0
  | .cons _ _ _ rest, values => rest.tailLength values
end

theorem MemberList.tailLength_cons {name : String} {type : TypeDescriptor}
    {attributes : MemberAttributes} {rest : MemberList} {values : List (String × HostValue)}
    (more : rest ≠ .nil) :
    (cons name type attributes rest).tailLength values = rest.tailLength values := by
  cases rest with
  | nil => exact absurd rfl more
  | cons => simp [tailLength]

theorem MemberList.tailLength_last {name : String} {type : TypeDescriptor}
    {attributes : MemberAttributes} {values : List (String × HostValue)} {value : HostValue}
    (found : HostValue.memberIn? name values = some value) :
    (cons name type attributes .nil).tailLength values = type.tailLength value := by
  rw [tailLength, found]

end ShaderKit
