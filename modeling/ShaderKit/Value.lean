import ShaderKit.Scalar
import ShaderKit.Descriptor

/-!
# Host values

Instances of descriptors on the host. A structure value lists its members by name in any
order; where a name is repeated, the first member of that name counts.
-/

namespace ShaderKit

abbrev Components := List Scalar

/-- A value on the host. A matrix is a list of columns. -/
inductive HostValue where
  | scalar (value : Scalar)
  | vector (components : Components)
  | matrix (columns : List Components)
  | array (elements : List HostValue)
  | struct (members : List (String × HostValue))
deriving Repr

namespace HostValue

def memberIn? (name : String) : List (String × HostValue) → Option HostValue
  | [] => none
  | (name', value) :: rest => if name' = name then some value else memberIn? name rest

/-- Replace the first member of a name; without one, nothing changes. -/
def replaceMember (name : String) (new : HostValue) :
    List (String × HostValue) → List (String × HostValue)
  | [] => []
  | (name', value) :: rest =>
      if name' = name then (name', new) :: rest
      else (name', value) :: replaceMember name new rest

def member? (value : HostValue) (name : String) : Option HostValue :=
  match value with
  | .struct members => memberIn? name members
  | _ => none

def setMember (value : HostValue) (name : String) (new : HostValue) : HostValue :=
  match value with
  | .struct members => .struct (replaceMember name new members)
  | other => other

def scalar? : HostValue → Option Scalar
  | .scalar value => some value
  | _ => none

def shapeName : HostValue → String
  | .scalar _ => "scalar"
  | .vector _ => "vector"
  | .matrix _ => "matrix"
  | .array _ => "array"
  | .struct _ => "struct"

def describe : HostValue → String
  | .scalar value => value.kind.name
  | .vector components => s!"vector of {components.length} components"
  | .matrix columns => s!"matrix of {columns.length} columns"
  | .array elements => s!"array of {elements.length} elements"
  | .struct _ => "struct"

mutual
def isFinite : HostValue → Bool
  | .scalar value => value.isFinite
  | .vector components => components.all Scalar.isFinite
  | .matrix columns => columns.all fun column => column.all Scalar.isFinite
  | .array elements => allFinite elements
  | .struct members => membersFinite members

def allFinite : List HostValue → Bool
  | [] => true
  | value :: rest => value.isFinite && allFinite rest

def membersFinite : List (String × HostValue) → Bool
  | [] => true
  | (_, value) :: rest => value.isFinite && membersFinite rest
end

end HostValue

mutual
/-- The value whose bytes are all zero. Runtime-sized arrays are empty. -/
def TypeDescriptor.zero : TypeDescriptor → HostValue
  | .scalar kind | .atomic kind => .scalar (.zero kind)
  | .vector kind width => .vector (List.replicate width.count (.zero kind))
  | .matrix kind columns rows =>
      .matrix (List.replicate columns.count (List.replicate rows.count (.zero kind)))
  | .array element (.fixed count) => .array (List.replicate count element.zero)
  | .array _ .runtime => .array []
  | .struct _ members => .struct members.zeros

def MemberList.zeros : MemberList → List (String × HostValue)
  | .nil => []
  | .cons name type _ rest => (name, type.zero) :: rest.zeros
end

end ShaderKit
