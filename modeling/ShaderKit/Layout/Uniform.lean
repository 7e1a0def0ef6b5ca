import ShaderKit.Layout

/-!
# Layout rules of the uniform address space

Beyond a valid layout, uniform data asks that strides of arrays and offsets of structure
and array members are multiples of sixteen, and that nothing follows a structure member
within its size rounded up to sixteen.
-/

namespace ShaderKit

def uniformAlignment : Nat := 16

def TypeDescriptor.isAggregate : TypeDescriptor → Bool
  | .array .. | .struct .. => true
  | _ => false

def MemberLayouts.firstOffset : MemberLayouts → Option (String × Nat)
  | .nil => none
  | .cons name offset _ _ _ => some (name, offset)

/-- A member after a structure member starts past the structure's size rounded up. -/
def checkDistance (path : LayoutPath) (name : String) (type : TypeDescriptor)
    (layout : Layout) (offset : Nat) (next : Option (String × Nat)) :
    Except LayoutError Unit :=
  match type.isStruct, next with
  | true, some (nextName, nextOffset) =>
      let distance := roundUp uniformAlignment (layout.size.getD 0)
      if nextOffset - offset < distance then
        .error (.uniformIncompatible (path ++ [.member nextName]) (.tooClose distance name))
      else .ok ()
  | _, _ => .ok ()

mutual
def TypeDescriptor.checkUniformAt (path : LayoutPath) :
    TypeDescriptor → Layout → Except LayoutError Unit
  | .scalar .bool, _ | .vector .bool _, _ => .error (.uniformIncompatible path .bool)
  | .atomic _, _ => .error (.uniformIncompatible path .atomic)
  | .array element length, .array _ _ stride inner =>
      if length = .runtime then .error (.uniformIncompatible path .runtimeArray)
      else if stride % uniformAlignment ≠ 0 then
        .error (.uniformIncompatible path (.stride stride))
      else element.checkUniformAt (path ++ [.element]) inner
  | .struct _ members, .struct _ _ layouts => members.checkUniformFrom path layouts
  | _, _ => .ok ()

def MemberList.checkUniformFrom (path : LayoutPath) :
    MemberList → MemberLayouts → Except LayoutError Unit
  | .cons name type _ rest, .cons _ offset _ layout layouts => do
      let here := path ++ [.member name]
      if type.isAggregate && offset % uniformAlignment != 0 then
        .error (.uniformIncompatible here (.memberOffset offset))
      else
        checkDistance path name type layout offset layouts.firstOffset
        type.checkUniformAt here layout
        rest.checkUniformFrom path layouts
  | _, _ => .ok ()
end

def TypeDescriptor.checkUniform (type : TypeDescriptor) : Except LayoutError Unit := do
  type.checkUniformAt [] (← type.layout)

end ShaderKit
