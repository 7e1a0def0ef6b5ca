import ShaderKit.Scalar.Kind

/-!
# Type descriptors

The shape of a piece of GPU data, independent of any instance. Two descriptors with the
same shape are the same type everywhere, so equality is structural.
-/

namespace ShaderKit

/-- The number of elements of an array. A runtime-sized array takes its size from the
buffer that is bound to it. -/
inductive ArrayLength where
  | fixed (count : Nat)
  | runtime
deriving DecidableEq, Repr

def ArrayLength.text : ArrayLength → String
  | .fixed count => s!"Fixed({count})"
  | .runtime => "Runtime"

inductive Builtin where
  | vertexIndex
  | instanceIndex
  | position
  | frontFacing
  | fragDepth
  | sampleIndex
  | sampleMask
  | localInvocationId
  | localInvocationIndex
  | globalInvocationId
  | workgroupId
  | numWorkgroups
deriving DecidableEq, Repr

/-- How a structure member takes part in entry point input and output. -/
inductive IoAttribute where
  | location (index : Nat)
  | builtin (builtin : Builtin)
deriving DecidableEq, Repr

/-- What a structure asks for a member beyond its type. Alignment and size are numbers of
bytes that fit a word. -/
structure MemberAttributes where
  align : Option UInt32 := none
  size : Option UInt32 := none
  io : Option IoAttribute := none
deriving DecidableEq, Repr

namespace MemberAttributes

def alignBytes? (attributes : MemberAttributes) : Option Nat :=
  attributes.align.map UInt32.toNat

def sizeBytes? (attributes : MemberAttributes) : Option Nat :=
  attributes.size.map UInt32.toNat

end MemberAttributes

mutual
/-- A type of GPU data. A matrix has `columns` column vectors of `rows` components. -/
inductive TypeDescriptor where
  | scalar (kind : ScalarKind)
  | vector (kind : ScalarKind) (width : VectorWidth)
  | matrix (kind : ScalarKind) (columns rows : VectorWidth)
  | atomic (kind : ScalarKind)
  | array (element : TypeDescriptor) (length : ArrayLength)
  | struct (label : Option String) (members : MemberList)

inductive MemberList where
  | nil
  | cons (name : String) (type : TypeDescriptor) (attributes : MemberAttributes)
      (rest : MemberList)
end

deriving instance DecidableEq for TypeDescriptor
deriving instance DecidableEq for MemberList
deriving instance Repr for TypeDescriptor
deriving instance Repr for MemberList

structure Member where
  name : String
  type : TypeDescriptor
  attributes : MemberAttributes := {}
deriving DecidableEq, Repr

namespace MemberList

def ofList : List Member → MemberList
  | [] => .nil
  | ⟨name, type, attributes⟩ :: rest => .cons name type attributes (ofList rest)

def toList : MemberList → List Member
  | .nil => []
  | .cons name type attributes rest => ⟨name, type, attributes⟩ :: rest.toList

@[simp] theorem toList_ofList (members : List Member) : (ofList members).toList = members := by
  induction members with
  | nil => rfl
  | cons member rest ih => simp [ofList, toList, ih]

@[simp] theorem ofList_toList : (members : MemberList) → ofList members.toList = members
  | .nil => rfl
  | .cons _ _ _ rest => by simp [ofList, toList, ofList_toList rest]

def isEmpty : MemberList → Bool
  | .nil => true
  | .cons .. => false

def length (members : MemberList) : Nat :=
  members.toList.length

def find? (members : MemberList) (name : String) : Option (Nat × Member) :=
  match members with
  | .nil => none
  | .cons name' type attributes rest =>
      if name' = name then some (0, ⟨name', type, attributes⟩)
      else (rest.find? name).map fun (index, member) => (index + 1, member)

end MemberList

/-! ## Names of common types -/

namespace TypeDescriptor

abbrev bool : TypeDescriptor := .scalar .bool
abbrev f16 : TypeDescriptor := .scalar .f16
abbrev f32 : TypeDescriptor := .scalar .f32
abbrev i32 : TypeDescriptor := .scalar .i32
abbrev u32 : TypeDescriptor := .scalar .u32

end TypeDescriptor

def Builtin.type : Builtin → TypeDescriptor
  | .position => .vector .f32 .four
  | .frontFacing => .bool
  | .fragDepth => .f32
  | .localInvocationId | .globalInvocationId | .workgroupId | .numWorkgroups =>
      .vector .u32 .three
  | _ => .u32

def Builtin.name : Builtin → String
  | .vertexIndex => "vertex_index"
  | .instanceIndex => "instance_index"
  | .position => "position"
  | .frontFacing => "front_facing"
  | .fragDepth => "frag_depth"
  | .sampleIndex => "sample_index"
  | .sampleMask => "sample_mask"
  | .localInvocationId => "local_invocation_id"
  | .localInvocationIndex => "local_invocation_index"
  | .globalInvocationId => "global_invocation_id"
  | .workgroupId => "workgroup_id"
  | .numWorkgroups => "num_workgroups"

def Builtin.all : List Builtin :=
  [.vertexIndex, .instanceIndex, .position, .frontFacing, .fragDepth, .sampleIndex,
    .sampleMask, .localInvocationId, .localInvocationIndex, .globalInvocationId,
    .workgroupId, .numWorkgroups]

def Builtin.ofName? (text : String) : Option Builtin :=
  all.find? fun builtin => builtin.name == text

@[simp] theorem Builtin.ofName?_name (builtin : Builtin) :
    ofName? builtin.name = some builtin := by
  cases builtin <;> decide

def IoAttribute.text : IoAttribute → String
  | .location index => s!"location {index}"
  | .builtin given => "builtin " ++ given.name

/-! ## Properties -/

mutual
def TypeDescriptor.isSized : TypeDescriptor → Bool
  | .array _ length => length != .runtime
  | .struct _ members => members.allSized
  | _ => true

def MemberList.allSized : MemberList → Bool
  | .nil => true
  | .cons _ type _ rest => type.isSized && rest.allSized
end

mutual
/-- Whether a value of the type can be written as a constructor expression. -/
def TypeDescriptor.isConstructible : TypeDescriptor → Bool
  | .atomic _ => false
  | .array element length => length != .runtime && element.isConstructible
  | .struct _ members => members.allConstructible
  | _ => true

def MemberList.allConstructible : MemberList → Bool
  | .nil => true
  | .cons _ type _ rest => type.isConstructible && rest.allConstructible
end

mutual
/-- The type itself and every type nested in it, outer types first. -/
def TypeDescriptor.nested : TypeDescriptor → List TypeDescriptor
  | .array element length => .array element length :: element.nested
  | .struct label members => .struct label members :: members.nested
  | other => [other]

def MemberList.nested : MemberList → List TypeDescriptor
  | .nil => []
  | .cons _ type _ rest => type.nested ++ rest.nested
end

namespace TypeDescriptor

/-- Whether the type is an array whose length the bound buffer decides. -/
def isRuntimeArray : TypeDescriptor → Bool
  | .array _ .runtime => true
  | _ => false

def isStruct : TypeDescriptor → Bool
  | .struct .. => true
  | _ => false

def isMatrix : TypeDescriptor → Bool
  | .matrix .. => true
  | _ => false

def isAtomic : TypeDescriptor → Bool
  | .atomic _ => true
  | _ => false

def scalarKind? : TypeDescriptor → Option ScalarKind
  | .scalar kind | .vector kind _ | .matrix kind _ _ | .atomic kind => some kind
  | _ => none

def length? : TypeDescriptor → Option ArrayLength
  | .array _ length => some length
  | _ => none

def members? : TypeDescriptor → Option MemberList
  | .struct _ members => some members
  | _ => none

def members : TypeDescriptor → MemberList
  | .struct _ members => members
  | _ => .nil

def usesKind (type : TypeDescriptor) (kind : ScalarKind) : Bool :=
  type.nested.any fun inner => inner.scalarKind? == some kind

def usesAtomic (type : TypeDescriptor) : Bool :=
  type.nested.any isAtomic

def isValueOf (test : ScalarKind → Bool) : TypeDescriptor → Bool
  | .scalar kind | .vector kind _ => test kind
  | _ => false

end TypeDescriptor

/-! ## Spelling -/

/-- The component type at the end of a vector or matrix spelling: an alias letter, or the
kind in angle brackets where no alias exists. -/
def ScalarKind.componentText (kind : ScalarKind) : String :=
  match kind.aliasSuffix with
  | some suffix => suffix.toString
  | none => "<" ++ kind.name ++ ">"

mutual
/-- The spelling of a type in messages. A structure is spelled by its label, or by its
members if it has none. -/
def TypeDescriptor.text : TypeDescriptor → String
  | .scalar kind => kind.name
  | .vector kind width => "vec" ++ toString width.count ++ kind.componentText
  | .matrix kind columns rows =>
      "mat" ++ toString columns.count ++ "x" ++ toString rows.count ++ kind.componentText
  | .atomic kind => "atomic<" ++ kind.name ++ ">"
  | .array element (.fixed count) =>
      "array<" ++ element.text ++ ", " ++ toString count ++ ">"
  | .array element .runtime => "array<" ++ element.text ++ ">"
  | .struct (some label) _ => label
  | .struct none members => "struct \x7b " ++ members.text ++ " \x7d"

def MemberList.text : MemberList → String
  | .nil => ""
  | .cons name type _ .nil => name ++ ": " ++ type.text
  | .cons name type _ rest => name ++ ": " ++ type.text ++ ", " ++ rest.text
end

instance : ToString ScalarKind := ⟨ScalarKind.name⟩
instance : ToString TypeDescriptor := ⟨TypeDescriptor.text⟩

example : (TypeDescriptor.vector .bool .three).text = "vec3<bool>" := by decide

end ShaderKit
