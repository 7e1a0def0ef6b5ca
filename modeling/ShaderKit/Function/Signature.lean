import ShaderKit.Descriptor.Checked

/-!
# Function signatures

The name, parameters, result and pipeline stage of a shader function. The input and
output of an entry point are structures whose members all take part in the exchange with
the pipeline; members without an attribute get a location of their own.
-/

namespace ShaderKit

/-- The identity of a shader function. Two functions with equal bodies are still two
functions. -/
structure FunctionId where
  number : Nat
deriving DecidableEq, Repr

inductive EntryStage where
  | vertex
  | fragment
  | compute (x y z : Nat)
deriving DecidableEq, Repr

def EntryStage.attribute : EntryStage → String
  | .vertex => "@vertex"
  | .fragment => "@fragment"
  | .compute x y z => s!"@compute @workgroup_size({x}, {y}, {z})"

structure Parameter where
  name : String
  type : TypeDescriptor
deriving DecidableEq, Repr

structure Signature where
  name : String
  parameters : List Parameter
  result : Option TypeDescriptor
  stage : Option EntryStage
deriving DecidableEq, Repr

/-! ## Entry point input and output -/

/-- The side of a stage on which a structure stands. -/
inductive IoRole where
  | vertexInput
  | vertexOutput
  | fragmentInput
  | fragmentOutput
  | computeInput
deriving DecidableEq, Repr

def IoRole.offers : IoRole → Builtin → Bool
  | .vertexInput, .vertexIndex | .vertexInput, .instanceIndex => true
  | .vertexOutput, .position => true
  | .fragmentInput, .position | .fragmentInput, .frontFacing
  | .fragmentInput, .sampleIndex | .fragmentInput, .sampleMask => true
  | .fragmentOutput, .fragDepth | .fragmentOutput, .sampleMask => true
  | .computeInput, .localInvocationId | .computeInput, .localInvocationIndex
  | .computeInput, .globalInvocationId | .computeInput, .workgroupId
  | .computeInput, .numWorkgroups => true
  | _, _ => false

def Member.location? (member : Member) : Option Nat :=
  match member.attributes.io with
  | some (.location index) => some index
  | _ => none

/-- The least location from `next` on that is not used. Among as many candidates as there
are used locations and one more, some candidate is free. -/
def freeLocation (used : List Nat) : (tries : Nat) → (next : Nat) → Nat
  | 0, next => next
  | tries + 1, next => if used.contains next then freeLocation used tries (next + 1) else next

/-- Check that a member may stand in a role. -/
def IoRole.checkMember (role : IoRole) (member : Member) : Except SchemaError Unit :=
  match member.attributes.io with
  | some (.builtin builtin) =>
      if role.offers builtin then .ok ()
      else .error (.invalidEntryIo (.builtinUnavailable builtin member.name))
  | _ =>
      if role = .computeInput then
        .error (.invalidEntryIo (.computeNeedsBuiltin member.name))
      else if !member.type.isValueOf ScalarKind.isNumeric then
        .error (.invalidEntryIo (.notNumeric member.name member.type))
      else .ok ()

def Member.placeAt (member : Member) (location : Nat) : Member :=
  { member with attributes := { member.attributes with io := some (.location location) } }

/-- Check members in declaration order and fill in missing locations; `used` holds the
locations that are taken, and no location below `next` is free. -/
def IoRole.assign (role : IoRole) (used : List Nat) (next : Nat) :
    List Member → Except SchemaError (List Member)
  | [] => .ok []
  | member :: rest => do
      role.checkMember member
      if member.attributes.io.isSome then
        let others ← role.assign used next rest
        .ok (member :: others)
      else
        let location := freeLocation used (used.length + 1) next
        let others ← role.assign (location :: used) location rest
        .ok (member.placeAt location :: others)

def hasPosition (members : List Member) : Bool :=
  members.any fun member => member.attributes.io == some (.builtin .position)

/-- The type as it stands in a role, with every location filled in. A fragment output may
also be one numeric value. -/
def IoRole.prepare (role : IoRole) (type : TypeDescriptor) :
    Except SchemaError TypeDescriptor :=
  match type with
  | .struct label members => do
      let declared := members.toList
      let assigned ← role.assign (declared.filterMap Member.location?) 0 declared
      if role = .vertexOutput ∧ !hasPosition declared then
        .error (.invalidEntryIo .missingPosition)
      else TypeDescriptor.structOf label assigned
  | other =>
      if role = .fragmentOutput ∧ other.isValueOf ScalarKind.isNumeric then .ok other
      else .error (.invalidEntryIo (.notStruct other))

/-! ## Building signatures -/

namespace Signature

/-- Check parameters in order: names are identifiers, no name comes twice, and types have
a size. -/
def checkParameters (seen : List String) : List Parameter → Except SchemaError Unit
  | [] => .ok ()
  | parameter :: rest =>
      if !Identifier.isValid parameter.name then
        .error (.invalidIdentifier parameter.name)
      else if seen.contains parameter.name then .error (.duplicateField parameter.name)
      else if !parameter.type.isSized then .error (.nestedRuntimeArray parameter.type)
      else checkParameters (parameter.name :: seen) rest

def checkResult : Option TypeDescriptor → Except SchemaError Unit
  | none => .ok ()
  | some type =>
      if type.isConstructible then .ok () else .error (.nestedRuntimeArray type)

def plain (name : String) (parameters : List Parameter) (result : Option TypeDescriptor) :
    Except SchemaError Signature := do
  checkParameters [] parameters
  checkResult result
  .ok ⟨name, parameters, result, none⟩

def inputParameters (role : IoRole) :
    Option TypeDescriptor → Except SchemaError (List Parameter)
  | none => .ok []
  | some type => do
      let prepared ← role.prepare type
      .ok [⟨"input", prepared⟩]

def outputResult (role : IoRole) :
    Option TypeDescriptor → Except SchemaError (Option TypeDescriptor)
  | none => .ok none
  | some type => do
      let prepared ← role.prepare type
      .ok (some prepared)

def entry (name : String) (input output : Option TypeDescriptor) (stage : EntryStage)
    (inputRole outputRole : IoRole) : Except SchemaError Signature := do
  let parameters ← inputParameters inputRole input
  let result ← outputResult outputRole output
  checkResult result
  .ok ⟨name, parameters, result, some stage⟩

def vertex (name : String) (input : Option TypeDescriptor) (output : TypeDescriptor) :
    Except SchemaError Signature :=
  entry name input (some output) .vertex .vertexInput .vertexOutput

def fragment (name : String) (input : Option TypeDescriptor) (output : TypeDescriptor) :
    Except SchemaError Signature :=
  entry name input (some output) .fragment .fragmentInput .fragmentOutput

def compute (name : String) (input : Option TypeDescriptor) (x y z : Nat) :
    Except SchemaError Signature :=
  if x = 0 ∨ y = 0 ∨ z = 0 then .error (.invalidEntryIo .emptyWorkgroup)
  else entry name input none (.compute x y z) .computeInput .computeInput

end Signature

end ShaderKit
