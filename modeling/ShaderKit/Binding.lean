import ShaderKit.Layout.Uniform

/-!
# Buffer bindings

The buffer slots through which a module exchanges data with the host. Slots are named by
a group and a number within it.
-/

namespace ShaderKit

inductive BindingAccess where
  | uniform
  | storage (writable : Bool)
deriving DecidableEq, Repr

def BindingAccess.addressSpace : BindingAccess → String
  | .uniform => "uniform"
  | .storage false => "storage, read"
  | .storage true => "storage, read_write"

def BindingAccess.ofName? : String → Option BindingAccess
  | "uniform" => some .uniform
  | "read" => some (.storage false)
  | "read_write" => some (.storage true)
  | _ => none

structure Slot where
  group : Nat
  number : Nat
deriving DecidableEq, Repr

def Slot.attributes (slot : Slot) : String :=
  s!"@group({slot.group}) @binding({slot.number})"

structure BindingEntry where
  slot : Slot
  type : TypeDescriptor
  access : BindingAccess
  label : Option String := none
deriving DecidableEq, Repr

inductive ResolveError where
  | unknownBinding (slot : Slot) (function : String)
  | mismatchedType (slot : Slot) (function : String) (used declared : TypeDescriptor)
  | mismatchedAccess (slot : Slot) (function : String) (used declared : BindingAccess)
  | duplicateBinding (slot : Slot)
  | containsBool (slot : Slot) (type : TypeDescriptor)
  | readOnlyAtomic (slot : Slot)
  | uniformLayout (slot : Slot) (error : LayoutError)
deriving DecidableEq, Repr

def ResolveError.kind : ResolveError → String
  | .unknownBinding .. => "UnknownBinding"
  | .mismatchedType .. | .mismatchedAccess .. => "BindingMismatch"
  | .duplicateBinding _ => "DuplicateBinding"
  | .containsBool .. | .readOnlyAtomic _ => "InvalidBindingType"
  | .uniformLayout .. => "UniformLayout"

def ResolveError.message : ResolveError → String
  | .unknownBinding slot function =>
      s!"{slot.attributes} used by `{function}` is missing from the binding table"
  | .mismatchedType slot function used declared =>
      s!"{slot.attributes} disagrees with the binding table: `{function}` uses " ++
        s!"`{used.text}`, the table declares `{declared.text}`"
  | .mismatchedAccess slot function used declared =>
      s!"{slot.attributes} disagrees with the binding table: `{function}` uses " ++
        s!"var<{used.addressSpace}>, the table declares var<{declared.addressSpace}>"
  | .duplicateBinding slot => s!"binding slot {slot.attributes} is declared twice"
  | .containsBool slot type =>
      s!"{slot.attributes} can not hold its type: `{type.text}` contains bool, " ++
        "which is not host shareable"
  | .readOnlyAtomic slot =>
      s!"{slot.attributes} can not hold its type: atomics require a read_write " ++
        "storage binding"
  | .uniformLayout slot error => s!"uniform {slot.attributes}: {error.message}"

/-- Check that a type may live in the address space of its binding. -/
def BindingEntry.validate (entry : BindingEntry) : Except ResolveError Unit :=
  match entry.access with
  | .uniform =>
      match entry.type.checkUniform with
      | .ok () => .ok ()
      | .error error => .error (.uniformLayout entry.slot error)
  | .storage writable =>
      if entry.type.usesKind .bool then .error (.containsBool entry.slot entry.type)
      else if entry.type.usesAtomic && !writable then .error (.readOnlyAtomic entry.slot)
      else .ok ()

/-- The buffer interface of a module. -/
structure BindingTable where
  entries : List BindingEntry := []
deriving DecidableEq, Repr

namespace BindingTable

def find? (table : BindingTable) (slot : Slot) : Option BindingEntry :=
  table.entries.find? fun entry => entry.slot = slot

/-- Check entries in order; `seen` holds the slots before them. -/
def validateFrom (seen : List Slot) : List BindingEntry → Except ResolveError Unit
  | [] => .ok ()
  | entry :: rest =>
      if seen.contains entry.slot then .error (.duplicateBinding entry.slot)
      else do
        entry.validate
        validateFrom (entry.slot :: seen) rest

def validate (table : BindingTable) : Except ResolveError Unit :=
  validateFrom [] table.entries

end BindingTable

end ShaderKit
