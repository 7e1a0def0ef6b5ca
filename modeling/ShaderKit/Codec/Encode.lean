import ShaderKit.Codec.Path
import ShaderKit.Codec.Bytes

/-!
# Encoding

Encoding a value first plans the scalars to write and where, in declaration and index
order, up to the first offending place. Writing the plan is a separate step, so a plan
can be checked without touching the buffer.
-/

namespace ShaderKit

structure Patch where
  offset : Nat
  value : Scalar
deriving DecidableEq, Repr

/-- Scalars to be stored in order, and the failure that ended the planning. -/
structure Plan where
  patches : List Patch := []
  failure : Option EncodeError := none
deriving DecidableEq, Repr

/-- The word of sixty-four bits that a number is reduced to. -/
def lowWord (number : Nat) : Nat :=
  number % addressLimit

theorem lowWord_of_lt {number : Nat} (fits : number < addressLimit) : lowWord number = number :=
  Nat.mod_eq_of_lt fits

/-- Where a plan stores: the size of the buffer, and the address that an offset stands for. -/
structure Room where
  available : Nat
  address : Nat → Nat

namespace Room

def exact (available : Nat) : Room :=
  ⟨available, fun offset => offset⟩

/-- Addresses are words, and offsets beyond them wrap around. -/
def words (available : Nat) : Room :=
  ⟨available, lowWord⟩

instance : Coe Nat Room := ⟨exact⟩

@[simp] theorem available_exact (available : Nat) : (exact available).available = available :=
  rfl

@[simp] theorem address_exact (available offset : Nat) :
    (exact available).address offset = offset :=
  rfl

@[simp] theorem available_words (available : Nat) : (words available).available = available :=
  rfl

@[simp] theorem address_words (available offset : Nat) :
    (words available).address offset = lowWord offset :=
  rfl

end Room

namespace Plan

def fail (error : EncodeError) : Plan :=
  { failure := some error }

def andThen (first second : Plan) : Plan :=
  match first.failure with
  | some _ => first
  | none => ⟨first.patches ++ second.patches, second.failure⟩

def each {α : Type} (plan : Nat → α → Plan) (start : Nat) : List α → Plan
  | [] => {}
  | item :: rest => (plan start item).andThen (each plan (start + 1) rest)

def mismatch (path : ValuePath) (expected : TypeDescriptor) (found : HostValue) : Plan :=
  fail (.shapeMismatch path expected found.describe)

def scalar (room : Room) (kind : ScalarKind) (path : ValuePath) (offset : Nat)
    (value : Scalar) : Plan :=
  if value.kind ≠ kind then mismatch path (.scalar kind) (.scalar value)
  else if room.available < room.address (offset + kind.size) then
    fail (.outOfBounds path (room.address offset) kind.size room.available)
  else { patches := [⟨room.address offset, value⟩] }

def components (room : Room) (kind : ScalarKind) (path : ValuePath) (offset : Nat)
    (values : Components) : Plan :=
  each (fun index value =>
    scalar room kind (path ++ [.index index]) (offset + index * kind.size) value)
    0 values

end Plan

/-- Whether an array value may have the given number of elements. -/
def ArrayLength.accepts : ArrayLength → Nat → Bool
  | .fixed count, found => found == count
  | .runtime, _ => true

def ArrayLength.count : ArrayLength → Nat
  | .fixed count => count
  | .runtime => 0

mutual
/-- Plan a value of a type at an offset. -/
def TypeDescriptor.plan (room : Room) (path : ValuePath) (offset : Nat) :
    TypeDescriptor → Layout → HostValue → Plan
  | .scalar kind, _, value | .atomic kind, _, value =>
      match value with
      | .scalar value => Plan.scalar room kind path offset value
      | other => Plan.mismatch path (.scalar kind) other
  | .vector kind width, _, value =>
      match value with
      | .vector values =>
          if values.length = width.count then
            Plan.components room kind path offset values
          else Plan.mismatch path (.vector kind width) (.vector values)
      | other => Plan.mismatch path (.vector kind width) other
  | .matrix kind columns rows, layout, value =>
      match layout, value with
      | .matrix _ _ stride, .matrix values =>
          if values.length = columns.count ∧
              values.all (fun column => column.length == rows.count) then
            Plan.each (fun index column =>
              Plan.components room kind (path ++ [.index index])
                (offset + index * stride) column) 0 values
          else Plan.mismatch path (.matrix kind columns rows) (.matrix values)
      | _, other => Plan.mismatch path (.matrix kind columns rows) other
  | .array element length, layout, value =>
      match layout, value with
      | .array _ _ stride inner, .array values =>
          if length.accepts values.length then
            Plan.each (fun index value =>
              element.plan room (path ++ [.index index]) (offset + index * stride)
                inner value) 0 values
          else Plan.fail (.arrayLength path length.count values.length)
      | _, other => Plan.mismatch path (.array element length) other
  | .struct label members, layout, value =>
      match layout, value with
      | .struct _ _ layouts, .struct values =>
          match values.find? fun value => (members.find? value.1).isNone with
          | some unknown => Plan.fail (.unknownField path unknown.1)
          | none => members.planEach room path offset layouts values
      | _, other => Plan.mismatch path (.struct label members) other

def MemberList.planEach (room : Room) (path : ValuePath) (offset : Nat) :
    MemberList → MemberLayouts → List (String × HostValue) → Plan
  | .cons name type _ rest, .cons _ memberOffset _ layout layouts, values =>
      match HostValue.memberIn? name values with
      | none => Plan.fail (.missingField path name)
      | some value =>
          (type.plan room (path ++ [.member name]) (offset + memberOffset) layout
            value).andThen (rest.planEach room path offset layouts values)
  | _, _, _ => {}
end

mutual
/-- The bytes that a value takes when encoded. A runtime-sized array is as long as the
value says. -/
def TypeDescriptor.encodedLength : TypeDescriptor → Layout → HostValue → Nat
  | .struct _ members, layout, value =>
      match layout.size with
      | some size => size
      | none => roundUp layout.alignment (members.encodedEnd layout.members value)
  | _, layout, value =>
      match layout.size with
      | some size => size
      | none =>
          match layout, value with
          | .array _ _ stride _, .array values => values.length * stride
          | _, _ => 0

def MemberList.encodedEnd : MemberList → MemberLayouts → HostValue → Nat
  | .cons name type _ .nil, .cons _ offset _ layout .nil, value =>
      match value.member? name with
      | some tail => offset + type.encodedLength layout tail
      | none => offset
  | .cons _ _ _ rest, .cons _ _ _ _ layouts, value => rest.encodedEnd layouts value
  | _, _, _ => 0
end

def Bytes.apply (buffer : Bytes) (patches : List Patch) : Bytes :=
  patches.foldl (fun buffer patch => buffer.write patch.offset patch.value.bytes) buffer

/-- The buffer after encoding, and whether the whole value was written. A value that does
not fit its type leaves the scalars before the offending place written. -/
structure Encoded where
  buffer : Bytes
  failure : Option EncodeError := none
deriving DecidableEq, Repr

/-- Write a value of known layout at an offset. Bytes between its scalars are left as they
are. -/
def encodeWithLayout (value : HostValue) (type : TypeDescriptor) (layout : Layout)
    (buffer : Bytes) (offset : Nat) : Encoded :=
  let needed := type.encodedLength layout value
  if buffer.size < offset + needed then
    ⟨buffer, some (.outOfBounds [] offset needed buffer.size)⟩
  else
    let plan := type.plan buffer.size [] offset layout value
    ⟨buffer.apply plan.patches, plan.failure⟩

def encode (value : HostValue) (type : TypeDescriptor) (buffer : Bytes) (offset : Nat) :
    Encoded :=
  match type.layout with
  | .error error => ⟨buffer, some (.layout error)⟩
  | .ok layout => encodeWithLayout value type layout buffer offset

/-- A buffer of zeros with exactly the value written into it. -/
def encodeNew (value : HostValue) (type : TypeDescriptor) : Except EncodeError Bytes :=
  match type.layout with
  | .error error => .error (.layout error)
  | .ok layout =>
      let empty := Array.replicate (type.encodedLength layout value) 0
      match encodeWithLayout value type layout empty 0 with
      | ⟨buffer, none⟩ => .ok buffer
      | ⟨_, some error⟩ => .error error

end ShaderKit
