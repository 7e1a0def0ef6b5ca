import ShaderKit.Codec.Encode

/-!
# Partial updates

An update stores a value at a place inside a larger one. Several updates are applied in
order after all of them have been checked, and the answer tells which bytes to upload.
-/

namespace ShaderKit

/-- A value for the place at the end of a path. -/
structure Update where
  path : ValuePath
  value : HostValue
deriving Repr

/-- The type and layout at the end of a path, and the offset of its first byte. -/
structure Place where
  type : TypeDescriptor
  layout : Layout
  offset : Nat
deriving DecidableEq, Repr

def componentOfLetter? : String → Option Nat
  | "x" | "r" => some 0
  | "y" | "g" => some 1
  | "z" | "b" => some 2
  | "w" | "a" => some 3
  | _ => none

def ArrayLength.admitsIndex : ArrayLength → Nat → Bool
  | .fixed count, index => decide (index < count)
  | .runtime, _ => true

/-- The element, column or component of an index, relative to the whole. -/
def TypeDescriptor.elementAt (type : TypeDescriptor) (layout : Layout) (index : Nat) :
    Except PathFault Place :=
  match type, layout with
  | .array element length, .array _ _ stride inner =>
      if length.admitsIndex index then .ok ⟨element, inner, index * stride⟩
      else .error (.element index length.count)
  | .matrix kind columns rows, .matrix _ _ stride =>
      if index < columns.count then
        .ok ⟨.vector kind rows, .ofVector kind rows, index * stride⟩
      else .error (.column index)
  | .vector kind width, _ =>
      if index < width.count then
        .ok ⟨.scalar kind, .leaf kind.size kind.size, index * kind.size⟩
      else .error (.component index)
  | other, _ => .error (.notIndexable other)

def TypeDescriptor.memberAt? (type : TypeDescriptor) (layout : Layout) (name : String) :
    Option Place := do
  let (_, member) ← (← type.members?).find? name
  let place ← layout.member? name
  some ⟨member.type, place.layout, place.offset⟩

/-- One step along a path: the inner place relative to the outer one, and the segment as
it is remembered. On vectors the letters `xyzw` and `rgba` stand for indices. -/
def TypeDescriptor.stepAt (type : TypeDescriptor) (layout : Layout) :
    PathSegment → Except PathFault (Place × PathSegment)
  | .index index => (type.elementAt layout index).map fun place => (place, .index index)
  | .member name =>
      match type.memberAt? layout name with
      | some place => .ok (place, .member name)
      | none =>
          match type, componentOfLetter? name with
          | .vector kind width, some index =>
              (TypeDescriptor.elementAt (.vector kind width) layout index).map
                fun place => (place, .index index)
          | other, _ => .error (.noMember other name)

/-- Follow a path from a place; `visited` is the path so far. -/
def Place.locate (place : Place) (visited : ValuePath) :
    ValuePath → Except EncodeError Place
  | [] => .ok place
  | segment :: rest =>
      match place.type.stepAt place.layout segment with
      | .error fault => .error (.invalidPath visited fault)
      | .ok (inner, taken) =>
          locate { inner with offset := place.offset + inner.offset } (visited ++ [taken])
            rest

/-! ## Byte ranges -/

structure ByteRange where
  start : Nat
  stop : Nat
deriving DecidableEq, Repr

def ByteRange.mergeFrom (current : ByteRange) : List ByteRange → List ByteRange
  | [] => [current]
  | next :: rest =>
      if next.start ≤ current.stop then
        mergeFrom ⟨current.start, max current.stop next.stop⟩ rest
      else current :: mergeFrom next rest

/-- Sort ranges and join those that overlap or touch. -/
def ByteRange.merge (ranges : List ByteRange) : List ByteRange :=
  match ranges.mergeSort fun left right => left.start ≤ right.start with
  | [] => []
  | first :: rest => first.mergeFrom rest

/-! ## Applying updates -/

/-- A checked update: the place of its value, and the number of bytes that it takes there. -/
structure Target where
  update : Update
  place : Place
  length : Nat
deriving Repr

namespace Target

def range (target : Target) : ByteRange :=
  ⟨target.place.offset, target.place.offset + target.length⟩

def plan (target : Target) (room : Room) : Plan :=
  target.place.type.plan room target.update.path target.place.offset
    target.place.layout target.update.value

def write (target : Target) (buffer : Bytes) : Encoded :=
  let plan := target.plan buffer.size
  ⟨buffer.apply plan.patches, plan.failure⟩

end Target

/-- Find the place of an update, and check that its value can be written there. -/
def Update.check (update : Update) (root : Place) (room : Room) : Except EncodeError Target := do
  let place ← root.locate [] update.path
  let length := place.type.encodedLength place.layout update.value
  let target : Target :=
    ⟨update, { place with offset := room.address place.offset }, room.address length⟩
  if room.available < room.address (place.offset + length) then
    .error (.outOfBounds update.path target.place.offset target.length room.available)
  else
    match (target.plan room).failure with
    | some error => .error error
    | none => .ok target

def checkUpdates (root : Place) (room : Room) : List Update → Except EncodeError (List Target)
  | [] => .ok []
  | update :: rest => do
      let target ← update.check root room
      let others ← checkUpdates root room rest
      .ok (target :: others)

def writeTargets (buffer : Bytes) : List Target → Encoded
  | [] => { buffer }
  | target :: rest =>
      let written := target.write buffer
      match written.failure with
      | some _ => written
      | none => writeTargets written.buffer rest

structure Updated where
  buffer : Bytes
  result : Except EncodeError (List ByteRange)

/-- Apply updates to a value of known layout at an offset. Every update is checked before
the first byte is written. -/
def updateWithLayout (updates : List Update) (type : TypeDescriptor) (layout : Layout)
    (buffer : Bytes) (offset : Nat) : Updated :=
  match checkUpdates ⟨type, layout, offset⟩ buffer.size updates with
  | .error error => ⟨buffer, .error error⟩
  | .ok targets =>
      let written := writeTargets buffer targets
      match written.failure with
      | some error => ⟨written.buffer, .error error⟩
      | none => ⟨written.buffer, .ok (ByteRange.merge (targets.map Target.range))⟩

def updateBuffer (updates : List Update) (type : TypeDescriptor) (buffer : Bytes)
    (offset : Nat) : Updated :=
  match type.layout with
  | .error error => ⟨buffer, .error (.layout error)⟩
  | .ok layout => updateWithLayout updates type layout buffer offset

end ShaderKit
