import ShaderKit.Proofs.Codec.Decoding
import ShaderKit.Proofs.Codec.Words.Encoding

/-!
# Decoding in words

Where every scalar starts at an address, and space can be had for the elements of every array,
decoding in words is decoding. A scalar that starts at an address and ends beyond the last one is
outside the buffer in either case.
-/

namespace ShaderKit

mutual
/-- Space can be had for the elements of every array whose length the type gives. -/
def TypeDescriptor.Allocatable (valueBytes : Nat) : TypeDescriptor → Prop
  | .scalar _ | .atomic _ | .vector .. | .matrix .. => True
  | .array element .runtime => element.Allocatable valueBytes
  | .array element (.fixed count) =>
      count * valueBytes ≤ memoryLimit ∧ element.Allocatable valueBytes
  | .struct _ members => members.Allocatable valueBytes

def MemberList.Allocatable (valueBytes : Nat) : MemberList → Prop
  | .nil => True
  | .cons _ type _ rest => type.Allocatable valueBytes ∧ rest.Allocatable valueBytes
end

/-! ## Errors that are renamed -/

theorem map_mapError {ε δ α β : Type} {attempt : Except ε α} {name : ε → δ} {view : α → β} :
    (attempt.mapError name).map view = (attempt.map view).mapError name := by
  cases attempt <;> rfl

theorem readEach_mapError {ε δ α : Type} {read : Nat → Except ε α} {other : Nat → Except δ α}
    {name : ε → δ} {count start : Nat}
    (same : ∀ index, start ≤ index → index < start + count →
      other index = (read index).mapError name) :
    readEach other count start = (readEach read count start).mapError name := by
  induction count generalizing start with
  | zero => rfl
  | succ count induction =>
      have first := same start (Nat.le_refl start) (by omega)
      have others := @induction (start + 1) fun index after before =>
        same index (by omega) (by omega)
      rw [readEach, readEach, first, others]
      rcases read start with error | item
      · rfl
      · rcases readEach read count (start + 1) with error | rest <;> rfl

namespace Machine

variable {valueBytes offset : Nat} {buffer : Bytes} {path : ValuePath} {kind : ScalarKind}

theorem source_scalar (below : offset < addressLimit) :
    (source valueBytes buffer).scalar path kind offset =
      (buffer.readScalar path kind offset).mapError .failed := by
  simp only [source, lowWord_of_lt below]

theorem source_components {count : Nat}
    (below : ∀ span ∈ componentLeaves kind offset count, span.offset < addressLimit) :
    (source valueBytes buffer).components path kind count offset =
      (buffer.readComponents path kind count offset).mapError .failed := by
  apply readEach_mapError
  intro index after before
  apply source_scalar
  exact below _ (List.mem_map_of_mem (List.mem_range'_1.mpr ⟨after, before⟩))

theorem source_count_fixed {count stride : Nat} (room : count * valueBytes ≤ memoryLimit) :
    (source valueBytes buffer).count (.fixed count) offset stride = .ok count :=
  if_neg (Nat.not_lt_of_le room)

theorem source_count_runtime (stride : Nat) (below : offset < addressLimit)
    (room : (buffer.size - offset) / max stride 1 * valueBytes ≤ memoryLimit) :
    (source valueBytes buffer).count .runtime offset stride =
      .ok (ArrayLength.runtime.available buffer.size offset stride) := by
  simp only [source, lowWord_of_lt below]
  exact if_neg (Nat.not_lt_of_le room)

end Machine

/-! ## Reading in words -/

/-- The tail of the layout starts at an address, and space can be had for its elements. -/
def TailPlace.Readable (valueBytes : Nat) (buffer : Bytes) (offset : Nat) (place : TailPlace) :
    Prop :=
  offset + place.offset < addressLimit ∧
    (buffer.size - (offset + place.offset)) / max place.stride 1 * valueBytes ≤ memoryLimit

mutual
theorem LaidOut.readFrom_words : ∀ {type : TypeDescriptor} {layout : Layout} (valueBytes : Nat)
    {buffer : Bytes} (path : ValuePath) (offset : Nat), LaidOut type layout →
      buffer.size < addressLimit → type.Allocatable valueBytes →
        (∀ span ∈ type.leaves 0 offset layout, span.offset < addressLimit) →
          (layout.size = none → layout.tailPlace.Readable valueBytes buffer offset) →
            type.readFrom (Machine.source valueBytes buffer) path offset layout =
              (type.read buffer path offset layout).mapError .failed
  | .scalar kind, _, valueBytes, buffer, path, offset, _, _, _, starts, _ => by
      rw [TypeDescriptor.leaves_scalar] at starts
      rw [TypeDescriptor.readFrom, TypeDescriptor.read_scalar,
        Machine.source_scalar (starts _ List.mem_cons_self), map_mapError]
  | .atomic kind, _, valueBytes, buffer, path, offset, _, _, _, starts, _ => by
      rw [TypeDescriptor.leaves_atomic] at starts
      rw [TypeDescriptor.readFrom, TypeDescriptor.read_atomic,
        Machine.source_scalar (starts _ List.mem_cons_self), map_mapError]
  | .vector kind width, _, valueBytes, buffer, path, offset, _, _, _, starts, _ => by
      rw [TypeDescriptor.leaves_vector] at starts
      rw [TypeDescriptor.readFrom, TypeDescriptor.read_vector,
        Machine.source_components starts, map_mapError]
  | .matrix kind columns rows, _, valueBytes, buffer, path, offset, laid, _, _, starts, _ => by
      cases laid
      rw [Layout.ofMatrix, TypeDescriptor.leaves_matrix] at starts
      rw [Layout.ofMatrix, TypeDescriptor.read_matrix]
      simp only [TypeDescriptor.readFrom]
      rw [← map_mapError]
      apply congrArg (Except.map _)
      apply readEach_mapError
      intro index after before
      apply Machine.source_components
      intro span inside
      exact starts span (List.mem_flatMap.mpr
        ⟨index, List.mem_range'_1.mpr ⟨after, before⟩, inside⟩)
  | .array element .runtime, _, valueBytes, buffer, path, offset, laid, limit, allocatable, _,
      readable => by
      cases laid with
      | @array _ _ inner size elementLaid sized fits =>
          have start : offset < addressLimit := (readable rfl).1
          rw [TypeDescriptor.Allocatable] at allocatable
          rw [TypeDescriptor.read_array]
          simp only [TypeDescriptor.readFrom]
          rw [Machine.source_count_runtime (roundUp inner.alignment size) start (readable rfl).2,
            ← map_mapError]
          apply congrArg (Except.map _)
          apply readEach_mapError
          intro index _ below
          rw [Nat.zero_add] at below
          apply elementLaid.readFrom_words valueBytes _ _ limit allocatable _ (by simp [sized])
          -- the elements that are counted end inside the buffer
          intro span inside
          have stops := elementLaid.leaves_le sized (available_item_le below
            (le_roundUp elementLaid.alignment_positive size)) span inside
          unfold Span.finish at stops
          omega
  | .array element (.fixed count), _, valueBytes, buffer, path, offset, laid, limit, allocatable,
      starts, _ => by
      cases laid with
      | array elementLaid sized fits =>
          rw [TypeDescriptor.Allocatable] at allocatable
          rw [TypeDescriptor.leaves_array] at starts
          rw [TypeDescriptor.read_array]
          simp only [TypeDescriptor.readFrom]
          rw [Machine.source_count_fixed allocatable.1, ← map_mapError]
          apply congrArg (Except.map _)
          apply readEach_mapError
          intro index after before
          apply elementLaid.readFrom_words valueBytes _ _ limit allocatable.2 _ (by simp [sized])
          intro span inside
          exact starts span (List.mem_flatMap.mpr
            ⟨index, List.mem_range'_1.mpr ⟨after, before⟩, inside⟩)
  | .struct label members, _, valueBytes, buffer, path, offset, laid, limit, allocatable, starts,
      readable => by
      cases laid with
      | struct filled membersLaid fits =>
          rw [TypeDescriptor.Allocatable] at allocatable
          rw [TypeDescriptor.leaves_struct] at starts
          rw [TypeDescriptor.read_struct]
          simp only [TypeDescriptor.readFrom]
          rw [← map_mapError]
          apply congrArg (Except.map _)
          apply membersLaid.readAllFrom_words valueBytes path offset limit allocatable starts
          intro unfinished
          apply readable
          rw [Layout.size, MemberRun.size, unfinished, Option.map_none]

theorem MembersLaidOut.readAllFrom_words : ∀ {members : MemberList} {free alignment : Nat}
    {run : MemberRun} (valueBytes : Nat) {buffer : Bytes} (path : ValuePath) (offset : Nat),
    MembersLaidOut free alignment members run →
      buffer.size < addressLimit → members.Allocatable valueBytes →
        (∀ span ∈ members.leaves 0 offset run.layouts, span.offset < addressLimit) →
          (run.finish = none → run.layouts.tailPlace.Readable valueBytes buffer offset) →
            members.readAllFrom (Machine.source valueBytes buffer) path offset run.layouts =
              (members.readAll buffer path offset run.layouts).mapError .failed
  | .nil, _, _, _, valueBytes, buffer, path, offset, laid, _, _, _, _ => by
      cases laid
      rfl
  | .cons name type attributes rest, _, _, _, valueBytes, buffer, path, offset, laid, limit,
      allocatable, starts, readable => by
      rw [MemberList.Allocatable] at allocatable
      cases laid with
      | @cons _ _ _ _ _ _ _ _ _ layout run memberLaid sized aligns spans fits restLaid =>
          rw [MemberList.leaves_cons] at starts
          have first := memberLaid.readFrom_words valueBytes (path ++ [.member name]) _ limit
            allocatable.1 (fun span inside => starts span (List.mem_append_left _ inside))
            (by simp [sized])
          have others := restLaid.readAllFrom_words valueBytes path offset limit allocatable.2
            (fun span inside => starts span (List.mem_append_right _ inside)) (by
              intro unfinished
              rw [← MemberLayouts.tailPlace_cons (restLaid.layouts_ne_nil unfinished)]
              exact readable unfinished)
          rw [MemberList.readAllFrom, MemberList.readAll_cons, first, others]
          rcases type.read buffer _ _ layout with error | value
          · rfl
          · rcases rest.readAll buffer path offset run.layouts with error | values <;> rfl
      | tail memberLaid aligns unsized fits =>
          rw [MemberList.leaves_cons] at starts
          obtain ⟨start, room⟩ := readable rfl
          have last := memberLaid.readFrom_words valueBytes (path ++ [.member name]) _ limit
            allocatable.1 (fun span inside => starts span (List.mem_append_left _ inside)) (by
              intro _
              unfold TailPlace.Readable
              rw [Nat.add_assoc]
              exact ⟨start, room⟩)
          rw [MemberList.readAllFrom, MemberList.readAll_cons, last]
          rcases TypeDescriptor.read buffer _ _ _ _ with error | value <;> rfl
end

/-! ## Decoding -/

namespace Machine

theorem decode_of_readable {type : TypeDescriptor} {layout : Layout} {valueBytes offset : Nat}
    {buffer : Bytes} (computed : type.layout = .ok layout) (limit : buffer.size ≤ memoryLimit)
    (allocatable : type.Allocatable valueBytes)
    (starts : ∀ span ∈ type.leaves 0 offset layout, span.offset < addressLimit)
    (readable : layout.size = none → layout.tailPlace.Readable valueBytes buffer offset) :
    decode valueBytes buffer type offset =
      (ShaderKit.decodeWithLayout buffer type layout offset).mapError .failed := by
  have below : buffer.size < addressLimit := Nat.lt_of_le_of_lt limit (by decide)
  simp only [decode, computed]
  exact (layout_eq_ok.mp computed).readFrom_words valueBytes [] offset below allocatable starts
    readable

/-- What decoding reads where the scalars outside the runtime-sized tail start at addresses, the
tail does as well, and space can be had for the elements of every array. It does not panic. It
succeeds exactly if every scalar outside the tail ends inside the buffer, and otherwise it reports
the first one that does not. A decoded value has the type. Its tail has as many elements as the
bytes from its start on hold, and they end inside the buffer. -/
theorem decode_reads {type : TypeDescriptor} (registered : type.Registered) (valueBytes : Nat)
    (buffer : Bytes) (offset : Nat) :
    ∃ layout, type.layout = .ok layout ∧
      let room := (buffer.size - (offset + layout.tailPlace.offset)) /
        max layout.tailPlace.stride 1
      (buffer.size ≤ memoryLimit → type.Allocatable valueBytes →
        (∀ span ∈ type.leaves 0 offset layout, span.offset < addressLimit) →
        (layout.size = none → offset + layout.tailPlace.offset < addressLimit ∧
          room * valueBytes ≤ memoryLimit) →
        decode valueBytes buffer type offset ≠ .error .panicked ∧
        ((∃ value, decode valueBytes buffer type offset = .ok value) ↔
          ∀ span ∈ type.leaves 0 offset layout, span.finish ≤ buffer.size) ∧
        (∀ error, decode valueBytes buffer type offset = .error (.failed error) →
          ∃ path span, Span.firstBeyond buffer.size (type.leaves 0 offset layout) = some span ∧
            error = .outOfBounds path span.offset span.kind.size buffer.size) ∧
        ∀ value, decode valueBytes buffer type offset = .ok value →
          HasType type value ∧
          (layout.size = none →
            type.tailLength value = room ∧
            ∀ span ∈ type.leaves (type.tailLength value) offset layout,
              span.finish ≤ buffer.size)) := by
  obtain ⟨layout, laid⟩ := registered.laidOut
  have computed := layout_eq_ok.mpr laid
  refine ⟨layout, computed, fun limit allocatable starts readable => ?_⟩
  have complete := laid.decodeWithLayout_complete_iff buffer offset
  rw [decode_of_readable computed limit allocatable starts readable, ← complete]
  cases decoded : ShaderKit.decodeWithLayout buffer type layout offset with
  | error error =>
      refine ⟨nofun, ⟨nofun, nofun⟩, ?_, nofun⟩
      intro other same
      cases same
      exact laid.decodeWithLayout_eq_error decoded
  | ok value =>
      refine ⟨nofun, ⟨fun _ => ⟨value, rfl⟩, fun _ => ⟨value, rfl⟩⟩, nofun, ?_⟩
      intro other same
      cases same
      refine ⟨laid.hasType_read decoded, ?_⟩
      intro unsized
      have counted := laid.tailLength_read registered.distinct unsized decoded
      constructor
      · rw [counted, TailPlace.room_sub]
        rfl
      · rw [counted]
        exact laid.leaves_le_size unsized (complete.mp ⟨value, decoded⟩)

/-- Two elements of the tail fit, and a part of a third. -/
theorem decode_reads_exampleHeader : ∃ value,
    decode 48 (Array.replicate 105 7) (.struct none (.ofList exampleHeader)) 1 = .ok value ∧
      (TypeDescriptor.struct none (.ofList exampleHeader)).tailLength value = 2 := by
  obtain ⟨layout, computed, reads⟩ :=
    decode_reads exampleHeader_registered 48 (Array.replicate 105 7) 1
  cases computed
  have allocatable :
      (TypeDescriptor.struct none (.ofList exampleHeader)).Allocatable 48 := by
    simp [exampleHeader, MemberList.ofList, TypeDescriptor.Allocatable, MemberList.Allocatable,
      memoryLimit]
  obtain ⟨_, fits, _, found⟩ := reads (by decide) allocatable (by decide) (by decide)
  obtain ⟨value, decoded⟩ := fits.mpr (by decide)
  exact ⟨value, decoded, ((found value decoded).2 rfl).1⟩

/-- A number that would start at the limit of the addresses is read from the start of the buffer,
and space for too many elements cannot be asked for. -/
theorem decode_exampleReserved_wrapped :
    let type := TypeDescriptor.struct none (.ofList exampleReserved)
    let vast := TypeDescriptor.array .u32 (.fixed 0x1000000000000000)
    type.Registered ∧
      (∃ layout, type.layout = .ok layout ∧
        type.leaves 0 0xfffffffffffffff0 layout = [⟨addressLimit, .u32⟩]) ∧
      decode 48 #[1, 0, 0, 0] type 0xfffffffffffffff0 =
        .ok (.struct [("head", .array []), ("b", .scalar (.u32 1))]) ∧
      vast.Registered ∧ decode 48 #[] vast 0 = .error .panicked :=
  ⟨exampleReserved_registered, ⟨_, rfl, by decide +kernel⟩, rfl,
    @TypeDescriptor.Registered.array _ _ (.fixed 0x1000000000000000) (.scalar .u32) rfl, rfl⟩

end Machine

end ShaderKit
