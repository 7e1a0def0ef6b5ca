import ShaderKit.Host.Evaluation
import ShaderKit.Module.FunctionText
import ShaderKit.Proofs.Codec.Restoring

/-!
# Zero bytes and zero values

Bytes that are all zero are read as the zero value of a type, and the zero value is written as
bytes that are all zero. The value with which the host begins, the value that a type without
arguments spells and the contents of a cleared buffer are therefore the same.
-/

namespace ShaderKit

/-- All bytes of a range are there and are zero. -/
def Bytes.Cleared (low high : Nat) (buffer : Bytes) : Prop :=
  ∀ position, low ≤ position → position < high → buffer[position]? = some 0

namespace Bytes

variable {buffer : Bytes} {low high offset : Nat}

theorem Cleared.narrow {lower higher : Nat} (cleared : Cleared lower higher buffer)
    (above : lower ≤ low) (below : high ≤ higher) : Cleared low high buffer :=
  fun position after before => cleared position (by omega) (by omega)

theorem cleared_replicate (size : Nat) : Cleared 0 size (Array.replicate size 0) := by
  intro position _ before
  simp [before]

theorem Cleared.read? {count : Nat} (cleared : Cleared offset (offset + count) buffer)
    (some : 0 < count) : buffer.read? offset count = .some (List.replicate count 0) := by
  have last : offset + (count - 1) < buffer.size := by
    have held := cleared (offset + (count - 1)) (by omega) (by omega)
    exact (Array.getElem?_eq_some_iff.mp held).1
  rw [read?_eq_some]
  refine ⟨by omega, List.length_replicate, ?_⟩
  intro index inside
  rw [cleared (offset + index) (by omega) (by omega)]
  simp [inside]

/-! ## Zero bytes are read as zero -/

variable {kind : ScalarKind}

theorem ofBytes_zeros (kind : ScalarKind) :
    Scalar.ofBytes kind (List.replicate kind.size 0) = .zero kind := by
  cases kind <;> rfl

theorem Cleared.readScalar (cleared : Cleared offset (offset + kind.size) buffer)
    (path : ValuePath) : buffer.readScalar path kind offset = .ok (.zero kind) := by
  have some : 0 < kind.size := by cases kind <;> decide
  simp only [Bytes.readScalar, cleared.read? some, ofBytes_zeros]

theorem readEach_replicate {α : Type} {read : Nat → Except DecodeError α} {count : Nat}
    {item : α} (same : ∀ index, index < count → read index = .ok item) :
    readEach read count 0 = .ok (List.replicate count item) := by
  rw [readEach_eq_ok]
  refine ⟨List.length_replicate, ?_⟩
  intro index found known
  simp only [List.getElem?_replicate, Option.ite_none_right_eq_some, Option.some.injEq] at known
  obtain ⟨below, rfl⟩ := known
  rw [Nat.zero_add, same index below]

theorem Cleared.readComponents {count : Nat}
    (cleared : Cleared offset (offset + count * kind.size) buffer) (path : ValuePath) :
    buffer.readComponents path kind count offset =
      .ok (List.replicate count (.zero kind)) := by
  apply readEach_replicate
  intro index below
  have inside := item_le below (Nat.le_refl kind.size)
  exact (cleared.narrow (by omega) (by omega)).readScalar path

end Bytes

mutual
/-- A type of known size is read from zero bytes as its zero value. -/
theorem LaidOut.read_cleared : ∀ {type : TypeDescriptor} {layout : Layout} {size offset : Nat}
    {buffer : Bytes} (path : ValuePath), LaidOut type layout → layout.size = some size →
      Bytes.Cleared offset (offset + size) buffer →
        type.read buffer path offset layout = .ok type.zero
  | .scalar kind, _, _, _, _, path, laid, sized, cleared
  | .atomic kind, _, _, _, _, path, laid, sized, cleared => by
      cases laid
      cases sized
      simp only [TypeDescriptor.read_scalar, TypeDescriptor.read_atomic, cleared.readScalar path,
        TypeDescriptor.zero]
      rfl
  | .vector kind width, _, _, _, _, path, laid, sized, cleared => by
      cases laid
      cases sized
      rw [TypeDescriptor.read_vector, cleared.readComponents path, TypeDescriptor.zero]
      rfl
  | .matrix kind columns rows, _, _, offset, buffer, path, laid, sized, cleared => by
      cases laid
      cases sized
      have found : readEach (fun index => buffer.readComponents path kind rows.count
          (offset + index * columnStride kind rows)) columns.count 0 =
            .ok (List.replicate columns.count (List.replicate rows.count (.zero kind))) := by
        apply Bytes.readEach_replicate
        intro index below
        have inside := item_le below (size_le_columnStride kind rows)
        exact (cleared.narrow (by omega) (by omega)).readComponents path
      rw [Layout.ofMatrix, TypeDescriptor.read_matrix, found, TypeDescriptor.zero]
      rfl
  | .array element length, _, _, offset, buffer, path, laid, sized, cleared => by
      cases laid with
      | @array _ _ inner size elementLaid innerSized fits =>
          cases length with
          | runtime => cases sized
          | fixed count =>
              cases sized
              have found : readEach (fun index => element.read buffer (path ++ [.index index])
                  (offset + index * roundUp inner.alignment size) inner) count 0 =
                    .ok (List.replicate count element.zero) := by
                apply Bytes.readEach_replicate
                intro index below
                have inside := item_le below (le_roundUp elementLaid.alignment_positive size)
                exact elementLaid.read_cleared _ innerSized
                  (cleared.narrow (by omega) (by omega))
              rw [TypeDescriptor.read_array, ArrayLength.available, found, TypeDescriptor.zero]
              rfl
  | .struct label members, _, _, offset, buffer, path, laid, sized, cleared => by
      cases laid with
      | @struct _ _ run filled membersLaid fits =>
          obtain ⟨finish, finished, rfl⟩ := Option.map_eq_some_iff.mp sized
          have reach := le_roundUp membersLaid.alignment_positive finish
          have membersCleared : Bytes.Cleared (offset + 0) (offset + finish) buffer :=
            cleared.narrow (by omega) (by omega)
          have found := membersLaid.readAll_cleared path finished membersCleared
          rw [TypeDescriptor.read_struct, found, TypeDescriptor.zero]
          rfl

theorem MembersLaidOut.readAll_cleared : ∀ {members : MemberList} {free alignment finish : Nat}
    {run : MemberRun} {offset : Nat} {buffer : Bytes} (path : ValuePath),
    MembersLaidOut free alignment members run → run.finish = some finish →
      Bytes.Cleared (offset + free) (offset + finish) buffer →
        members.readAll buffer path offset run.layouts = .ok members.zeros
  | .nil, _, _, _, _, _, _, _, laid, _, _ => by
      cases laid
      rw [MemberList.zeros]
      rfl
  | .cons name type attributes rest, free, _, _, _, _, _, path, laid, finished, cleared => by
      cases laid with
      | cons memberLaid sized aligns spans fits restLaid =>
          have start := aligns.le_roundUp memberLaid.alignment_power free
          have reserved := spans.le
          have next := restLaid.free_le_finish finished
          rw [MemberList.readAll_cons,
            memberLaid.read_cleared _ sized (cleared.narrow (by omega) (by omega)), ok_bind,
            restLaid.readAll_cleared path finished (cleared.narrow (by omega) (Nat.le_refl _)),
            MemberList.zeros]
          rfl
      | tail => cases finished
end

/-! ## What stands in a buffer already -/

namespace Bytes

variable {buffer : Bytes}

theorem write_of_read? {offset : Nat} {bytes : List UInt8}
    (found : buffer.read? offset bytes.length = some bytes) :
    buffer.write offset bytes = buffer := by
  have ⟨fits, _, same⟩ := read?_eq_some.mp found
  apply Array.ext_getElem?
  intro position
  by_cases inside : offset ≤ position ∧ position < offset + bytes.length
  · obtain ⟨index, rfl⟩ := Nat.exists_eq_add_of_le inside.1
    have below : index < bytes.length := by omega
    rw [getElem?_write_inside fits below, same index below]
  · exact getElem?_write_outside (by omega)

theorem apply_of_holds {patches : List Patch} (held : ∀ patch ∈ patches, buffer.Holds patch) :
    buffer.apply patches = buffer := by
  induction patches with
  | nil => rfl
  | cons first rest induction =>
      have kept : buffer.write first.offset first.value.bytes = buffer := by
        apply write_of_read?
        rw [Scalar.length_bytes]
        exact held first List.mem_cons_self
      have others := induction fun patch member => held patch (List.mem_cons_of_mem _ member)
      simpa only [apply, List.foldl_cons, kept] using others

theorem Cleared.not_holdsTrue {low high : Nat} {span : Span} (cleared : Cleared low high buffer)
    (after : low ≤ span.offset) (before : span.finish ≤ high) : ¬ buffer.HoldsTrue span := by
  intro ⟨bool, word, found, nonzero⟩
  have wordEnd : span.offset + 4 ≤ high := by
    simpa [Span.finish, bool, ScalarKind.size] using before
  have zeros := (cleared.narrow after wordEnd).read? (by decide)
  cases zeros.symm.trans found
  exact nonzero (by decide)

end Bytes

theorem LaidOut.encodeNew_zero {type : TypeDescriptor} {layout : Layout} {size : Nat}
    (laid : LaidOut type layout) (distinct : type.Distinct) (sized : layout.size = some size) :
    encodeNew type.zero type = .ok (Array.replicate size 0) := by
  have cleared := Bytes.cleared_replicate size
  have read := laid.read_cleared [] sized (cleared.narrow (Nat.zero_le 0) (by omega))
  have extent := Layout.extent_of_size (type.tailLength type.zero) sized
  have ⟨patches, whole⟩ := laid.plan_whole [] ((hasType_zero type).accepts distinct)
    (show 0 + layout.extent (type.tailLength type.zero) ≤ size by omega)
  have held : ∀ patch ∈ patches, Bytes.Holds (Array.replicate size 0) patch := by
    intro patch member
    have stands : patch.span ∈ type.leaves (type.tailLength type.zero) 0 layout := by
      rw [← laid.spans_plan _ whole fun _ => rfl]
      exact List.mem_map_of_mem member
    have inside := (laid.ordered _ 0).inside stands
    apply (laid.gives_plan distinct read whole patch member).holds
    exact cleared.not_holdsTrue inside.1 (by omega)
  simp [encodeNew, layout_eq_ok.mpr laid, encodeWithLayout, encodedLength_of_size _ sized, whole,
    Bytes.apply_of_holds held]

/-! ## The value with which the host begins -/

/-- A value that the host takes wherever a type is all that is given: a variable without an
initial value starts from it, and so does every expression that is spelled as the type without
arguments. -/
structure TypeDescriptor.StartsFrom (type : TypeDescriptor) (value : HostValue) : Prop where
  cells : ∀ (recorded : RecordedFunction) (index : Nat) (declared : LocalVariable),
    recorded.locals[index]? = some declared → declared.type = type →
      recorded.frame.cells[index]? = some value
  declared : ∀ (activation : Activation) (frame : Frame) (index : Nat)
    (declared : LocalVariable), activation.recorded.locals[index]? = some declared →
      declared.type = type → activation.initialValue frame index none = .ok value
  spelled : ∀ (scope : FunctionScope) (text : Node → String) (entry : ExpressionEntry),
    entry.expression = .zero → entry.type = type →
      scope.expressionText text entry = scope.names.typeText type ++ "()"
  meant : ∀ (activation : Activation) (frame : Frame) (operand : Node → Evaluation Meaning)
    (call : Callee) (entry : ExpressionEntry), entry.expression = .zero → entry.type = type →
      activation.meaningOf frame operand call entry = .ok (.value value)

theorem TypeDescriptor.startsFrom_zero (type : TypeDescriptor) : type.StartsFrom type.zero where
  cells recorded index declared known same := by
    simp [RecordedFunction.frame, known, same]
  declared activation frame index declared known same := by
    simp [Activation.initialValue, Activation.require, known, same]
  spelled scope text entry zero same := by
    have parentheses : "(" ++ ")" = "()" := rfl
    simp [FunctionScope.expressionText, zero, same, ModuleNames.callText, ModuleNames.listText,
      String.append_assoc, parentheses]
  meant activation frame operand call entry zero same := by
    simp [Activation.meaningOf, zero, same]

/-- The value with which the host begins has its type, it is written as zero bytes, as many as
the size of the type, and zero bytes are read as that value wherever they stand. -/
theorem zero_denotes_cleared {type : TypeDescriptor} (registered : type.Registered)
    (fixed : type.isSized = true) :
    ∃ size, type.size = .ok (some size) ∧ type.StartsFrom type.zero ∧
      HasType type type.zero ∧ encodeNew type.zero type = .ok (Array.replicate size 0) ∧
      ∀ (buffer : Bytes) (offset : Nat), buffer.Cleared offset (offset + size) →
        decode buffer type offset = .ok type.zero := by
  have ⟨layout, size, laid, sized⟩ := registered.sized fixed
  have computed := layout_eq_ok.mpr laid
  refine ⟨size, map_eq_ok.mpr ⟨layout, computed, sized⟩, type.startsFrom_zero,
    hasType_zero type, laid.encodeNew_zero registered.distinct sized, ?_⟩
  intro buffer offset cleared
  simp only [decode, computed, decodeWithLayout]
  exact laid.read_cleared [] sized cleared

theorem zero_denotes_cleared_exampleSwitch :
    encodeNew (TypeDescriptor.struct none (.ofList exampleSwitch)).zero
        (.struct none (.ofList exampleSwitch)) = .ok (Array.replicate 16 0) ∧
      decode (Array.replicate 20 0) (.struct none (.ofList exampleSwitch)) 3 =
        .ok (.struct [("on", .scalar (.bool false)), ("spot", .vector [.u32 0, .u32 0])]) := by
  have ⟨size, sized, _, _, encoded, decoded⟩ :=
    zero_denotes_cleared exampleSwitch_registered (by decide)
  cases sized
  refine ⟨encoded, decoded (Array.replicate 20 0) 3 ?_⟩
  exact (Bytes.cleared_replicate 20).narrow (by decide) (by decide)

end ShaderKit
