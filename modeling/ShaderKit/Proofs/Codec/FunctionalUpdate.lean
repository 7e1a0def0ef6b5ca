import ShaderKit.Proofs.Codec.Accepts
import ShaderKit.Proofs.Codec.Atomic
import ShaderKit.Proofs.Codec.Parts

/-!
# Updates of stored values

Updates of a stored value do to its bytes what replacing the parts at their paths, one after
the other, does to the value. They succeed exactly if every path is valid in the type and
every value fits the part of the type at its path.
-/

namespace ShaderKit

namespace Update

def Fits (type : TypeDescriptor) (update : Update) : Prop :=
  ∃ path part, type.part? update.path = some (path, part) ∧ part.Accepts update.value

/-- A value of the type after the update. The new part has its members in declaration order,
like every value that is read. -/
def revise? (type : TypeDescriptor) (whole : HostValue) (update : Update) : Option HostValue := do
  let (path, part) ← type.part? update.path
  HostValue.setAt? (part.canon update.value) whole path

end Update

/-! ## Bytes that writing leaves alone -/

namespace Bytes

variable {buffer first second third : Bytes} {low high : Nat}

theorem agreeOutside_apply {patches : List Patch}
    (inside : ∀ patch ∈ patches, low ≤ patch.span.offset ∧ patch.span.finish ≤ high) :
    AgreeOutside low high buffer (buffer.apply patches) := by
  refine ⟨(size_apply _ _).symm, ?_⟩
  intro position outside
  rw [getElem?_apply_outside]
  intro patch member
  have here := inside patch member
  omega

end Bytes

/-! ## One update -/

namespace Place

variable {root place : Place} {buffer : Bytes} {available : Nat} {update : Update}
  {target : Target}

/-- A whole plan stores its value in canonical form and leaves the bytes around it alone. -/
theorem Laid.stores_apply {path : ValuePath} {value : HostValue} {patches : List Patch}
    (laid : place.Laid) (room : place.stop ≤ buffer.size)
    (whole : place.type.plan available path place.offset place.layout value = ⟨patches, none⟩) :
    place.Stores (buffer.apply patches) (place.type.canon value) ∧
      Bytes.AgreeOutside place.offset place.stop buffer (buffer.apply patches) := by
  rcases laid.sized with ⟨size, sized⟩
  have extent := Layout.extent_of_size (place.type.tailLength value) sized
  rw [stop_of_size sized, ← extent] at room ⊢
  constructor
  · apply laid.stores []
    apply laid.rules.read_plan [] whole (laid.rules.holds_apply whole room)
    intro unsized
    rw [sized] at unsized
    cases unsized
  · apply Bytes.agreeOutside_apply
    intro patch member
    have ordered := laid.rules.ordered (place.type.tailLength value) place.offset
    rw [← laid.rules.spans_plan _ whole (fun _ => rfl)] at ordered
    exact ordered.inside (List.mem_map_of_mem member)

theorem Laid.part_of_accepted (laid : root.Laid)
    (accepted : update.Accepted root available target) :
    ∃ taken patches, root.type.part? update.path = some (taken, target.place.type) ∧
      root.PartAt taken target.place ∧ target.plan available = ⟨patches, none⟩ := by
  rcases laid.locate_cases update.path [] with
    ⟨part, taken, located, known, partAt⟩ | ⟨error, failed, _⟩
  · cases located.symm.trans accepted.located
    rcases planned : target.plan available with ⟨patches, failure⟩
    have whole := accepted.whole
    rw [planned] at whole
    cases whole
    exact ⟨taken, patches, known, partAt, rfl⟩
  · cases failed.symm.trans accepted.located

theorem Laid.stores_write {whole : HostValue} (laid : root.Laid) (room : root.stop ≤ buffer.size)
    (accepted : update.Accepted root buffer.size target) (stores : root.Stores buffer whole) :
    ∃ replaced, update.revise? root.type whole = some replaced ∧
      root.Stores (target.write buffer).buffer replaced := by
  rcases laid.part_of_accepted accepted with ⟨taken, patches, known, partAt, planned⟩
  have partRoom := Nat.le_trans partAt.stops room
  rcases partAt.laid.stores_apply partRoom planned with ⟨newStores, agree⟩
  rcases partAt.replaces stores agree newStores with ⟨replaced, done, after⟩
  refine ⟨replaced, ?_, ?_⟩
  · rw [accepted.same] at done
    simp [Update.revise?, known, done]
  · rw [Target.write, planned]
    exact after

/-- Where the whole type is inside the buffer, an update is accepted if it fits, and only
then. -/
theorem Laid.exists_accepted_iff (laid : root.Laid) (room : root.stop ≤ available) :
    (∃ target, update.Accepted root available target) ↔ update.Fits root.type := by
  constructor
  · rintro ⟨target, accepted⟩
    rcases laid.part_of_accepted accepted with ⟨taken, patches, known, partAt, planned⟩
    have fits := partAt.laid.rules.accepts planned
    rw [accepted.same] at fits
    exact ⟨taken, target.place.type, known, fits⟩
  · rintro ⟨path, type, allowed, fits⟩
    rcases laid.locate_cases update.path [] with
      ⟨part, taken, located, known, partAt⟩ | ⟨error, failed, unknown⟩
    · cases known.symm.trans allowed
      rcases partAt.laid.sized with ⟨size, sized⟩
      have stops := partAt.stops
      have length : part.type.encodedLength part.layout update.value = size :=
        encodedLength_of_size update.value sized
      rw [stop_of_size sized] at stops
      have fitting : part.offset + part.layout.extent (part.type.tailLength update.value) ≤
          available := by
        rw [Layout.extent_of_size _ sized]
        omega
      rcases partAt.laid.rules.plan_whole update.path fits fitting with ⟨patches, whole⟩
      refine ⟨⟨update, part, size⟩, rfl, located, length.symm, ?_, ?_⟩
      · exact Nat.le_trans stops room
      · rw [Target.plan, whole]
    · cases unknown.symm.trans allowed

end Place

/-! ## All updates -/

section

variable {root : Place} {available : Nat} {buffer : Bytes} {updates : List Update}
  {targets : List Target}

theorem checkUpdates_ok_iff (laid : root.Laid) (room : root.stop ≤ available) :
    (∃ targets, checkUpdates root available updates = .ok targets) ↔
      ∀ update ∈ updates, update.Fits root.type := by
  simp only [checkUpdates_eq_ok]
  induction updates with
  | nil => exact ⟨fun _ => nofun, fun _ => ⟨[], .nil⟩⟩
  | cons update rest induction =>
      rw [List.forall_mem_cons, ← induction, ← laid.exists_accepted_iff room]
      constructor
      · rintro ⟨targets, accepted⟩
        cases accepted with
        | cons first others => exact ⟨⟨_, first⟩, _, others⟩
      · rintro ⟨⟨target, first⟩, others, accepted⟩
        exact ⟨target :: others, .cons first accepted⟩

/-- Writing accepted updates one after the other replaces the parts at their paths in the same
order. -/
theorem writeTargets_stores {whole : HostValue} (laid : root.Laid)
    (accepted : List.Forall₂ (Update.Accepted root available) updates targets)
    (size : buffer.size = available) (room : root.stop ≤ available)
    (stores : root.Stores buffer whole) :
    ∃ replaced, updates.foldlM (Update.revise? root.type) whole = some replaced ∧
      root.Stores (writeTargets buffer targets).buffer replaced := by
  induction accepted generalizing buffer whole with
  | nil => exact ⟨whole, rfl, stores⟩
  | @cons update target rest others first _ induction =>
      subst size
      rcases laid.stores_write room first stores with ⟨next, done, nextStores⟩
      have kept : (target.write buffer).buffer.size = buffer.size := Bytes.size_apply _ _
      have written : (target.write buffer).failure = none := first.whole
      rcases induction kept nextStores with ⟨replaced, restDone, restStores⟩
      refine ⟨replaced, ?_, ?_⟩
      · rw [List.foldlM_cons, done]
        exact restDone
      · simp only [writeTargets, written]
        exact restStores

end

/-- Updates of a value whose whole type is inside the buffer succeed exactly if every path is
valid in the type and every value fits the part of the type at its path. The value that is
decoded afterwards is the one decoded before with the parts at the paths replaced in order, so
that later updates have the last word where they overlap earlier ones. -/
theorem updateBuffer_functional {type : TypeDescriptor} {size offset : Nat} {buffer : Bytes}
    (sized : type.size = .ok (some size)) (room : offset + size ≤ buffer.size)
    (updates : List Update) :
    ((∃ ranges, (updateBuffer updates type buffer offset).result = .ok ranges) ↔
      ∀ update ∈ updates, update.Fits type) ∧
    ∀ ranges, (updateBuffer updates type buffer offset).result = .ok ranges →
      ∃ before after, decode buffer type offset = .ok before ∧
        updates.foldlM (Update.revise? type) before = some after ∧
        decode (updateBuffer updates type buffer offset).buffer type offset = .ok after := by
  rcases map_eq_ok.mp sized with ⟨layout, computed, layoutSize⟩
  let root : Place := ⟨type, layout, offset⟩
  have laid : root.Laid := ⟨layout_eq_ok.mp computed, size, layoutSize⟩
  have rootRoom : root.stop ≤ buffer.size := by
    have stop : root.stop = offset + size := Place.stop_of_size layoutSize
    omega
  have decodes {bytes value} (stores : root.Stores bytes value) :
      decode bytes type offset = .ok value := by
    unfold decode
    rw [computed]
    exact stores []
  have updated : updateBuffer updates type buffer offset =
      updateWithLayout updates type layout buffer offset := by
    unfold updateBuffer
    rw [computed]
  rw [updated, ← checkUpdates_ok_iff laid rootRoom]
  unfold updateWithLayout
  cases checked : checkUpdates root buffer.size updates with
  | error error =>
      constructor
      · constructor
        · rintro ⟨ranges, impossible⟩
          cases impossible
        · rintro ⟨targets, impossible⟩
          cases impossible
      · intro ranges impossible
        cases impossible
  | ok targets =>
      have accepted := checkUpdates_eq_ok.mp checked
      have written := writeTargets_of_whole (whole_of_accepted accepted)
      rcases laid.exists_stores rootRoom with ⟨before, beforeStores⟩
      rcases writeTargets_stores laid accepted rfl rootRoom beforeStores with
        ⟨after, replaced, afterStores⟩
      rw [written] at afterStores
      dsimp only
      rw [written]
      exact ⟨⟨fun _ => ⟨targets, rfl⟩, fun _ => ⟨_, rfl⟩⟩,
        fun _ _ => ⟨before, after, decodes beforeStores, replaced, decodes afterStores⟩⟩

def exampleMesh : TypeDescriptor :=
  .struct none (.ofList [⟨"basis", .matrix .f32 .two .two, {}⟩,
    ⟨"points", .array (.vector .f32 .three) (.fixed 2), {}⟩])

def exampleMeshUpdates : List Update :=
  [⟨[.member "points"],
      .array [.vector [.f32 1, .f32 2, .f32 3], .vector [.f32 4, .f32 5, .f32 6]]⟩,
    ⟨[.member "points", .index 1, .member "g"], .scalar (.f32 7)⟩,
    ⟨[.member "basis", .index 1, .member "x"], .scalar (.f32 8)⟩,
    ⟨[.member "basis", .index 1], .vector [.f32 9, .f32 10]⟩,
    ⟨[.member "points", .index 0, .index 2], .scalar (.f32 11)⟩]

theorem exampleMeshUpdates_fit : ∀ update ∈ exampleMeshUpdates, update.Fits exampleMesh := by
  intro update member
  simp only [exampleMeshUpdates, List.mem_cons, List.not_mem_nil, or_false] at member
  rcases member with rfl | rfl | rfl | rfl | rfl
  · exact ⟨_, _, rfl, by
      simp [TypeDescriptor.Accepts, ArrayLength.accepts, ComponentsOf, Scalar.kind,
        VectorWidth.count]⟩
  · exact ⟨_, _, rfl, by simp [TypeDescriptor.Accepts, Scalar.kind]⟩
  · exact ⟨_, _, rfl, by simp [TypeDescriptor.Accepts, Scalar.kind]⟩
  · exact ⟨_, _, rfl, by
      simp [TypeDescriptor.Accepts, ComponentsOf, Scalar.kind, VectorWidth.count]⟩
  · exact ⟨_, _, rfl, by simp [TypeDescriptor.Accepts, Scalar.kind]⟩

/-- Later updates have the last word. -/
theorem decode_exampleMesh_updated :
    decode (updateBuffer exampleMeshUpdates exampleMesh (Array.replicate 52 0) 4).buffer
        exampleMesh 4 =
      .ok (.struct [("basis", .matrix [[.f32 0, .f32 0], [.f32 9, .f32 10]]),
        ("points", .array [.vector [.f32 1, .f32 2, .f32 11],
          .vector [.f32 4, .f32 7, .f32 6]])]) := by
  have updated := @updateBuffer_functional exampleMesh 48 4 (Array.replicate 52 0) rfl
    (by decide) exampleMeshUpdates
  rcases updated.1.mpr exampleMeshUpdates_fit with ⟨ranges, succeeded⟩
  rcases updated.2 ranges succeeded with ⟨before, after, decoded, replaced, decodedAfter⟩
  cases decoded
  cases replaced
  exact decodedAfter

end ShaderKit
