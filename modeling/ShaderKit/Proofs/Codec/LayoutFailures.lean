import ShaderKit.Codec.Update
import ShaderKit.Proofs.Descriptor.Registered

/-!
# Failures of layouts in the codec

Planning, reading and following paths go by a layout that has been computed before, so they
never fail for the layout. The only such failure is that of computing it, and registered types
have a layout.
-/

namespace ShaderKit

/-! ## Planning -/

def Plan.BesidesLayout (plan : Plan) : Prop :=
  ∀ error, plan.failure ≠ some (.layout error)

namespace Plan.BesidesLayout

theorem nothing : BesidesLayout {} :=
  nofun

theorem mismatch (path : ValuePath) (expected : TypeDescriptor) (found : HostValue) :
    BesidesLayout (Plan.mismatch path expected found) :=
  nofun

theorem andThen {first second : Plan} (one : first.BesidesLayout) (two : second.BesidesLayout) :
    (first.andThen second).BesidesLayout := by
  unfold Plan.andThen
  split
  next => exact one
  next => exact two

theorem each {α : Type} {plan : Nat → α → Plan} (items : List α)
    (planned : ∀ index item, (plan index item).BesidesLayout) (start : Nat) :
    (Plan.each plan start items).BesidesLayout := by
  induction items generalizing start with
  | nil => exact nothing
  | cons item rest induction => exact (planned start item).andThen (induction (start + 1))

variable (room : Room) (kind : ScalarKind) (path : ValuePath) (offset : Nat)

theorem scalar (value : Scalar) :
    (Plan.scalar room kind path offset value).BesidesLayout := by
  unfold Plan.scalar
  split
  next => exact mismatch _ _ _
  next => split <;> nofun

theorem components (values : Components) :
    (Plan.components room kind path offset values).BesidesLayout :=
  each values (fun _ value => scalar room kind _ _ value) 0

end Plan.BesidesLayout

mutual
theorem TypeDescriptor.plan_besidesLayout (room : Room) : ∀ (type : TypeDescriptor)
    (path : ValuePath) (offset : Nat) (layout : Layout) (value : HostValue),
    (type.plan room path offset layout value).BesidesLayout
  | .scalar kind, path, offset, _, value | .atomic kind, path, offset, _, value => by
      unfold TypeDescriptor.plan
      split
      next => exact .scalar room kind path offset _
      next => exact .mismatch _ _ _
  | .vector kind width, path, offset, _, value => by
      unfold TypeDescriptor.plan
      split
      next =>
        split
        next => exact .components room kind path offset _
        next => exact .mismatch _ _ _
      next => exact .mismatch _ _ _
  | .matrix kind columns rows, path, offset, layout, value => by
      unfold TypeDescriptor.plan
      split
      next =>
        split
        next => exact .each _ (fun _ column => .components room kind _ _ column) 0
        next => exact .mismatch _ _ _
      next => exact .mismatch _ _ _
  | .array element length, path, offset, layout, value => by
      unfold TypeDescriptor.plan
      split
      next =>
        split
        next => exact .each _ (fun _ value => element.plan_besidesLayout room _ _ _ value) 0
        next => nofun
      next => exact .mismatch _ _ _
  | .struct label members, path, offset, layout, value => by
      unfold TypeDescriptor.plan
      split
      next =>
        split
        next => nofun
        next => exact members.planEach_besidesLayout room path offset _ _
      next => exact .mismatch _ _ _

theorem MemberList.planEach_besidesLayout (room : Room) : ∀ (members : MemberList)
    (path : ValuePath) (offset : Nat) (layouts : MemberLayouts)
    (values : List (String × HostValue)),
    (members.planEach room path offset layouts values).BesidesLayout
  | .nil, _, _, _, _ => .nothing
  | .cons name type _ rest, path, offset, layouts, values => by
      cases layouts with
      | nil => exact .nothing
      | cons =>
          unfold MemberList.planEach
          split
          next => nofun
          next =>
            exact (type.plan_besidesLayout room _ _ _ _).andThen
              (rest.planEach_besidesLayout room path offset _ values)
end

/-! ## Reading -/

def BesidesLayout {α : Type} (read : Except DecodeError α) : Prop :=
  ∀ error, read ≠ .error (.layout error)

namespace BesidesLayout

variable {α β : Type}

theorem ok (value : α) : BesidesLayout (.ok value) :=
  nofun

theorem bind {read : Except DecodeError α} {next : α → Except DecodeError β}
    (first : BesidesLayout read) (rest : ∀ value, BesidesLayout (next value)) :
    BesidesLayout (read >>= next) := by
  cases read with
  | error error =>
      intro other failed
      exact first other (congrArg Except.error (Except.error.inj failed))
  | ok value => exact rest value

theorem map {read : Except DecodeError α} (first : BesidesLayout read) (view : α → β) :
    BesidesLayout (read.map view) := by
  cases read with
  | error error =>
      intro other failed
      exact first other (congrArg Except.error (Except.error.inj failed))
  | ok value => exact ok (view value)

theorem readEach {read : Nat → Except DecodeError α} (each : ∀ index, BesidesLayout (read index))
    (count start : Nat) : BesidesLayout (readEach read count start) := by
  induction count generalizing start with
  | zero => exact ok []
  | succ count induction =>
      apply bind (each start)
      intro item
      apply bind (induction (start + 1))
      intro rest
      exact ok (item :: rest)

variable (buffer : Bytes) (path : ValuePath) (kind : ScalarKind) (offset : Nat)

theorem readScalar : BesidesLayout (buffer.readScalar path kind offset) := by
  unfold Bytes.readScalar
  split <;> nofun

theorem readComponents (count : Nat) :
    BesidesLayout (buffer.readComponents path kind count offset) :=
  readEach (fun index => readScalar buffer path kind (offset + index * kind.size)) count 0

end BesidesLayout

mutual
theorem TypeDescriptor.read_besidesLayout (buffer : Bytes) : ∀ (type : TypeDescriptor)
    (path : ValuePath) (offset : Nat) (layout : Layout),
    BesidesLayout (type.read buffer path offset layout)
  | .scalar kind, path, offset, _ => by
      rw [TypeDescriptor.read_scalar]
      exact (BesidesLayout.readScalar buffer path kind offset).map _
  | .atomic kind, path, offset, _ => by
      rw [TypeDescriptor.read_atomic]
      exact (BesidesLayout.readScalar buffer path kind offset).map _
  | .vector kind width, path, offset, _ => by
      rw [TypeDescriptor.read_vector]
      exact (BesidesLayout.readComponents buffer path kind offset width.count).map _
  | .matrix kind columns rows, path, offset, layout => by
      cases layout with
      | matrix =>
          rw [TypeDescriptor.read_matrix]
          apply BesidesLayout.map
          exact .readEach (fun _ => .readComponents buffer path kind _ rows.count) columns.count 0
      | _ => exact .ok _
  | .array element length, path, offset, layout => by
      cases layout with
      | array =>
          rw [TypeDescriptor.read_array]
          apply BesidesLayout.map
          exact .readEach (fun _ => element.read_besidesLayout buffer _ _ _) _ 0
      | _ => exact .ok _
  | .struct label members, path, offset, layout => by
      cases layout with
      | struct =>
          rw [TypeDescriptor.read_struct]
          exact (members.readAll_besidesLayout buffer path offset _).map _
      | _ => exact .ok _

theorem MemberList.readAll_besidesLayout (buffer : Bytes) : ∀ (members : MemberList)
    (path : ValuePath) (offset : Nat) (layouts : MemberLayouts),
    BesidesLayout (members.readAll buffer path offset layouts)
  | .nil, _, _, _ => .ok []
  | .cons name type _ rest, path, offset, layouts => by
      cases layouts with
      | nil => exact .ok []
      | cons =>
          rw [MemberList.readAll_cons]
          apply BesidesLayout.bind (type.read_besidesLayout buffer _ _ _)
          intro value
          apply BesidesLayout.bind (rest.readAll_besidesLayout buffer path offset _)
          intro others
          exact .ok _
end

/-! ## The codec with a given layout -/

section

variable (type : TypeDescriptor) (layout : Layout) (offset : Nat) (error : LayoutError)

theorem encodeWithLayout_ne_layout (value : HostValue) (buffer : Bytes) :
    (encodeWithLayout value type layout buffer offset).failure ≠ some (.layout error) := by
  unfold encodeWithLayout
  dsimp only
  split
  next => nofun
  next => exact type.plan_besidesLayout buffer.size [] offset layout value error

theorem Place.locate_ne_layout (path : ValuePath) : ∀ (place : Place) (visited : ValuePath),
    place.locate visited path ≠ .error (.layout error) := by
  induction path with
  | nil => nofun
  | cons segment rest induction =>
      intro place visited
      unfold locate
      split
      next => nofun
      next => exact induction _ _

theorem Update.check_ne_layout (update : Update) (root : Place) (available : Nat) :
    update.check root available ≠ .error (.layout error) := by
  intro failed
  unfold check at failed
  cases located : root.locate [] update.path with
  | error other =>
      rw [located] at failed
      cases failed
      exact Place.locate_ne_layout error update.path root [] located
  | ok place =>
      rw [located, ok_bind] at failed
      dsimp only at failed
      split at failed
      next => cases failed
      next =>
        split at failed
        next other planned =>
          cases failed
          exact place.type.plan_besidesLayout available update.path _ _ update.value error planned
        next => cases failed

theorem checkUpdates_ne_layout (updates : List Update) (root : Place) (available : Nat) :
    checkUpdates root available updates ≠ .error (.layout error) := by
  induction updates with
  | nil => nofun
  | cons update rest induction =>
      intro failed
      unfold checkUpdates at failed
      cases checked : update.check root available with
      | error other =>
          rw [checked] at failed
          cases failed
          exact Update.check_ne_layout error update root available checked
      | ok target =>
          rw [checked, ok_bind] at failed
          cases others : checkUpdates root available rest with
          | error other =>
              rw [others] at failed
              cases failed
              exact induction others
          | ok targets =>
              rw [others] at failed
              cases failed

theorem writeTargets_ne_layout (targets : List Target) (buffer : Bytes) :
    (writeTargets buffer targets).failure ≠ some (.layout error) := by
  induction targets generalizing buffer with
  | nil => nofun
  | cons target rest induction =>
      unfold writeTargets
      dsimp only
      split
      next => exact target.place.type.plan_besidesLayout buffer.size _ _ _ _ error
      next => exact induction _

theorem updateWithLayout_ne_layout (updates : List Update) (buffer : Bytes) :
    (updateWithLayout updates type layout buffer offset).result ≠ .error (.layout error) := by
  unfold updateWithLayout
  split
  next other checked =>
    intro failed
    cases failed
    exact checkUpdates_ne_layout error updates _ _ checked
  next targets _ =>
    dsimp only
    split
    next other written =>
      intro failed
      cases failed
      exact writeTargets_ne_layout error targets buffer written
    next => nofun

end

/-! ## Registered types -/

/-- A registered type has a layout, with a size exactly if the size of the type is known. So
the codec never fails for the layout of a registered type, whether it computes the layout or is
given one. -/
theorem registered_hasLayout {type : TypeDescriptor} (registered : type.Registered) :
    (∃ layout, type.layout = .ok layout ∧ layout.size.isSome = type.isSized) ∧
    (∀ value buffer offset error,
      (encode value type buffer offset).failure ≠ some (.layout error) ∧
      ∀ layout, (encodeWithLayout value type layout buffer offset).failure ≠
        some (.layout error)) ∧
    (∀ value error, encodeNew value type ≠ .error (.layout error)) ∧
    (∀ buffer offset error,
      decode buffer type offset ≠ .error (.layout error) ∧
      ∀ layout, decodeWithLayout buffer type layout offset ≠ .error (.layout error)) ∧
    ∀ updates buffer offset error,
      (updateBuffer updates type buffer offset).result ≠ .error (.layout error) ∧
      ∀ layout, (updateWithLayout updates type layout buffer offset).result ≠
        .error (.layout error) := by
  rcases registered.laidOut with ⟨layout, laid⟩
  have computed := layout_eq_ok.mpr laid
  refine ⟨⟨layout, computed, laid.isSome_size⟩, ?_, ?_, ?_, ?_⟩
  · intro value buffer offset error
    unfold encode
    rw [computed]
    exact ⟨encodeWithLayout_ne_layout type layout offset error value buffer,
      fun given => encodeWithLayout_ne_layout type given offset error value buffer⟩
  · intro value error
    unfold encodeNew
    rw [computed]
    dsimp only
    split
    next => nofun
    next after other written =>
      intro failed
      cases failed
      exact encodeWithLayout_ne_layout type layout 0 error value _
        (congrArg Encoded.failure written)
  · intro buffer offset error
    unfold decode
    rw [computed]
    exact ⟨type.read_besidesLayout buffer [] offset layout error,
      fun given => type.read_besidesLayout buffer [] offset given error⟩
  · intro updates buffer offset error
    unfold updateBuffer
    rw [computed]
    exact ⟨updateWithLayout_ne_layout type layout offset error updates buffer,
      fun given => updateWithLayout_ne_layout type given offset error updates buffer⟩

def exampleHeader : List Member :=
  [⟨"count", .u32, { align := some 16, size := some 40 }⟩,
    ⟨"flags", .array (.atomic .u32) (.fixed 3), {}⟩,
    ⟨"tail", .array (.vector .f32 .three) .runtime, { align := some 64 }⟩]

theorem exampleHeader_registered :
    (TypeDescriptor.struct none (.ofList exampleHeader)).Registered := by
  have atomic : (TypeDescriptor.atomic .u32).Registered :=
    @TypeDescriptor.Registered.atomic .u32 _ rfl
  apply @TypeDescriptor.Registered.struct none exampleHeader
  · intro member inside
    simp only [exampleHeader, List.mem_cons, List.not_mem_nil, or_false] at inside
    rcases inside with rfl | rfl | rfl
    · exact .scalar .u32
    · exact @TypeDescriptor.Registered.array _ _ (.fixed 3) atomic rfl
    · exact @TypeDescriptor.Registered.array _ _ .runtime (.vector .f32 .three) rfl
  · rfl

theorem exampleHeader_hasLayout :
    (TypeDescriptor.struct none (.ofList exampleHeader)).Registered ∧
    (∃ layout, (TypeDescriptor.struct none (.ofList exampleHeader)).layout = .ok layout ∧
      layout.size.isSome = false) ∧
    ∀ buffer error,
      decode buffer (.struct none (.ofList exampleHeader)) 0 ≠ .error (.layout error) :=
  ⟨exampleHeader_registered, (registered_hasLayout exampleHeader_registered).1,
    fun buffer error => ((registered_hasLayout exampleHeader_registered).2.2.2.1 buffer 0 error).1⟩

end ShaderKit
