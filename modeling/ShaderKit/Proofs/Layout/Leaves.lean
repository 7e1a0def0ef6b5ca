import ShaderKit.Proofs.Layout.Alignment

/-!
# The bytes of a type

The scalars that a layout places in memory, at any depth, and the nested types that it
places. Scalars stand in ascending order, one after the other, inside the bytes of the
types around them.
-/

namespace ShaderKit

/-! ## Spans in ascending order -/

structure Span where
  offset : Nat
  kind : ScalarKind
deriving DecidableEq, Repr

namespace Span

def finish (span : Span) : Nat :=
  span.offset + span.kind.size

def Apart (first second : Span) : Prop :=
  first.finish ≤ second.offset ∨ second.finish ≤ first.offset

theorem Apart.symm {first second : Span} (apart : first.Apart second) :
    second.Apart first :=
  Or.symm apart

instance (first second : Span) : Decidable (first.Apart second) :=
  inferInstanceAs (Decidable (_ ∨ _))

end Span

def Ordered (high : Nat) : (low : Nat) → List Span → Prop
  | low, [] => low ≤ high
  | low, span :: rest => low ≤ span.offset ∧ Ordered high span.finish rest

namespace Ordered

variable {low middle high : Nat} {spans others : List Span}

theorem le (ordered : Ordered high low spans) : low ≤ high := by
  induction spans generalizing low with
  | nil => exact ordered
  | cons span rest induction =>
      have after := induction ordered.2
      have before := ordered.1
      unfold Span.finish at after
      omega

theorem widen {lower higher : Nat} (ordered : Ordered high low spans) (below : lower ≤ low)
    (above : high ≤ higher) : Ordered higher lower spans := by
  induction spans generalizing low lower with
  | nil => exact Nat.le_trans below (Nat.le_trans ordered above)
  | cons span rest induction =>
      exact ⟨Nat.le_trans below ordered.1, induction ordered.2 (Nat.le_refl _)⟩

theorem append (first : Ordered middle low spans) (second : Ordered high middle others) :
    Ordered high low (spans ++ others) := by
  induction spans generalizing low with
  | nil => exact second.widen first (Nat.le_refl high)
  | cons span rest induction => exact ⟨first.1, induction first.2⟩

theorem flatMap (group : Nat → List Span) (bound : Nat → Nat)
    (ordered : ∀ index, Ordered (bound (index + 1)) (bound index) (group index))
    (start count : Nat) :
    Ordered (bound (start + count)) (bound start)
      ((List.range' start count).flatMap group) := by
  induction count generalizing start with
  | zero => exact Nat.le_refl _
  | succ count induction =>
      rw [List.range'_succ, List.flatMap_cons]
      have rest := induction (start + 1)
      rw [Nat.add_assoc, Nat.add_comm 1] at rest
      exact (ordered start).append rest

theorem inside {span : Span} (ordered : Ordered high low spans) (member : span ∈ spans) :
    low ≤ span.offset ∧ span.finish ≤ high := by
  induction spans generalizing low with
  | nil => cases member
  | cons head rest induction =>
      cases member with
      | head => exact ⟨ordered.1, ordered.2.le⟩
      | tail _ member =>
          have later := induction ordered.2 member
          have before := ordered.1
          unfold Span.finish at later
          exact ⟨by omega, later.2⟩

theorem apart (ordered : Ordered high low spans) : spans.Pairwise Span.Apart := by
  induction spans generalizing low with
  | nil => exact .nil
  | cons head rest induction =>
      apply List.Pairwise.cons
      · intro span member
        exact .inl (ordered.2.inside member).1
      · exact induction ordered.2

end Ordered

/-! ## Scalars in memory -/

def ArrayLength.elements (tail : Nat) : ArrayLength → Nat
  | .fixed count => count
  | .runtime => tail

def componentLeaves (kind : ScalarKind) (offset count : Nat) : List Span :=
  (List.range' 0 count).map fun index => ⟨offset + index * kind.size, kind⟩

structure Placement where
  offset : Nat
  type : TypeDescriptor
  layout : Layout
deriving DecidableEq, Repr

def Placement.components (place : Placement) : List Span :=
  match place.type, place.layout with
  | .scalar kind, _ | .atomic kind, _ => [⟨place.offset, kind⟩]
  | .vector kind width, _ => componentLeaves kind place.offset width.count
  | .matrix kind columns rows, .matrix _ _ stride =>
      (List.range' 0 columns.count).flatMap fun index =>
        componentLeaves kind (place.offset + index * stride) rows.count
  | _, _ => []

mutual
/-- A type at an offset and every type nested in it, each element of an array included. A
runtime-sized array has `tail` elements. -/
def TypeDescriptor.placements (tail offset : Nat) (type : TypeDescriptor)
    (layout : Layout) : List Placement :=
  ⟨offset, type, layout⟩ ::
    match type, layout with
    | .array element length, .array _ _ stride inner =>
        (List.range' 0 (length.elements tail)).flatMap fun index =>
          element.placements tail (offset + index * stride) inner
    | .struct _ members, .struct _ _ layouts => members.placements tail offset layouts
    | _, _ => []

def MemberList.placements (tail offset : Nat) :
    MemberList → MemberLayouts → List Placement
  | .cons _ type _ rest, .cons _ memberOffset _ layout layouts =>
      type.placements tail (offset + memberOffset) layout ++
        rest.placements tail offset layouts
  | _, _ => []
end

theorem MemberList.placements_nil (tail offset : Nat) (layouts : MemberLayouts) :
    MemberList.nil.placements tail offset layouts = [] := by
  simp [placements]

/-- The scalars of a type at an offset, at any depth and in memory order. -/
def TypeDescriptor.leaves (tail offset : Nat) (type : TypeDescriptor) (layout : Layout) :
    List Span :=
  (type.placements tail offset layout).flatMap Placement.components

def MemberList.leaves (tail offset : Nat) (members : MemberList) (layouts : MemberLayouts) :
    List Span :=
  (members.placements tail offset layouts).flatMap Placement.components

section

variable (tail offset : Nat)

theorem TypeDescriptor.leaves_scalar (kind : ScalarKind) (layout : Layout) :
    (scalar kind).leaves tail offset layout = [⟨offset, kind⟩] := by
  simp [leaves, placements, Placement.components]

theorem TypeDescriptor.leaves_atomic (kind : ScalarKind) (layout : Layout) :
    (atomic kind).leaves tail offset layout = [⟨offset, kind⟩] := by
  simp [leaves, placements, Placement.components]

theorem TypeDescriptor.leaves_vector (kind : ScalarKind) (width : VectorWidth)
    (layout : Layout) :
    (vector kind width).leaves tail offset layout =
      componentLeaves kind offset width.count := by
  simp [leaves, placements, Placement.components]

theorem TypeDescriptor.leaves_matrix (kind : ScalarKind) (columns rows : VectorWidth)
    (size alignment stride : Nat) :
    (matrix kind columns rows).leaves tail offset (.matrix size alignment stride) =
      (List.range' 0 columns.count).flatMap fun index =>
        componentLeaves kind (offset + index * stride) rows.count := by
  simp [leaves, placements, Placement.components]

theorem TypeDescriptor.leaves_array (element : TypeDescriptor) (length : ArrayLength)
    (size : Option Nat) (alignment stride : Nat) (inner : Layout) :
    (array element length).leaves tail offset (.array size alignment stride inner) =
      (List.range' 0 (length.elements tail)).flatMap fun index =>
        element.leaves tail (offset + index * stride) inner := by
  simp [leaves, placements, Placement.components, List.flatMap_assoc]

theorem TypeDescriptor.leaves_struct (label : Option String) (members : MemberList)
    (size : Option Nat) (alignment : Nat) (layouts : MemberLayouts) :
    (struct label members).leaves tail offset (.struct size alignment layouts) =
      members.leaves tail offset layouts := by
  simp [leaves, MemberList.leaves, placements, Placement.components]

theorem MemberList.leaves_nil (layouts : MemberLayouts) :
    nil.leaves tail offset layouts = [] := by
  simp [leaves, placements_nil]

theorem MemberList.leaves_cons (name : String) (type : TypeDescriptor)
    (attributes : MemberAttributes) (rest : MemberList) (name' : String)
    (memberOffset : Nat) (span : Option Nat) (layout : Layout) (layouts : MemberLayouts) :
    (cons name type attributes rest).leaves tail offset
        (.cons name' memberOffset span layout layouts) =
      type.leaves tail (offset + memberOffset) layout ++
        rest.leaves tail offset layouts := by
  simp [leaves, TypeDescriptor.leaves, placements]

end

/-! ## Where a type ends -/

/-- Where a runtime-sized array starts, and the distance between its elements. -/
structure TailPlace where
  offset : Nat
  stride : Nat
deriving DecidableEq, Repr

def TailPlace.finish (count : Nat) (place : TailPlace) : Nat :=
  place.offset + count * place.stride

mutual
def Layout.tailPlace : Layout → TailPlace
  | .array _ _ stride _ => ⟨0, stride⟩
  | .struct _ _ members => members.tailPlace
  | _ => ⟨0, 0⟩

def MemberLayouts.tailPlace : MemberLayouts → TailPlace
  | .nil => ⟨0, 0⟩
  | .cons _ offset _ layout .nil =>
      ⟨offset + layout.tailPlace.offset, layout.tailPlace.stride⟩
  | .cons _ _ _ _ rest => rest.tailPlace
end

/-- The bytes from the start of a type to its end. Without a size it ends with `tail`
elements. -/
def Layout.extent (tail : Nat) (layout : Layout) : Nat :=
  layout.size.getD (layout.tailPlace.finish tail)

def MemberRun.extent (tail : Nat) (run : MemberRun) : Nat :=
  run.finish.getD (run.layouts.tailPlace.finish tail)

theorem Layout.extent_of_size {layout : Layout} {size : Nat} (tail : Nat)
    (sized : layout.size = some size) : layout.extent tail = size := by
  rw [extent, sized, Option.getD_some]

theorem MemberRun.extent_le_size {run : MemberRun} (tail : Nat)
    (positive : 0 < run.alignment) :
    run.extent tail ≤ run.size.getD (run.layouts.tailPlace.finish tail) := by
  unfold extent size
  cases run.finish with
  | none => exact Nat.le_refl _
  | some finish => exact le_roundUp positive finish

theorem MemberLayouts.tailPlace_cons {offset : Nat} {name : String} {span : Option Nat}
    {layout : Layout} {rest : MemberLayouts} (more : rest ≠ .nil) :
    (cons name offset span layout rest).tailPlace = rest.tailPlace := by
  cases rest with
  | nil => exact absurd rfl more
  | cons => rfl

theorem MembersLaidOut.members_ne_nil {members : MemberList} {offset alignment : Nat}
    {run : MemberRun} (laid : MembersLaidOut offset alignment members run)
    (unsized : run.finish = none) : members ≠ .nil := by
  rintro rfl
  cases laid
  cases unsized

theorem MembersLaidOut.layouts_ne_nil {members : MemberList} {offset alignment : Nat}
    {run : MemberRun} (laid : MembersLaidOut offset alignment members run)
    (unsized : run.finish = none) : run.layouts ≠ .nil := by
  intro last
  cases laid with
  | nil => cases unsized
  | cons => cases last
  | tail => cases last

theorem MembersLaidOut.extent_cons {members : MemberList} {offset alignment start : Nat}
    {run : MemberRun} (tail : Nat) (name : String) (span : Option Nat) (layout : Layout)
    (laid : MembersLaidOut offset alignment members run) :
    MemberRun.extent tail { run with layouts := .cons name start span layout run.layouts } =
      run.extent tail := by
  unfold MemberRun.extent
  cases finished : run.finish with
  | some finish => rfl
  | none => rw [MemberLayouts.tailPlace_cons (laid.layouts_ne_nil finished)]

/-! ## Scalars stand in ascending order -/

theorem ordered_componentLeaves (kind : ScalarKind) (offset count : Nat) :
    Ordered (offset + count * kind.size) offset (componentLeaves kind offset count) := by
  unfold componentLeaves
  rw [List.map_eq_flatMap]
  have groups := Ordered.flatMap (fun index => [⟨offset + index * kind.size, kind⟩])
    (fun index => offset + index * kind.size)
    (fun index => ⟨Nat.le_refl _, by simp [Ordered, Span.finish, Nat.add_mul, Nat.add_assoc]⟩)
    0 count
  rw [Nat.zero_add, Nat.zero_mul, Nat.add_zero] at groups
  exact groups

theorem Ordered.spaced {item : Nat → List Span} {offset size stride : Nat}
    (fits : size ≤ stride)
    (ordered : ∀ index, Ordered (offset + index * stride + size) (offset + index * stride)
      (item index)) (count : Nat) :
    Ordered (offset + count * stride) offset ((List.range' 0 count).flatMap item) := by
  have groups := Ordered.flatMap item (fun index => offset + index * stride)
    (fun index => (ordered index).widen (Nat.le_refl _) (by
      rw [Nat.add_mul, Nat.one_mul]
      omega)) 0 count
  rw [Nat.zero_add, Nat.zero_mul, Nat.add_zero] at groups
  exact groups

theorem size_le_columnStride (kind : ScalarKind) (rows : VectorWidth) :
    rows.count * kind.size ≤ columnStride kind rows :=
  le_roundUp (vectorAlignment_positive kind rows) _

theorem extent_array (tail : Nat) (length : ArrayLength) (alignment stride : Nat)
    (inner : Layout) :
    (Layout.array (length.bytes stride) alignment stride inner).extent tail =
      length.elements tail * stride := by
  cases length with
  | fixed count => rfl
  | runtime => exact Nat.zero_add _

mutual
/-- The scalars of a type stand one after the other between its start and its end. -/
theorem LaidOut.ordered : ∀ {type : TypeDescriptor} {layout : Layout} (tail offset : Nat),
    LaidOut type layout →
      Ordered (offset + layout.extent tail) offset (type.leaves tail offset layout)
  | .scalar kind, _, tail, offset, laid => by
      cases laid
      rw [TypeDescriptor.leaves_scalar]
      exact ⟨Nat.le_refl _, Nat.le_refl _⟩
  | .atomic kind, _, tail, offset, laid => by
      cases laid
      rw [TypeDescriptor.leaves_atomic]
      exact ⟨Nat.le_refl _, Nat.le_refl _⟩
  | .vector kind width, _, tail, offset, laid => by
      cases laid
      rw [TypeDescriptor.leaves_vector]
      exact ordered_componentLeaves kind offset width.count
  | .matrix kind columns rows, _, tail, offset, laid => by
      cases laid
      unfold Layout.ofMatrix
      rw [TypeDescriptor.leaves_matrix]
      exact Ordered.spaced (size_le_columnStride kind rows)
        (fun _ => ordered_componentLeaves kind _ rows.count) columns.count
  | .array element length, _, tail, offset, laid => by
      cases laid with
      | @array _ _ inner size elementLaid sized _ =>
          rw [TypeDescriptor.leaves_array, extent_array]
          refine Ordered.spaced (le_roundUp elementLaid.alignment_positive size) ?_ _
          intro index
          rw [← Layout.extent_of_size tail sized]
          exact elementLaid.ordered tail _
  | .struct _ members, _, tail, offset, laid => by
      cases laid with
      | @struct _ _ run _ membersLaid _ =>
          rw [TypeDescriptor.leaves_struct]
          have reach := run.extent_le_size tail membersLaid.alignment_positive
          exact (membersLaid.ordered tail offset).widen (Nat.le_refl _)
            (Nat.add_le_add_left reach offset)

theorem MembersLaidOut.ordered : ∀ {members : MemberList} {free alignment : Nat}
    {run : MemberRun} (tail offset : Nat), MembersLaidOut free alignment members run →
      Ordered (offset + run.extent tail) (offset + free)
        (members.leaves tail offset run.layouts)
  | .nil, _, _, _, tail, offset, laid => by
      cases laid
      rw [MemberList.leaves_nil]
      exact Nat.le_refl _
  | .cons name type _ rest, free, _, _, tail, offset, laid => by
      cases laid with
      | @cons _ _ align _ _ _ _ _ _ _ _ memberLaid sized aligns spans _ restLaid =>
          have start := aligns.le_roundUp memberLaid.alignment_power free
          have reserved := spans.le
          have member := memberLaid.ordered tail (offset + roundUp align free)
          rw [Layout.extent_of_size tail sized] at member
          have others := restLaid.ordered tail offset
          rw [restLaid.extent_cons tail, MemberList.leaves_cons]
          exact (member.widen (by omega) (by omega)).append others
      | @tail _ _ align _ _ _ _ memberLaid aligns _ _ =>
          have start := aligns.le_roundUp memberLaid.alignment_power free
          have member := memberLaid.ordered tail (offset + roundUp align free)
          rw [MemberList.leaves_cons, MemberList.leaves_nil, List.append_nil]
          rw [Layout.extent, memberLaid.size_runtimeArray] at member
          exact member.widen (by omega) (by
            simp [MemberRun.extent, MemberLayouts.tailPlace, TailPlace.finish, Nat.add_assoc])
end

theorem MembersLaidOut.free_le_extent {members : MemberList} {free alignment : Nat}
    {run : MemberRun} (laid : MembersLaidOut free alignment members run) (tail : Nat) :
    free ≤ run.extent tail := by
  have ordered := (laid.ordered tail 0).le
  omega

theorem MembersLaidOut.free_le_finish {members : MemberList} {free alignment finish : Nat}
    {run : MemberRun} (laid : MembersLaidOut free alignment members run)
    (finished : run.finish = some finish) : free ≤ finish := by
  have below := laid.free_le_extent 0
  rw [MemberRun.extent, finished, Option.getD_some] at below
  exact below

/-! ## Nested types are placed at their alignment -/

mutual
/-- Every type nested in an aligned type is laid out by the rules, at a multiple of its
alignment. -/
theorem LaidOut.placed : ∀ {type : TypeDescriptor} {layout : Layout} {tail offset : Nat}
    {place : Placement}, LaidOut type layout → layout.alignment ∣ offset →
      place ∈ type.placements tail offset layout →
        LaidOut place.type place.layout ∧ place.layout.alignment ∣ place.offset
  | .scalar _, _, _, _, _, laid, multiple, member
  | .atomic _, _, _, _, _, laid, multiple, member
  | .vector _ _, _, _, _, _, laid, multiple, member => by
      simp only [TypeDescriptor.placements, List.mem_singleton] at member
      subst member
      exact ⟨laid, multiple⟩
  | .matrix _ _ _, _, _, _, _, laid, multiple, member => by
      simp only [TypeDescriptor.placements, List.mem_singleton] at member
      subst member
      exact ⟨laid, multiple⟩
  | .array element _, layout, tail, offset, place, laid, multiple, member => by
      cases laid with
      | @array _ _ inner size elementLaid sized fits =>
          rw [TypeDescriptor.placements, List.mem_cons] at member
          rcases member with rfl | member
          · exact ⟨.array elementLaid sized fits, multiple⟩
          · rcases List.mem_flatMap.mp member with ⟨index, _, member⟩
            have spaced := Nat.dvd_mul_left_of_dvd (dvd_roundUp inner.alignment size) index
            exact elementLaid.placed (Nat.dvd_add multiple spaced) member
  | .struct label members, layout, tail, offset, place, laid, multiple, member => by
      cases laid with
      | struct filled membersLaid fits =>
          rw [TypeDescriptor.placements, List.mem_cons] at member
          rcases member with rfl | member
          · exact ⟨.struct filled membersLaid fits, multiple⟩
          · exact membersLaid.placed (by decide) multiple member

theorem MembersLaidOut.placed : ∀ {members : MemberList} {free alignment : Nat}
    {run : MemberRun} {tail offset : Nat} {place : Placement},
    MembersLaidOut free alignment members run → isPowerOfTwo alignment = true →
      run.alignment ∣ offset → place ∈ members.placements tail offset run.layouts →
        LaidOut place.type place.layout ∧ place.layout.alignment ∣ place.offset
  | .nil, _, _, _, _, _, _, laid, _, _, member => by
      cases laid
      cases member
  | .cons _ _ _ rest, free, alignment, _, _, _, place, laid, power, multiple, member => by
      cases laid with
      | @cons _ _ align _ _ _ _ _ _ _ run memberLaid sized aligns spans _ restLaid =>
          have alignPower := aligns.power memberLaid.alignment_power
          have greatest := isPowerOfTwo.max power alignPower
          have own := isPowerOfTwo.dvd_of_le alignPower greatest (Nat.le_max_right _ _)
          rw [MemberList.placements, List.mem_append] at member
          rcases member with member | member
          · have whole := Nat.dvd_trans own (restLaid.alignment_power greatest).2
            have start := aligns.dvd_start memberLaid.alignment_power whole multiple free
            exact memberLaid.placed start member
          · exact restLaid.placed greatest multiple member
      | @tail _ _ align _ _ _ _ memberLaid aligns _ _ =>
          have alignPower := aligns.power memberLaid.alignment_power
          have greatest := isPowerOfTwo.max power alignPower
          have own := isPowerOfTwo.dvd_of_le alignPower greatest (Nat.le_max_right _ _)
          have start := aligns.dvd_start memberLaid.alignment_power own multiple free
          rw [MemberList.placements, MemberList.placements_nil, List.append_nil] at member
          exact memberLaid.placed start member
end

theorem aligned_componentLeaves {kind : ScalarKind} {offset count : Nat} {span : Span}
    (multiple : kind.size ∣ offset) (member : span ∈ componentLeaves kind offset count) :
    span.kind.size ∣ span.offset := by
  rcases List.mem_map.mp member with ⟨index, _, rfl⟩
  exact Nat.dvd_add multiple (Nat.dvd_mul_left _ _)

theorem Placement.aligned_components {place : Placement} {span : Span}
    (laid : LaidOut place.type place.layout) (multiple : place.layout.alignment ∣ place.offset)
    (member : span ∈ place.components) : span.kind.size ∣ span.offset := by
  rcases place with ⟨offset, type, layout⟩
  cases laid with
  | scalar | atomic =>
      cases List.mem_singleton.mp member
      exact multiple
  | vector kind width =>
      exact aligned_componentLeaves (Nat.dvd_trans (Nat.dvd_mul_left _ _) multiple) member
  | matrix kind columns rows =>
      rcases List.mem_flatMap.mp member with ⟨index, _, member⟩
      have column : rows.alignFactor * kind.size ∣ columnStride kind rows := dvd_roundUp _ _
      have start := Nat.dvd_add multiple (Nat.dvd_mul_left_of_dvd column index)
      exact aligned_componentLeaves (Nat.dvd_trans (Nat.dvd_mul_left _ _) start) member
  | array | struct => cases member

/-- A layout keeps the scalars of a type apart, inside its size and aligned, and places
every nested type by the layout of that type, at a multiple of its alignment. -/
theorem layout_separates_scalars {type : TypeDescriptor} {layout : Layout} {size : Nat}
    (laid : type.layout = .ok layout) (sized : layout.size = some size) (tail : Nat) :
    (type.leaves tail 0 layout).Pairwise Span.Apart ∧
    (∀ span ∈ type.leaves tail 0 layout,
      span.finish ≤ size ∧ span.kind.size ∣ span.offset) ∧
    (∀ place ∈ type.placements tail 0 layout,
      place.type.layout = .ok place.layout ∧
      place.layout.alignment ∣ place.offset ∧
      (∃ exponent, place.layout.alignment = Nat.pow 2 exponent) ∧
      (place.type.isPadded = true →
        ∀ bytes, place.layout.size = some bytes → place.layout.alignment ∣ bytes)) := by
  have rules := layout_eq_ok.mp laid
  have ordered := rules.ordered tail 0
  rw [Layout.extent_of_size tail sized, Nat.zero_add] at ordered
  have placed : ∀ place ∈ type.placements tail 0 layout, _ :=
    fun _ member => rules.placed (Nat.dvd_zero _) member
  refine ⟨ordered.apart, ?_, ?_⟩
  · intro span member
    rcases List.mem_flatMap.mp member with ⟨place, placeMember, inPlace⟩
    have here := placed place placeMember
    exact ⟨(ordered.inside member).2, Placement.aligned_components here.1 here.2 inPlace⟩
  · intro place member
    have here := placed place member
    exact ⟨layout_eq_ok.mpr here.1, here.2, isPowerOfTwo_iff.mp here.1.alignment_power,
      fun padded _ placeSized => here.1.alignment_dvd_size padded placeSized⟩

def exampleLights : TypeDescriptor :=
  .struct none (.ofList [
    ⟨"intensity", .f32, {}⟩,
    ⟨"colours", .array (.vector .f32 .three) (.fixed 2), { size := some 40 }⟩,
    ⟨"frame", .struct none (.ofList [
      ⟨"tag", .scalar .f16, {}⟩,
      ⟨"basis", .matrix .f16 .two .three, { align := some 32 }⟩]), {}⟩])

theorem exampleLights_separated : ∃ layout,
    exampleLights.layout = .ok layout ∧ layout.size = some 128 ∧
      (exampleLights.leaves 0 0 layout).Pairwise Span.Apart :=
  ⟨_, rfl, rfl, (@layout_separates_scalars _ _ 128 rfl rfl 0).1⟩

end ShaderKit
