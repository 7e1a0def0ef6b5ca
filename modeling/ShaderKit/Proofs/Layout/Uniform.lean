import ShaderKit.Layout.Uniform
import ShaderKit.Proofs.Layout.Leaves

/-!
# Data in the uniform address space

The uniform check looks at one position after the other and knows only offsets relative to the
structure around them. It accepts a type exactly if all positions nested in it follow the rules,
and then every structure, every array and every array element starts at a multiple of sixteen
bytes in memory.
-/

namespace ShaderKit

/-! ## The rules -/

mutual
/-- A type with its layout and every type nested in it with its own. The elements of an array
share one. -/
def TypeDescriptor.positions (type : TypeDescriptor) (layout : Layout) :
    List (TypeDescriptor × Layout) :=
  (type, layout) ::
    match type, layout with
    | .array element _, .array _ _ _ inner => element.positions inner
    | .struct _ members, .struct _ _ layouts => members.positions layouts
    | _, _ => []

def MemberList.positions : MemberList → MemberLayouts → List (TypeDescriptor × Layout)
  | .cons _ type _ rest, .cons _ _ _ layout layouts =>
      type.positions layout ++ rest.positions layouts
  | _, _ => []
end

theorem TypeDescriptor.mem_positions (type : TypeDescriptor) (layout : Layout) :
    (type, layout) ∈ type.positions layout := by
  unfold positions
  exact List.mem_cons_self

/-- What uniform data asks of the members of a structure: those of structure and array types
stand at multiples of sixteen, and nothing follows a structure within its rounded size. -/
structure UniformMembers (members : List Member) (layouts : List MemberLayout) : Prop where
  aligned : ∀ (index : Nat) (member : Member) (place : MemberLayout),
    members[index]? = some member → layouts[index]? = some place →
      member.type.isAggregate = true → uniformAlignment ∣ place.offset
  apart : ∀ (index : Nat) (member : Member) (place next : MemberLayout) (size : Nat),
    members[index]? = some member → layouts[index]? = some place →
      layouts[index + 1]? = some next → member.type.isStruct = true →
        place.layout.size = some size →
          place.offset + roundUp uniformAlignment size ≤ next.offset

/-- What uniform data asks of a type and its layout, those nested in it apart. -/
structure UniformPosition (type : TypeDescriptor) (layout : Layout) : Prop where
  shareable : type ≠ .scalar .bool ∧ ∀ width, type ≠ .vector .bool width
  plain : ∀ kind, type ≠ .atomic kind
  counted : ∀ element, type ≠ .array element .runtime
  spaced : ∀ size alignment stride inner, layout = .array size alignment stride inner →
    uniformAlignment ∣ stride
  members : ∀ label members, type = .struct label members →
    UniformMembers members.toList layout.members.toList

theorem uniformPosition_scalar {kind : ScalarKind} {size alignment : Nat} :
    UniformPosition (.scalar kind) (.leaf size alignment) ↔ kind ≠ .bool := by
  constructor
  · rintro position rfl
    exact position.shareable.1 rfl
  · intro shareable
    exact ⟨⟨by simpa using shareable, nofun⟩, nofun, nofun, nofun, nofun⟩

theorem uniformPosition_vector {kind : ScalarKind} {width : VectorWidth} {size alignment : Nat} :
    UniformPosition (.vector kind width) (.leaf size alignment) ↔ kind ≠ .bool := by
  constructor
  · rintro position rfl
    exact position.shareable.2 width rfl
  · intro shareable
    exact ⟨⟨nofun, by simpa using shareable⟩, nofun, nofun, nofun, nofun⟩

theorem uniformPosition_matrix {kind : ScalarKind} {columns rows : VectorWidth}
    {size alignment stride : Nat} :
    UniformPosition (.matrix kind columns rows) (.matrix size alignment stride) :=
  ⟨⟨nofun, nofun⟩, nofun, nofun, nofun, nofun⟩

theorem uniformPosition_array {element : TypeDescriptor} {length : ArrayLength}
    {size : Option Nat} {alignment stride : Nat} {inner : Layout} :
    UniformPosition (.array element length) (.array size alignment stride inner) ↔
      length ≠ .runtime ∧ uniformAlignment ∣ stride := by
  constructor
  · intro position
    refine ⟨?_, position.spaced _ _ _ _ rfl⟩
    rintro rfl
    exact position.counted element rfl
  · rintro ⟨counted, spaced⟩
    refine ⟨⟨nofun, nofun⟩, nofun, ?_, ?_, nofun⟩
    · rintro _ same
      cases same
      exact counted rfl
    · rintro _ _ _ _ same
      cases same
      exact spaced

theorem uniformPosition_struct {label : Option String} {members : MemberList}
    {size : Option Nat} {alignment : Nat} {layouts : MemberLayouts} :
    UniformPosition (.struct label members) (.struct size alignment layouts) ↔
      UniformMembers members.toList layouts.toList := by
  constructor
  · intro position
    exact position.members label members rfl
  · intro uniform
    refine ⟨⟨nofun, nofun⟩, nofun, nofun, nofun, ?_⟩
    rintro _ _ same
    cases same
    exact uniform

/-! ## Members one after the other -/

theorem uniformMembers_nil : UniformMembers [] [] :=
  ⟨nofun, nofun⟩

theorem uniformMembers_cons {member : Member} {place : MemberLayout} {members : List Member}
    {layouts : List MemberLayout} :
    UniformMembers (member :: members) (place :: layouts) ↔
      (member.type.isAggregate = true → uniformAlignment ∣ place.offset) ∧
      (∀ next size, layouts.head? = some next → member.type.isStruct = true →
        place.layout.size = some size →
          place.offset + roundUp uniformAlignment size ≤ next.offset) ∧
      UniformMembers members layouts := by
  constructor
  · intro uniform
    refine ⟨uniform.aligned 0 member place rfl rfl, ?_, ?_, ?_⟩
    · intro next size follows
      rw [List.head?_eq_getElem?] at follows
      exact uniform.apart 0 member place next size rfl rfl follows
    · exact fun index => uniform.aligned (index + 1)
    · exact fun index => uniform.apart (index + 1)
  · rintro ⟨aligned, apart, uniform⟩
    constructor
    · intro index other here known placed
      cases index with
      | zero =>
          cases known
          cases placed
          exact aligned
      | succ index => exact uniform.aligned index other here known placed
    · intro index other here next size known placed follows
      cases index with
      | zero =>
          cases known
          cases placed
          exact apart next size (List.head?_eq_getElem? ▸ follows)
      | succ index => exact uniform.apart index other here next size known placed follows

theorem MemberLayouts.firstOffset_eq : ∀ layouts : MemberLayouts,
    layouts.firstOffset = layouts.toList.head?.map fun place => (place.name, place.offset)
  | .nil => rfl
  | .cons .. => rfl

theorem MembersLaidOut.le_firstOffset {members : MemberList} {free alignment : Nat}
    {run : MemberRun} {place : MemberLayout} (laid : MembersLaidOut free alignment members run)
    (first : run.layouts.toList.head? = some place) : free ≤ place.offset := by
  cases laid with
  | nil => cases first
  | cons memberLaid sized aligns spans fits restLaid =>
      cases first
      exact aligns.le_roundUp memberLaid.alignment_power free
  | tail memberLaid aligns unsized fits =>
      cases first
      exact aligns.le_roundUp memberLaid.alignment_power free

theorem checkDistance_eq_ok {path : LayoutPath} {name : String} {type : TypeDescriptor}
    {layout : Layout} {offset size : Nat} {next : Option MemberLayout}
    (sized : layout.size = some size)
    (after : ∀ place, next = some place → offset ≤ place.offset) :
    checkDistance path name type layout offset
        (next.map fun place => (place.name, place.offset)) = .ok () ↔
      ∀ place, next = some place → type.isStruct = true →
        offset + roundUp uniformAlignment size ≤ place.offset := by
  cases next with
  | none => simp [checkDistance]
  | some place =>
      have ordered := after place rfl
      cases struct : type.isStruct with
      | false => simp [checkDistance, struct]
      | true =>
          simp only [checkDistance, struct, sized, Option.map_some, Option.getD_some,
            Option.some.injEq, forall_eq', true_implies]
          split
          next close => simp; omega
          next apart => simp; omega

theorem MemberList.checkUniformFrom_cons {path : LayoutPath} {name name' : String}
    {type : TypeDescriptor} {attributes : MemberAttributes} {rest : MemberList} {offset : Nat}
    {span : Option Nat} {layout : Layout} {layouts : MemberLayouts} :
    (cons name type attributes rest).checkUniformFrom path
        (.cons name' offset span layout layouts) = .ok () ↔
      (type.isAggregate = true → uniformAlignment ∣ offset) ∧
      checkDistance path name type layout offset layouts.firstOffset = .ok () ∧
      type.checkUniformAt (path ++ [.member name]) layout = .ok () ∧
      rest.checkUniformFrom path layouts = .ok () := by
  rw [checkUniformFrom, Nat.dvd_iff_mod_eq_zero]
  split
  next misplaced =>
    simp only [Bool.and_eq_true, bne_iff_ne] at misplaced
    simp [misplaced.1, misplaced.2]
  next aligned =>
    have multiple : type.isAggregate = true → offset % uniformAlignment = 0 := by
      simpa using aligned
    constructor
    · intro checked
      obtain ⟨_, distance, checked⟩ := bind_eq_ok.mp checked
      obtain ⟨_, own, others⟩ := bind_eq_ok.mp checked
      exact ⟨multiple, distance, own, others⟩
    · rintro ⟨_, distance, own, others⟩
      rw [distance, ok_bind, own, ok_bind, others]

/-! ## The check accepts what follows the rules -/

mutual
theorem LaidOut.checkUniformAt_eq_ok : ∀ {type : TypeDescriptor} {layout : Layout}
    (path : LayoutPath), LaidOut type layout →
      (type.checkUniformAt path layout = .ok () ↔
        ∀ position ∈ type.positions layout, UniformPosition position.1 position.2)
  | .scalar kind, _, path, laid => by
      cases laid
      simp only [TypeDescriptor.positions, List.forall_mem_singleton, uniformPosition_scalar]
      cases kind <;> simp [TypeDescriptor.checkUniformAt]
  | .atomic kind, _, path, laid => by
      cases laid
      simp only [TypeDescriptor.positions, List.forall_mem_singleton]
      constructor
      · intro impossible
        cases impossible
      · intro position
        exact absurd rfl (position.plain kind)
  | .vector kind width, _, path, laid => by
      cases laid
      simp only [Layout.ofVector, TypeDescriptor.positions, List.forall_mem_singleton,
        uniformPosition_vector]
      cases kind <;> simp [TypeDescriptor.checkUniformAt]
  | .matrix kind columns rows, _, path, laid => by
      cases laid
      simp only [Layout.ofMatrix, TypeDescriptor.positions, List.forall_mem_singleton,
        uniformPosition_matrix]
      simp [TypeDescriptor.checkUniformAt]
  | .array element length, _, path, laid => by
      cases laid with
      | @array _ _ inner size elementLaid sized fits =>
          have nested := elementLaid.checkUniformAt_eq_ok (path ++ [.element])
          rw [TypeDescriptor.positions, List.forall_mem_cons, uniformPosition_array, ← nested,
            TypeDescriptor.checkUniformAt, Nat.dvd_iff_mod_eq_zero]
          split
          next runtime => simp [runtime]
          next counted =>
            split
            next spread => simp [spread]
            next spaced => simp [counted, Decidable.of_not_not spaced]
  | .struct label members, _, path, laid => by
      cases laid with
      | struct filled membersLaid fits =>
          rw [TypeDescriptor.positions, List.forall_mem_cons, uniformPosition_struct,
            TypeDescriptor.checkUniformAt]
          exact membersLaid.checkUniformFrom_eq_ok path

theorem MembersLaidOut.checkUniformFrom_eq_ok : ∀ {members : MemberList}
    {free alignment : Nat} {run : MemberRun} (path : LayoutPath),
    MembersLaidOut free alignment members run →
      (members.checkUniformFrom path run.layouts = .ok () ↔
        UniformMembers members.toList run.layouts.toList ∧
        ∀ position ∈ members.positions run.layouts, UniformPosition position.1 position.2)
  | .nil, _, _, _, path, laid => by
      cases laid
      simp [MemberList.checkUniformFrom, MemberList.positions, MemberList.toList,
        MemberLayouts.toList, uniformMembers_nil]
  | .cons name type attributes rest, free, _, _, path, laid => by
      cases laid with
      | @cons _ _ align size span _ _ _ _ _ run memberLaid sized aligns spans fits restLaid =>
          have after : ∀ place : MemberLayout, run.layouts.toList.head? = some place →
              roundUp align free ≤ place.offset :=
            fun place first => Nat.le_trans (Nat.le_add_right _ span)
              (restLaid.le_firstOffset first)
          rw [MemberList.checkUniformFrom_cons, MemberLayouts.firstOffset_eq,
            checkDistance_eq_ok sized after, memberLaid.checkUniformAt_eq_ok,
            restLaid.checkUniformFrom_eq_ok, MemberList.positions, List.forall_mem_append,
            MemberList.toList, MemberLayouts.toList, uniformMembers_cons]
          constructor
          · rintro ⟨aligned, apart, own, uniform, others⟩
            refine ⟨⟨aligned, ?_, uniform⟩, own, others⟩
            intro next bytes follows struct known
            cases sized.symm.trans known
            exact apart next follows struct
          · rintro ⟨⟨aligned, apart, uniform⟩, own, others⟩
            exact ⟨aligned, fun next follows struct => apart next size follows struct sized, own,
              uniform, others⟩
      | @tail _ _ _ _ element _ layout memberLaid aligns unsized fits =>
          -- a runtime-sized array is refused wherever it stands
          have self := (TypeDescriptor.array element .runtime).mem_positions layout
          constructor
          · intro checked
            have own := (MemberList.checkUniformFrom_cons.mp checked).2.2.1
            have uniform := (memberLaid.checkUniformAt_eq_ok _).mp own _ self
            exact absurd rfl (uniform.counted element)
          · intro rules
            have uniform := rules.2 _ (List.mem_append_left _ self)
            exact absurd rfl (uniform.counted element)
end

/-! ## Places in memory -/

/-- A type of uniform data at a place in memory. -/
structure Placement.Uniform (place : Placement) : Prop where
  laid : LaidOut place.type place.layout
  position : UniformPosition place.type place.layout
  aligned : place.type.isAggregate = true → uniformAlignment ∣ place.offset

theorem Placement.Uniform.element {place : Placement} {size : Option Nat}
    {alignment stride : Nat} {inner : Layout} (uniform : place.Uniform)
    (array : place.layout = .array size alignment stride inner) (index : Nat) :
    uniformAlignment ∣ place.offset + index * stride := by
  have spaced := uniform.position.spaced size alignment stride inner array
  have start := uniform.aligned
  obtain ⟨offset, type, layout⟩ := place
  cases array
  cases uniform.laid
  exact Nat.dvd_add (start rfl) (Nat.dvd_mul_left_of_dvd spaced index)

mutual
/-- Where all positions follow the rules, structures and arrays stand at multiples of sixteen. -/
theorem LaidOut.uniform_placements : ∀ {type : TypeDescriptor} {layout : Layout} {offset : Nat}
    {place : Placement} (tail : Nat), LaidOut type layout →
      (∀ position ∈ type.positions layout, UniformPosition position.1 position.2) →
        (type.isAggregate = true → uniformAlignment ∣ offset) →
          place ∈ type.placements tail offset layout → place.Uniform
  | .scalar _, _, _, _, tail, laid, uniform, start, member
  | .atomic _, _, _, _, tail, laid, uniform, start, member
  | .vector _ _, _, _, _, tail, laid, uniform, start, member
  | .matrix _ _ _, _, _, _, tail, laid, uniform, start, member => by
      simp only [TypeDescriptor.placements, List.mem_singleton] at member
      subst member
      exact ⟨laid, uniform _ (TypeDescriptor.mem_positions _ _), start⟩
  | .array element length, _, offset, place, tail, laid, uniform, start, member => by
      have here : Placement.Uniform ⟨offset, .array element length, _⟩ :=
        ⟨laid, uniform _ (TypeDescriptor.mem_positions _ _), start⟩
      cases laid with
      | array elementLaid sized fits =>
          rw [TypeDescriptor.positions, List.forall_mem_cons] at uniform
          rw [TypeDescriptor.placements, List.mem_cons] at member
          rcases member with rfl | member
          · exact here
          · obtain ⟨index, _, member⟩ := List.mem_flatMap.mp member
            exact elementLaid.uniform_placements tail uniform.2
              (fun _ => here.element rfl index) member
  | .struct label members, _, offset, place, tail, laid, uniform, start, member => by
      have here : Placement.Uniform ⟨offset, .struct label members, _⟩ :=
        ⟨laid, uniform _ (TypeDescriptor.mem_positions _ _), start⟩
      cases laid with
      | struct filled membersLaid fits =>
          rw [TypeDescriptor.positions, List.forall_mem_cons] at uniform
          rw [TypeDescriptor.placements, List.mem_cons] at member
          rcases member with rfl | member
          · exact here
          · exact membersLaid.uniform_placements tail (uniformPosition_struct.mp uniform.1)
              uniform.2 (start rfl) member

theorem MembersLaidOut.uniform_placements : ∀ {members : MemberList} {free alignment : Nat}
    {run : MemberRun} {offset : Nat} {place : Placement} (tail : Nat),
    MembersLaidOut free alignment members run →
      UniformMembers members.toList run.layouts.toList →
        (∀ position ∈ members.positions run.layouts, UniformPosition position.1 position.2) →
          uniformAlignment ∣ offset → place ∈ members.placements tail offset run.layouts →
            place.Uniform
  | .nil, _, _, _, _, _, _, laid, _, _, _, member => by
      rw [MemberList.placements_nil] at member
      cases member
  | .cons name type attributes rest, _, _, _, _, _, tail, laid, rules, uniform, start,
      member => by
      cases laid with
      | cons memberLaid sized aligns spans fits restLaid =>
          have rules := uniformMembers_cons.mp rules
          rw [MemberList.positions, List.forall_mem_append] at uniform
          rw [MemberList.placements, List.mem_append] at member
          rcases member with member | member
          · exact memberLaid.uniform_placements tail uniform.1
              (fun aggregate => Nat.dvd_add start (rules.1 aggregate)) member
          · exact restLaid.uniform_placements tail rules.2.2 uniform.2 start member
      | tail memberLaid aligns unsized fits =>
          have rules := uniformMembers_cons.mp rules
          rw [MemberList.positions, List.forall_mem_append] at uniform
          rw [MemberList.placements, MemberList.placements_nil, List.append_nil] at member
          exact memberLaid.uniform_placements tail uniform.1
            (fun aggregate => Nat.dvd_add start (rules.1 aggregate)) member
end

/-- The uniform check accepts a type exactly if the type has a layout and every position nested
in it follows the rules. Then every structure, every array and every array element stands at a
multiple of sixteen bytes, as the whole does. -/
theorem checkUniform_iff (type : TypeDescriptor) :
    (type.checkUniform = .ok () ↔ ∃ layout, type.layout = .ok layout ∧
      ∀ position ∈ type.positions layout, UniformPosition position.1 position.2) ∧
    (type.checkUniform = .ok () → ∃ layout, type.layout = .ok layout ∧
      ∀ tail offset, uniformAlignment ∣ offset → ∀ place ∈ type.placements tail offset layout,
        (place.type.isAggregate = true → uniformAlignment ∣ place.offset) ∧
        ∀ size alignment stride inner index,
          place.layout = .array size alignment stride inner →
            uniformAlignment ∣ place.offset + index * stride) := by
  have accepted : type.checkUniform = .ok () ↔ ∃ layout, type.layout = .ok layout ∧
      ∀ position ∈ type.positions layout, UniformPosition position.1 position.2 := by
    rw [TypeDescriptor.checkUniform, bind_eq_ok]
    apply exists_congr
    intro layout
    apply and_congr_right
    intro computed
    exact (layout_eq_ok.mp computed).checkUniformAt_eq_ok []
  refine ⟨accepted, ?_⟩
  intro checked
  obtain ⟨layout, computed, rules⟩ := accepted.mp checked
  refine ⟨layout, computed, ?_⟩
  intro tail offset start place member
  have uniform := (layout_eq_ok.mp computed).uniform_placements tail rules (fun _ => start) member
  exact ⟨uniform.aligned, fun _ _ _ _ index array => uniform.element array index⟩

def exampleFoggyRoom : TypeDescriptor :=
  .struct none (.ofList [
    ⟨"fog", .struct none (.ofList [⟨"density", .f32, {}⟩]), { size := some 16 }⟩,
    ⟨"lamps", .array (.struct none (.ofList [
      ⟨"place", .vector .f32 .three, {}⟩,
      ⟨"colours", .array (.vector .f32 .four) (.fixed 2), {}⟩])) (.fixed 3), {}⟩,
    ⟨"time", .f32, {}⟩])

theorem checkUniform_exampleFoggyRoom : exampleFoggyRoom.checkUniform = .ok () ∧
    ∃ layout, exampleFoggyRoom.layout = .ok layout ∧
      ∀ place ∈ exampleFoggyRoom.placements 0 256 layout,
        place.type.isAggregate = true → uniformAlignment ∣ place.offset := by
  have checked : exampleFoggyRoom.checkUniform = .ok () := rfl
  obtain ⟨layout, computed, aligned⟩ := (checkUniform_iff exampleFoggyRoom).2 checked
  refine ⟨checked, layout, computed, ?_⟩
  intro place member
  exact (aligned 0 256 (by decide) place member).1

/-- The next member may not follow a structure within its rounded size. -/
example : (TypeDescriptor.struct none (.ofList [
    ⟨"fog", .struct none (.ofList [⟨"density", .f32, {}⟩]), {}⟩,
    ⟨"time", .f32, {}⟩])).checkUniform =
      .error (.uniformIncompatible [.member "time"] (.tooClose 16 "fog")) := by
  rfl

end ShaderKit
