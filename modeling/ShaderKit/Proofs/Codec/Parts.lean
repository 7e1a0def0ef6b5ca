import ShaderKit.Codec.Update
import ShaderKit.Proofs.Codec.Reading
import ShaderKit.Proofs.Value.Paths

/-!
# Parts of stored values

A path that an update follows leads to bytes inside those of the whole. What stands there is
the part of the whole value at that path, and changing only these bytes replaces that part.
-/

namespace ShaderKit

/-! ## Paths that types allow -/

def componentStep? (kind : ScalarKind) (width : VectorWidth) (index : Nat) :
    Option (PathSegment × TypeDescriptor) :=
  if index < width.count then some (.index index, .scalar kind) else none

/-- One step inside a type: the segment that selects in its values, and the type of what it
selects. Indices are in range, and letters of vector components stand for their indices. -/
def TypeDescriptor.step? : TypeDescriptor → PathSegment → Option (PathSegment × TypeDescriptor)
  | .struct _ members, .member name =>
      (members.find? name).map fun (_, member) => (.member name, member.type)
  | .vector kind width, .member letter =>
      (componentOfLetter? letter).bind (componentStep? kind width)
  | .vector kind width, .index index => componentStep? kind width index
  | .matrix kind columns rows, .index index =>
      if index < columns.count then some (.index index, .vector kind rows) else none
  | .array element length, .index index =>
      if length.admitsIndex index then some (.index index, element) else none
  | _, _ => none

/-- The part of a type at the end of a path, and the path as it selects in values. There is
none if the path is not valid in the type. -/
def TypeDescriptor.part? : TypeDescriptor → ValuePath → Option (ValuePath × TypeDescriptor)
  | type, [] => some ([], type)
  | type, segment :: rest => do
      let (taken, inner) ← type.step? segment
      let (path, part) ← inner.part? rest
      some (taken :: path, part)
termination_by structural _ path => path

/-! ## Places -/

structure Bytes.AgreeOutside (low high : Nat) (first second : Bytes) : Prop where
  size : first.size = second.size
  same : ∀ position, position < low ∨ high ≤ position → first[position]? = second[position]?

theorem Bytes.AgreeOutside.widen {low high lower higher : Nat} {first second : Bytes}
    (agree : AgreeOutside low high first second) (below : lower ≤ low) (above : high ≤ higher) :
    AgreeOutside lower higher first second :=
  ⟨agree.size, fun position outside => agree.same position (by omega)⟩

theorem Bytes.AgreeOutside.apart {low high start stop : Nat} {first second : Bytes}
    (agree : AgreeOutside low high first second) (apart : stop ≤ low ∨ high ≤ start) :
    Agree start stop first second :=
  ⟨agree.size, fun position after before => agree.same position (by omega)⟩

namespace Place

/-- The type is laid out by the rules and takes a known number of bytes. -/
structure Laid (place : Place) : Prop where
  rules : LaidOut place.type place.layout
  sized : ∃ size, place.layout.size = some size

def stop (place : Place) : Nat :=
  place.offset + place.layout.size.getD 0

def within (outer inner : Place) : Place :=
  { inner with offset := outer.offset + inner.offset }

/-- Reading at the place finds the value. -/
def Stores (place : Place) (buffer : Bytes) (value : HostValue) : Prop :=
  ∀ path, place.type.read buffer path place.offset place.layout = .ok value

variable {outer inner middle place : Place} {buffer before after : Bytes} {value whole : HostValue}

theorem stop_of_size {size : Nat} (sized : place.layout.size = some size) :
    place.stop = place.offset + size := by
  rw [stop, sized, Option.getD_some]

theorem Laid.stores_of_agree (laid : place.Laid) (path : ValuePath)
    (agree : Bytes.Agree place.offset place.stop before after)
    (found : place.type.read before path place.offset place.layout = .ok value) :
    place.Stores after value := by
  rcases laid.sized with ⟨size, sized⟩
  rw [stop_of_size sized] at agree
  exact fun other => laid.rules.read_of_agree other sized agree found

theorem Laid.stores (laid : place.Laid) (path : ValuePath)
    (found : place.type.read buffer path place.offset place.layout = .ok value) :
    place.Stores buffer value :=
  laid.stores_of_agree path (.refl _ _ _) found

theorem Laid.exists_stores (laid : place.Laid) (room : place.stop ≤ buffer.size) :
    ∃ value, place.Stores buffer value := by
  rcases laid.sized with ⟨size, sized⟩
  rw [stop_of_size sized] at room
  rcases laid.rules.read_ok [] sized room with ⟨value, found⟩
  exact ⟨value, laid.stores [] found⟩

/-- The inner place lies in the outer one. It stores the part at the path of the value that
the outer one stores, and changing its bytes replaces that part. -/
structure PartAt (outer : Place) (path : ValuePath) (inner : Place) : Prop where
  laid : inner.Laid
  starts : outer.offset ≤ inner.offset
  stops : inner.stop ≤ outer.stop
  selects : ∀ {buffer : Bytes} {whole : HostValue}, outer.Stores buffer whole →
    ∃ part, whole.at? path = some part ∧ inner.Stores buffer part
  replaces : ∀ {before after : Bytes} {whole new : HostValue}, outer.Stores before whole →
    Bytes.AgreeOutside inner.offset inner.stop before after → inner.Stores after new →
      ∃ replaced, HostValue.setAt? new whole path = some replaced ∧ outer.Stores after replaced

theorem Laid.partAt_nil (laid : place.Laid) : place.PartAt [] place where
  laid := laid
  starts := Nat.le_refl _
  stops := Nat.le_refl _
  selects := fun stores => ⟨_, rfl, stores⟩
  replaces := fun _ _ stores => ⟨_, by simp only [HostValue.setAt?], stores⟩

theorem PartAt.cons {segment : PathSegment} {path : ValuePath}
    (first : outer.PartAt [segment] middle) (rest : middle.PartAt path inner) :
    outer.PartAt (segment :: path) inner where
  laid := rest.laid
  starts := Nat.le_trans first.starts rest.starts
  stops := Nat.le_trans rest.stops first.stops
  selects := by
    intro buffer whole stores
    rcases first.selects stores with ⟨part, found, partStores⟩
    rw [HostValue.at?_cons, found]
    exact rest.selects partStores
  replaces := by
    intro before after whole new stores agree newStores
    rcases first.selects stores with ⟨part, found, partStores⟩
    rcases rest.replaces partStores agree newStores with ⟨replaced, done, middleStores⟩
    rw [HostValue.setAt?_cons found, done]
    exact first.replaces stores (agree.widen rest.starts rest.stops) middleStores

end Place

/-! ## Components, columns and elements -/

section

variable {kind : ScalarKind} {offset index : Nat}

theorem Place.partAt_component {width : VectorWidth} (below : index < width.count) :
    Place.PartAt ⟨.vector kind width, .ofVector kind width, offset⟩ [.index index]
      ⟨.scalar kind, .leaf kind.size kind.size, offset + index * kind.size⟩ := by
  have inside := item_le below (Nat.le_refl kind.size)
  have outerLaid : Laid ⟨.vector kind width, .ofVector kind width, offset⟩ :=
    ⟨.vector kind width, _, rfl⟩
  have innerLaid : Laid ⟨.scalar kind, .leaf kind.size kind.size, offset + index * kind.size⟩ :=
    ⟨.scalar kind, _, rfl⟩
  refine ⟨innerLaid, Nat.le_add_right _ _, ?_, ?_, ?_⟩
  · rw [stop_of_size rfl, stop_of_size rfl]
    dsimp only
    omega
  · intro buffer whole stores
    rcases map_eq_ok.mp (stores []) with ⟨components, known, rfl⟩
    rcases readEach_getElem? known below with ⟨component, found, componentRead⟩
    refine ⟨.scalar component, by simp [HostValue.at?, found], ?_⟩
    apply innerLaid.stores []
    rw [TypeDescriptor.read_scalar, map_eq_ok]
    exact ⟨component, componentRead, rfl⟩
  · intro before after whole new stores agree newStores
    rcases map_eq_ok.mp (stores []) with ⟨components, known, rfl⟩
    rcases map_eq_ok.mp (newStores []) with ⟨component, componentRead, rfl⟩
    have size : index < components.length := length_readEach known ▸ below
    refine ⟨.vector (components.set index component), ?_, ?_⟩
    · simp [HostValue.setAt?, HostValue.replaceComponent, HostValue.scalar?,
        HostValue.replaceAt, size]
    · apply outerLaid.stores []
      rw [TypeDescriptor.read_vector, map_eq_ok]
      refine ⟨_, readEach_set known componentRead ?_, rfl⟩
      intro other item _ different itemRead
      have apart := agree.apart (items_apart (Nat.le_refl kind.size) different offset)
      exact apart.readScalar [] itemRead

theorem Place.partAt_column {columns rows : VectorWidth} (below : index < columns.count) :
    Place.PartAt ⟨.matrix kind columns rows, .ofMatrix kind columns rows, offset⟩ [.index index]
      ⟨.vector kind rows, .ofVector kind rows, offset + index * columnStride kind rows⟩ := by
  have fits := size_le_columnStride kind rows
  have inside := item_le below fits
  have outerLaid : Laid ⟨.matrix kind columns rows, .ofMatrix kind columns rows, offset⟩ :=
    ⟨.matrix kind columns rows, _, rfl⟩
  have innerLaid : Laid ⟨.vector kind rows, .ofVector kind rows,
      offset + index * columnStride kind rows⟩ :=
    ⟨.vector kind rows, _, rfl⟩
  refine ⟨innerLaid, Nat.le_add_right _ _, ?_, ?_, ?_⟩
  · rw [stop_of_size rfl, stop_of_size rfl]
    dsimp only
    omega
  · intro buffer whole stores
    rcases map_eq_ok.mp (stores []) with ⟨values, known, rfl⟩
    rcases readEach_getElem? known below with ⟨column, found, columnRead⟩
    refine ⟨.vector column, by simp [HostValue.at?, found], ?_⟩
    apply innerLaid.stores []
    rw [TypeDescriptor.read_vector, map_eq_ok]
    exact ⟨column, columnRead, rfl⟩
  · intro before after whole new stores agree newStores
    rcases map_eq_ok.mp (stores []) with ⟨values, known, rfl⟩
    rcases map_eq_ok.mp (newStores []) with ⟨column, columnRead, rfl⟩
    rcases readEach_getElem? known below with ⟨old, found, oldRead⟩
    have height : column.length = old.length :=
      (length_readEach columnRead).trans (length_readEach oldRead).symm
    refine ⟨.matrix (values.set index column), ?_, ?_⟩
    · rw [HostValue.setAt?_column found]
      simp [HostValue.replaceInColumn, height]
    · apply outerLaid.stores []
      rw [Layout.ofMatrix, TypeDescriptor.read_matrix, map_eq_ok]
      refine ⟨_, readEach_set known columnRead ?_, rfl⟩
      intro other item _ different itemRead
      exact (agree.apart (items_apart fits different offset)).readComponents [] itemRead

theorem Place.partAt_element {element : TypeDescriptor} {count alignment stride : Nat}
    {size : Option Nat} {inner : Layout}
    (outerLaid : Laid ⟨.array element (.fixed count), .array size alignment stride inner, offset⟩)
    (below : index < count) :
    Place.PartAt ⟨.array element (.fixed count), .array size alignment stride inner, offset⟩
      [.index index] ⟨element, inner, offset + index * stride⟩ := by
  rcases outerLaid.rules with _ | _ | _ | _ | @⟨_, _, _, bytes, elementLaid, sized, _⟩
  have fits := le_roundUp elementLaid.alignment_positive bytes
  have inside := item_le below fits
  have innerLaid : Laid ⟨element, inner, offset + index * roundUp inner.alignment bytes⟩ :=
    ⟨elementLaid, bytes, sized⟩
  refine ⟨innerLaid, Nat.le_add_right _ _, ?_, ?_, ?_⟩
  · rw [stop_of_size sized, stop_of_size rfl]
    dsimp only
    omega
  · intro buffer whole stores
    rcases map_eq_ok.mp (stores []) with ⟨elements, known, rfl⟩
    rcases readEach_getElem? known below with ⟨value, found, valueRead⟩
    exact ⟨value, by simp [HostValue.at?, found], innerLaid.stores _ valueRead⟩
  · intro before after whole new stores agree newStores
    rw [stop_of_size sized] at agree
    rcases map_eq_ok.mp (stores []) with ⟨elements, known, rfl⟩
    rcases readEach_getElem? known below with ⟨old, found, _⟩
    refine ⟨.array (elements.set index new), by simp [HostValue.setAt?, found], ?_⟩
    apply outerLaid.stores []
    rw [TypeDescriptor.read_array, map_eq_ok]
    refine ⟨_, readEach_set known (newStores _) ?_, rfl⟩
    intro other value _ different valueRead
    have apart := agree.apart (items_apart fits different offset)
    exact elementLaid.read_of_agree _ sized apart valueRead

end

/-! ## Members -/

/-- The first member of a name, at the place that the layout gives it in the structure. -/
inductive MemberAt (name : String) : MemberList → MemberLayouts → Place → Prop where
  | here {type : TypeDescriptor} {attributes : MemberAttributes} {rest : MemberList}
      {offset : Nat} {span : Option Nat} {layout : Layout} {layouts : MemberLayouts} :
      MemberAt name (.cons name type attributes rest) (.cons name offset span layout layouts)
        ⟨type, layout, offset⟩
  | there {other : String} {type : TypeDescriptor} {attributes : MemberAttributes}
      {rest : MemberList} {offset : Nat} {span : Option Nat} {layout : Layout}
      {layouts : MemberLayouts} {place : Place} (different : other ≠ name)
      (later : MemberAt name rest layouts place) :
      MemberAt name (.cons other type attributes rest) (.cons other offset span layout layouts)
        place

section

variable {name : String} {members : MemberList} {layouts : MemberLayouts} {place : Place}

theorem MemberAt.found (known : MemberAt name members layouts place) :
    (∃ position member, members.find? name = some (position, member) ∧
      member.type = place.type) ∧
    ∃ span, layouts.toList.find? (fun member => member.name == name) =
      some ⟨name, place.offset, span, place.layout⟩ := by
  induction known with
  | here =>
      refine ⟨⟨0, ⟨name, _, _⟩, by rw [MemberList.find?, if_pos rfl], rfl⟩, ?_⟩
      exact ⟨_, List.find?_cons_of_pos (beq_self_eq_true name)⟩
  | there different later induction =>
      rcases induction with ⟨⟨position, member, found, same⟩, span, foundLayout⟩
      refine ⟨⟨position + 1, member, ?_, same⟩, span, ?_⟩
      · rw [MemberList.find?, if_neg different, found]
        rfl
      · rw [MemberLayouts.toList, List.find?_cons_of_neg (by simp [different]), foundLayout]

theorem MembersLaidOut.memberAt : ∀ {members : MemberList} {free alignment position : Nat}
    {run : MemberRun} {member : Member}, MembersLaidOut free alignment members run →
      members.find? name = some (position, member) →
        ∃ place, MemberAt name members run.layouts place
  | .nil, _, _, _, _, _, _, found => by
      cases found
  | .cons other type attributes rest, _, _, _, _, _, laid, found => by
      by_cases same : other = name
      · subst same
        cases laid with
        | cons => exact ⟨_, .here⟩
        | tail => exact ⟨_, .here⟩
      · rw [MemberList.find?, if_neg same] at found
        rcases Option.map_eq_some_iff.mp found with ⟨⟨index, inner⟩, later, _⟩
        cases laid with
        | cons memberLaid sized aligns spans fits restLaid =>
            rcases restLaid.memberAt later with ⟨place, known⟩
            exact ⟨place, .there same known⟩
        | tail => cases later

theorem MemberAt.laid (known : MemberAt name members layouts place) {free alignment finish : Nat}
    {run : MemberRun} (laid : MembersLaidOut free alignment members run)
    (finished : run.finish = some finish) (same : run.layouts = layouts) :
    place.Laid ∧ free ≤ place.offset ∧ place.stop ≤ finish := by
  induction known generalizing free alignment run with
  | here =>
      cases laid with
      | @cons _ _ align size _ _ _ _ _ _ _ memberLaid sized aligns spans _ restLaid =>
          cases same
          have start := aligns.le_roundUp memberLaid.alignment_power free
          have reserved := spans.le
          have next := restLaid.free_le_finish finished
          refine ⟨⟨memberLaid, size, sized⟩, start, ?_⟩
          rw [Place.stop_of_size sized]
          dsimp only
          omega
      | tail => cases finished
  | there different later induction =>
      cases laid with
      | @cons _ _ align size _ _ _ _ _ _ _ memberLaid sized aligns spans _ restLaid =>
          cases same
          have start := aligns.le_roundUp memberLaid.alignment_power free
          rcases induction restLaid finished rfl with ⟨placeLaid, after, before⟩
          exact ⟨placeLaid, by omega, before⟩
      | tail => cases finished

variable {buffer before after : Bytes} {path : ValuePath} {offset : Nat}
  {values : List (String × HostValue)}

theorem MemberAt.selects (known : MemberAt name members layouts place)
    (found : members.readAll buffer path offset layouts = .ok values) :
    ∃ part, HostValue.memberIn? name values = some part ∧
      place.type.read buffer (path ++ [.member name]) (offset + place.offset) place.layout =
        .ok part := by
  induction known generalizing values with
  | here =>
      rcases bind_eq_ok.mp found with ⟨value, valueRead, found⟩
      rcases bind_eq_ok.mp found with ⟨others, _, same⟩
      cases same
      exact ⟨value, by rw [HostValue.memberIn?, if_pos rfl], valueRead⟩
  | there different later induction =>
      rcases bind_eq_ok.mp found with ⟨value, _, found⟩
      rcases bind_eq_ok.mp found with ⟨others, othersRead, same⟩
      cases same
      rcases induction othersRead with ⟨part, partFound, partRead⟩
      exact ⟨part, by rw [HostValue.memberIn?, if_neg different, partFound], partRead⟩

theorem MemberAt.replaces {new : HostValue} (known : MemberAt name members layouts place)
    {free alignment finish : Nat} {run : MemberRun}
    (laid : MembersLaidOut free alignment members run) (finished : run.finish = some finish)
    (same : run.layouts = layouts)
    (found : members.readAll before path offset layouts = .ok values)
    (agree : Bytes.AgreeOutside (offset + place.offset) (offset + place.stop) before after)
    (newRead : place.type.read after (path ++ [.member name]) (offset + place.offset)
      place.layout = .ok new) :
    members.readAll after path offset layouts =
      .ok (HostValue.replaceMember name new values) := by
  induction known generalizing values free alignment run with
  | here =>
      cases laid with
      | @cons _ _ align size _ _ _ _ _ _ _ memberLaid sized aligns spans _ restLaid =>
          cases same
          rcases bind_eq_ok.mp found with ⟨value, valueRead, found⟩
          rcases bind_eq_ok.mp found with ⟨others, othersRead, equal⟩
          cases equal
          rw [Place.stop_of_size sized] at agree
          dsimp only at agree
          have reserved := spans.le
          have kept := restLaid.read_of_agree path finished
            (agree.apart (.inr (by omega))) othersRead
          rw [MemberList.readAll_cons, newRead, ok_bind, kept, HostValue.replaceMember, if_pos rfl]
          rfl
      | tail => cases finished
  | @there other _ _ _ _ _ _ _ _ different later induction =>
      cases laid with
      | @cons _ _ align size _ _ _ _ _ _ _ memberLaid sized aligns spans _ restLaid =>
          cases same
          rcases bind_eq_ok.mp found with ⟨value, valueRead, found⟩
          rcases bind_eq_ok.mp found with ⟨others, othersRead, equal⟩
          cases equal
          rcases later.laid restLaid finished rfl with ⟨_, start, _⟩
          have reserved := spans.le
          have kept := memberLaid.read_of_agree (path ++ [.member other]) sized
            (agree.apart (.inl (by omega))) valueRead
          rw [MemberList.readAll_cons, kept, ok_bind, induction restLaid finished rfl othersRead agree
            newRead, HostValue.replaceMember, if_neg different]
          rfl
      | tail => cases finished

theorem Place.partAt_member {label : Option String} {size : Option Nat} {alignment : Nat}
    (outerLaid : Laid ⟨.struct label members, .struct size alignment layouts, offset⟩)
    (known : MemberAt name members layouts place) :
    Place.PartAt ⟨.struct label members, .struct size alignment layouts, offset⟩ [.member name]
      (Place.within ⟨.struct label members, .struct size alignment layouts, offset⟩ place) := by
  rcases outerLaid.sized with ⟨bytes, sized⟩
  rcases outerLaid.rules with _ | _ | _ | _ | _ | @⟨_, _, run, filled, membersLaid, fits⟩
  rcases Option.map_eq_some_iff.mp sized with ⟨finish, finished, rfl⟩
  have reach := le_roundUp membersLaid.alignment_positive finish
  rcases known.laid membersLaid finished rfl with ⟨placeLaid, _, stops⟩
  have innerLaid : Laid (within ⟨.struct label members, .struct run.size run.alignment run.layouts,
      offset⟩ place) :=
    ⟨placeLaid.rules, placeLaid.sized⟩
  have stopped : (within ⟨.struct label members, .struct run.size run.alignment run.layouts,
      offset⟩ place).stop = offset + place.stop :=
    Nat.add_assoc _ _ _
  refine ⟨innerLaid, Nat.le_add_right _ _, ?_, ?_, ?_⟩
  · rw [stopped, stop_of_size sized]
    dsimp only
    omega
  · intro buffer whole stores
    rcases map_eq_ok.mp (stores []) with ⟨values, reads, rfl⟩
    rcases known.selects reads with ⟨part, found, partRead⟩
    exact ⟨part, by simp [HostValue.at?, found], innerLaid.stores _ partRead⟩
  · intro before after whole new stores agree newStores
    rw [stopped] at agree
    rcases map_eq_ok.mp (stores []) with ⟨values, reads, rfl⟩
    rcases known.selects reads with ⟨old, found, _⟩
    have replaced := known.replaces membersLaid finished rfl reads agree (newStores _)
    refine ⟨.struct (HostValue.replaceMember name new values),
      by simp [HostValue.setAt?, found], ?_⟩
    apply outerLaid.stores []
    rw [TypeDescriptor.read_struct, map_eq_ok]
    exact ⟨_, replaced, rfl⟩

end

/-! ## Steps and paths -/

theorem Place.Laid.elementAt_cases {place : Place} (laid : place.Laid) (index : Nat) :
    (∃ inner, place.type.elementAt place.layout index = .ok inner ∧
      place.type.step? (.index index) = some (.index index, inner.type) ∧
      place.PartAt [.index index] (place.within inner)) ∨
    ∃ fault, place.type.elementAt place.layout index = .error fault ∧
      place.type.step? (.index index) = none := by
  rcases place with ⟨type, layout, offset⟩
  cases laid.rules with
  | scalar | atomic | struct => exact .inr ⟨_, rfl, rfl⟩
  | vector kind width =>
      by_cases below : index < width.count
      · exact .inl ⟨_, if_pos below, if_pos below, partAt_component below⟩
      · exact .inr ⟨_, if_neg below, if_neg below⟩
  | matrix kind columns rows =>
      by_cases below : index < columns.count
      · exact .inl ⟨_, if_pos below, if_pos below, partAt_column below⟩
      · exact .inr ⟨_, if_neg below, if_neg below⟩
  | @array element length inner size elementLaid sized fits =>
      cases length with
      | runtime =>
          rcases laid.sized with ⟨_, impossible⟩
          cases impossible
      | fixed count =>
          by_cases below : index < count
          · have admitted : (ArrayLength.fixed count).admitsIndex index = true :=
              decide_eq_true below
            exact .inl ⟨_, if_pos admitted, if_pos admitted, partAt_element laid below⟩
          · have refused : ¬ (ArrayLength.fixed count).admitsIndex index = true := by
              simpa [ArrayLength.admitsIndex] using below
            exact .inr ⟨_, if_neg refused, if_neg refused⟩

theorem Place.Laid.memberAt?_cases {place : Place} {label : Option String} {members : MemberList}
    (laid : place.Laid) (name : String) (isStruct : place.type = .struct label members) :
    (∃ inner, place.type.memberAt? place.layout name = some inner ∧
      place.type.step? (.member name) = some (.member name, inner.type) ∧
      place.PartAt [.member name] (place.within inner)) ∨
    place.type.memberAt? place.layout name = none ∧
      place.type.step? (.member name) = none := by
  rcases place with ⟨type, layout, offset⟩
  cases isStruct
  rcases laid.rules with _ | _ | _ | _ | _ | @⟨_, _, run, filled, membersLaid, fits⟩
  cases declared : members.find? name with
  | none => exact .inr ⟨by simp [TypeDescriptor.memberAt?, TypeDescriptor.members?, declared],
      by simp [TypeDescriptor.step?, declared]⟩
  | some entry =>
      rcases membersLaid.memberAt declared with ⟨inner, known⟩
      rcases known.found with ⟨⟨position, member, found, same⟩, span, foundLayout⟩
      refine .inl ⟨inner, ?_, ?_, partAt_member laid known⟩
      · simp [TypeDescriptor.memberAt?, TypeDescriptor.members?, found, Layout.member?,
          Layout.members, foundLayout, same]
      · simp [TypeDescriptor.step?, found, same]

theorem Place.Laid.stepAt_cases {place : Place} (laid : place.Laid) (segment : PathSegment) :
    (∃ inner taken, place.type.stepAt place.layout segment = .ok (inner, taken) ∧
      place.type.step? segment = some (taken, inner.type) ∧
      place.PartAt [taken] (place.within inner)) ∨
    ∃ fault, place.type.stepAt place.layout segment = .error fault ∧
      place.type.step? segment = none := by
  rcases place with ⟨type, layout, offset⟩
  cases segment with
  | index index =>
      rcases laid.elementAt_cases index with
        ⟨inner, found, allowed, part⟩ | ⟨fault, failed, refused⟩
      · exact .inl ⟨inner, _, by rw [TypeDescriptor.stepAt, found]; rfl, allowed, part⟩
      · exact .inr ⟨fault, by rw [TypeDescriptor.stepAt, failed]; rfl, refused⟩
  | member name =>
      cases type with
      | scalar | atomic | matrix | array => exact .inr ⟨_, rfl, rfl⟩
      | struct label members =>
          rcases laid.memberAt?_cases name rfl with
            ⟨inner, found, allowed, part⟩ | ⟨missing, refused⟩
          · exact .inl ⟨inner, _, by simp only [TypeDescriptor.stepAt, found], allowed, part⟩
          · exact .inr ⟨.noMember (.struct label members) name,
              by simp only [TypeDescriptor.stepAt, missing], refused⟩
      | vector kind width =>
          -- a vector has no members, so only the letters of components are left
          have missing : (TypeDescriptor.vector kind width).memberAt? layout name = none := rfl
          cases letter : componentOfLetter? name with
          | none =>
              exact .inr ⟨.noMember (.vector kind width) name,
                by simp only [TypeDescriptor.stepAt, missing, letter],
                by simp [TypeDescriptor.step?, letter]⟩
          | some index =>
              have step : (TypeDescriptor.vector kind width).step? (.member name) =
                  (TypeDescriptor.vector kind width).step? (.index index) := by
                simp [TypeDescriptor.step?, letter]
              have stepped : (TypeDescriptor.vector kind width).stepAt layout (.member name) =
                  ((TypeDescriptor.vector kind width).elementAt layout index).map
                    fun place => (place, .index index) := by
                simp only [TypeDescriptor.stepAt, missing, letter]
              dsimp only
              rw [step, stepped]
              rcases laid.elementAt_cases index with
                ⟨inner, found, allowed, part⟩ | ⟨fault, failed, refused⟩
              · exact .inl ⟨inner, _, by rw [found]; rfl, allowed, part⟩
              · exact .inr ⟨fault, by rw [failed]; rfl, refused⟩

theorem Place.Laid.locate_cases {place : Place} (laid : place.Laid) (path visited : ValuePath) :
    (∃ part taken, place.locate visited path = .ok part ∧
      place.type.part? path = some (taken, part.type) ∧ place.PartAt taken part) ∨
    ∃ error, place.locate visited path = .error error ∧ place.type.part? path = none := by
  induction path generalizing place visited with
  | nil => exact .inl ⟨place, [], rfl, rfl, laid.partAt_nil⟩
  | cons segment rest induction =>
      rw [TypeDescriptor.part?]
      unfold locate
      rcases laid.stepAt_cases segment with
        ⟨inner, taken, stepped, allowed, first⟩ | ⟨fault, stepped, refused⟩
      · rw [stepped, allowed]
        rcases induction first.laid (visited ++ [taken]) with
          ⟨part, path, located, known, others⟩ | ⟨error, failed, unknown⟩
        · refine .inl ⟨part, taken :: path, located, ?_, first.cons others⟩
          have known : inner.type.part? rest = some (path, part.type) := known
          simp [known]
        · have unknown : inner.type.part? rest = none := unknown
          exact .inr ⟨error, failed, by simp [unknown]⟩
      · rw [stepped, refused]
        exact .inr ⟨_, rfl, rfl⟩

/-! ## Places in types of any size -/

section

variable {type : TypeDescriptor} {layout : Layout} {place : Place}

theorem LaidOut.elementAt {index : Nat} (laid : LaidOut type layout)
    (found : type.elementAt layout index = .ok place) : LaidOut place.type place.layout := by
  cases laid with
  | scalar | atomic | struct => cases found
  | vector kind width =>
      simp only [TypeDescriptor.elementAt] at found
      split at found
      next => cases found; exact .scalar kind
      next => cases found
  | matrix kind columns rows =>
      simp only [TypeDescriptor.elementAt, Layout.ofMatrix] at found
      split at found
      next => cases found; exact .vector kind rows
      next => cases found
  | array elementLaid sized fits =>
      simp only [TypeDescriptor.elementAt] at found
      split at found
      next => cases found; exact elementLaid
      next => cases found

theorem MemberAt.laidOut {name : String} {members : MemberList} {layouts : MemberLayouts}
    (known : MemberAt name members layouts place) {free alignment : Nat} {run : MemberRun}
    (laid : MembersLaidOut free alignment members run) (same : run.layouts = layouts) :
    LaidOut place.type place.layout := by
  induction known generalizing free alignment run with
  | here =>
      cases laid with
      | cons memberLaid => cases same; exact memberLaid
      | tail memberLaid => cases same; exact memberLaid
  | there different later induction =>
      cases laid with
      | cons _ _ _ _ _ restLaid => cases same; exact induction restLaid rfl
      | tail => cases later

theorem MembersLaidOut.memberAt_of_memberAt? {label : Option String} {name : String}
    {members : MemberList} {free alignment whole : Nat} {size : Option Nat} {run : MemberRun}
    (laid : MembersLaidOut free alignment members run)
    (found : (TypeDescriptor.struct label members).memberAt? (.struct size whole run.layouts) name =
      some place) :
    MemberAt name members run.layouts place := by
  simp only [TypeDescriptor.memberAt?, TypeDescriptor.members?, Option.bind_eq_bind,
    Option.bind_some, Option.bind_eq_some_iff] at found
  obtain ⟨⟨position, member⟩, declared, memberLayout, stands, same⟩ := found
  obtain ⟨inner, known⟩ := laid.memberAt declared
  obtain ⟨⟨_, _, declaredAgain, sameType⟩, span, standsAgain⟩ := known.found
  simp only [Layout.member?, Layout.members, standsAgain, Option.some.injEq] at stands
  simp only [declared, Option.some.injEq, Prod.mk.injEq] at declaredAgain
  cases same
  rw [← declaredAgain.2] at sameType
  rw [← stands, sameType]
  exact known

theorem LaidOut.memberAt? {name : String} (laid : LaidOut type layout)
    (found : type.memberAt? layout name = some place) : LaidOut place.type place.layout := by
  cases laid with
  | scalar | atomic | vector | matrix | array => cases found
  | struct filled membersLaid fits =>
      exact (membersLaid.memberAt_of_memberAt? found).laidOut membersLaid rfl

theorem LaidOut.stepAt {segment taken : PathSegment} (laid : LaidOut type layout)
    (stepped : type.stepAt layout segment = .ok (place, taken)) :
    LaidOut place.type place.layout := by
  cases segment with
  | index index =>
      obtain ⟨inner, found, same⟩ := map_eq_ok.mp stepped
      cases same
      exact laid.elementAt found
  | member name =>
      simp only [TypeDescriptor.stepAt] at stepped
      split at stepped
      next found => cases stepped; exact laid.memberAt? found
      next =>
        split at stepped
        next =>
          obtain ⟨inner, found, same⟩ := map_eq_ok.mp stepped
          cases same
          exact laid.elementAt found
        next => cases stepped

/-- Following a path from a type that is laid out by the rules leads to one that is. -/
theorem Place.locate_laidOut {root : Place} {path : ValuePath} (visited : ValuePath)
    (laid : LaidOut root.type root.layout) (located : root.locate visited path = .ok place) :
    LaidOut place.type place.layout := by
  induction path generalizing root visited with
  | nil => cases located; exact laid
  | cons segment rest induction =>
      unfold locate at located
      split at located
      next => cases located
      next inner taken stepped =>
        have innerLaid := laid.stepAt stepped
        have reached : LaidOut (root.within inner).type (root.within inner).layout := innerLaid
        exact induction _ reached located

end

end ShaderKit
