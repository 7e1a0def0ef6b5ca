import ShaderKit.Proofs.Codec.Storage

/-!
# What reading depends on

Reading a type of known size looks at the bytes between its start and its end and at nothing
else, and the place that failures would name does not matter for what is found. Reading asks the
buffer for the scalars of the type in memory order and checks nothing else, so it fails at the
first one outside the runtime-sized tail that ends beyond the buffer, and only there.
-/

namespace ShaderKit

/-! ## Items one after the other -/

theorem map_eq_ok {ε α β : Type} {f : α → β} {attempt : Except ε α} {result : β} :
    attempt.map f = .ok result ↔ ∃ value, attempt = .ok value ∧ f value = result := by
  cases attempt with
  | error error =>
      constructor
      · intro impossible
        cases impossible
      · rintro ⟨_, impossible, _⟩
        cases impossible
  | ok value =>
      constructor
      · intro mapped
        exact ⟨value, rfl, Except.ok.inj mapped⟩
      · rintro ⟨_, equal, mapped⟩
        cases equal
        exact congrArg Except.ok mapped

section

variable {α : Type} {read : Nat → Except DecodeError α} {count start : Nat} {items : List α}

theorem readEach_eq_ok : readEach read count start = .ok items ↔
    items.length = count ∧
      ∀ index item, items[index]? = some item → read (start + index) = .ok item := by
  induction count generalizing start items with
  | zero =>
      constructor
      · intro found
        cases found
        exact ⟨rfl, nofun⟩
      · rintro ⟨empty, _⟩
        rw [List.length_eq_zero_iff.mp empty]
        rfl
  | succ count induction =>
      constructor
      · intro found
        rcases bind_eq_ok.mp found with ⟨first, firstRead, found⟩
        rcases bind_eq_ok.mp found with ⟨rest, restRead, same⟩
        cases same
        rcases induction.mp restRead with ⟨length, reads⟩
        refine ⟨congrArg Nat.succ length, ?_⟩
        intro index item known
        cases index with
        | zero =>
            cases known
            exact firstRead
        | succ index =>
            rw [Nat.add_comm index 1, ← Nat.add_assoc]
            exact reads index item known
      · rintro ⟨length, reads⟩
        cases items with
        | nil => cases length
        | cons first rest =>
            have later : readEach read count (start + 1) = .ok rest := by
              refine induction.mpr ⟨Nat.succ.inj length, ?_⟩
              intro index item known
              rw [Nat.add_assoc, Nat.add_comm 1]
              exact reads (index + 1) item known
            have firstRead := reads 0 first rfl
            rw [Nat.add_zero] at firstRead
            rw [readEach, firstRead, ok_bind, later]
            rfl

theorem length_readEach (found : readEach read count start = .ok items) :
    items.length = count :=
  (readEach_eq_ok.mp found).1

theorem readEach_ok_of_range
    (reads : ∀ index, start ≤ index → index < start + count → ∃ item, read index = .ok item) :
    ∃ items, readEach read count start = .ok items := by
  induction count generalizing start with
  | zero => exact ⟨[], rfl⟩
  | succ count induction =>
      rcases reads start (Nat.le_refl start) (by omega) with ⟨first, firstRead⟩
      have others : ∃ items, readEach read count (start + 1) = .ok items := by
        apply induction
        intro index after before
        exact reads index (by omega) (by omega)
      rcases others with ⟨rest, restRead⟩
      exact ⟨first :: rest, by rw [readEach, firstRead, ok_bind, restRead]; rfl⟩

theorem readEach_ok (reads : ∀ index, index < count → ∃ item, read index = .ok item) :
    ∃ items, readEach read count 0 = .ok items :=
  readEach_ok_of_range fun index _ before => reads index (Nat.zero_add count ▸ before)

theorem readEach_congr {other : Nat → Except DecodeError α}
    (found : readEach read count 0 = .ok items)
    (same : ∀ index item, index < count → read index = .ok item → other index = .ok item) :
    readEach other count 0 = .ok items := by
  rcases readEach_eq_ok.mp found with ⟨length, reads⟩
  refine readEach_eq_ok.mpr ⟨length, ?_⟩
  intro index item known
  have below : index < count := length ▸ (List.getElem?_eq_some_iff.mp known).1
  rw [Nat.zero_add]
  apply same index item below
  rw [← reads index item known, Nat.zero_add]

theorem readEach_set {other : Nat → Except DecodeError α} {changed : Nat} {new : α}
    (found : readEach read count 0 = .ok items) (changedRead : other changed = .ok new)
    (same : ∀ index item, index < count → index ≠ changed → read index = .ok item →
      other index = .ok item) :
    readEach other count 0 = .ok (items.set changed new) := by
  rcases readEach_eq_ok.mp found with ⟨length, reads⟩
  refine readEach_eq_ok.mpr ⟨by rw [List.length_set, length], ?_⟩
  intro index item known
  rw [Nat.zero_add]
  by_cases here : changed = index
  · subst here
    rw [List.getElem?_set_self'] at known
    rcases Option.map_eq_some_iff.mp known with ⟨_, _, rfl⟩
    exact changedRead
  · rw [List.getElem?_set_ne here] at known
    have below : index < count := length ▸ (List.getElem?_eq_some_iff.mp known).1
    apply same index item below (Ne.symm here)
    rw [← reads index item known, Nat.zero_add]

theorem readEach_getElem? {index : Nat} (found : readEach read count 0 = .ok items)
    (below : index < count) : ∃ item, items[index]? = some item ∧ read index = .ok item := by
  rcases readEach_eq_ok.mp found with ⟨length, reads⟩
  have known := List.getElem?_eq_getElem (length.symm ▸ below : index < items.length)
  refine ⟨_, known, ?_⟩
  rw [← reads index _ known, Nat.zero_add]

end

theorem item_le {index count size stride : Nat} (below : index < count) (fits : size ≤ stride) :
    index * stride + size ≤ count * stride := by
  have last := Nat.mul_le_mul_right stride below
  rw [Nat.succ_mul] at last
  omega

theorem items_apart {index other size stride : Nat} (fits : size ≤ stride)
    (different : other ≠ index) (offset : Nat) :
    offset + other * stride + size ≤ offset + index * stride ∨
      offset + index * stride + size ≤ offset + other * stride := by
  rcases Nat.lt_or_gt_of_ne different with below | above
  · have inside := item_le below fits
    omega
  · have inside := item_le above fits
    omega

/-! ## Buffers that agree on a range -/

structure Bytes.Agree (low high : Nat) (first second : Bytes) : Prop where
  size : first.size = second.size
  same : ∀ position, low ≤ position → position < high → first[position]? = second[position]?

namespace Bytes

variable {first second : Bytes} {low high : Nat}

theorem Agree.refl (low high : Nat) (buffer : Bytes) : Agree low high buffer buffer :=
  ⟨rfl, fun _ _ _ => rfl⟩

theorem Agree.narrow {lower higher : Nat} (agree : Agree lower higher first second)
    (above : lower ≤ low) (below : high ≤ higher) : Agree low high first second :=
  ⟨agree.size, fun position after before =>
    agree.same position (Nat.le_trans above after) (Nat.lt_of_lt_of_le before below)⟩

theorem Agree.read? {offset count : Nat} {bytes : List UInt8}
    (agree : Agree offset (offset + count) first second)
    (found : first.read? offset count = some bytes) : second.read? offset count = some bytes := by
  rw [read?_eq_some] at found ⊢
  refine ⟨agree.size ▸ found.1, found.2.1, ?_⟩
  intro index inside
  rw [← agree.same _ (Nat.le_add_right _ _) (Nat.add_lt_add_left inside offset)]
  exact found.2.2 index inside

variable {kind : ScalarKind} {offset : Nat} {path : ValuePath}

theorem readScalar_eq_ok {buffer : Bytes} {scalar : Scalar} :
    buffer.readScalar path kind offset = .ok scalar ↔
      ∃ bytes, buffer.read? offset kind.size = some bytes ∧ .ofBytes kind bytes = scalar := by
  unfold readScalar
  split
  next bytes known => simp [known]
  next unknown => simp [unknown]

theorem Agree.readScalar {scalar : Scalar} (other : ValuePath)
    (agree : Agree offset (offset + kind.size) first second)
    (found : first.readScalar path kind offset = .ok scalar) :
    second.readScalar other kind offset = .ok scalar := by
  rcases readScalar_eq_ok.mp found with ⟨bytes, known, same⟩
  exact readScalar_eq_ok.mpr ⟨bytes, agree.read? known, same⟩

theorem Agree.readComponents {count : Nat} {components : Components} (other : ValuePath)
    (agree : Agree offset (offset + count * kind.size) first second)
    (found : first.readComponents path kind count offset = .ok components) :
    second.readComponents other kind count offset = .ok components := by
  apply readEach_congr found
  intro index component below known
  have inside := item_le below (Nat.le_refl kind.size)
  exact (agree.narrow (by omega) (by omega)).readScalar other known

theorem readScalar_ok {buffer : Bytes} (path : ValuePath)
    (room : offset + kind.size ≤ buffer.size) :
    ∃ scalar, buffer.readScalar path kind offset = .ok scalar := by
  have found : buffer.read? offset kind.size =
      some (buffer.extract offset (offset + kind.size)).toList := if_pos room
  exact ⟨_, readScalar_eq_ok.mpr ⟨_, found, rfl⟩⟩

end Bytes

/-! ## Reads that go through scalars -/

def Span.firstBeyond (available : Nat) (spans : List Span) : Option Span :=
  spans.find? fun span => available < span.finish

theorem Span.firstBeyond_eq_none {available : Nat} {spans : List Span} :
    firstBeyond available spans = none ↔ ∀ span ∈ spans, span.finish ≤ available := by
  simp [firstBeyond]

/-- A read of a buffer of `available` bytes that goes through the given scalars. It fails at the
first one that ends beyond the buffer, and nowhere else. -/
structure GoesThrough {α : Type} (available : Nat) (spans : List Span)
    (read : Except DecodeError α) : Prop where
  succeeds : (∀ span ∈ spans, span.finish ≤ available) → ∃ value, read = .ok value
  fails : ∀ span, Span.firstBeyond available spans = some span →
    ∃ path, read = .error (.outOfBounds path span.offset span.kind.size available)

namespace GoesThrough

variable {α β : Type} {available : Nat} {spans others : List Span} {read : Except DecodeError α}

theorem nothing (found : ∃ value, read = .ok value) : GoesThrough available [] read :=
  ⟨fun _ => found, nofun⟩

theorem map (through : GoesThrough available spans read) (view : α → β) :
    GoesThrough available spans (read.map view) where
  succeeds fit := by
    obtain ⟨value, rfl⟩ := through.succeeds fit
    exact ⟨view value, rfl⟩
  fails span first := by
    obtain ⟨path, rfl⟩ := through.fails span first
    exact ⟨path, rfl⟩

theorem bind {next : α → Except DecodeError β} (through : GoesThrough available spans read)
    (rest : ∀ value, GoesThrough available others (next value)) :
    GoesThrough available (spans ++ others) (read >>= next) where
  succeeds fit := by
    obtain ⟨value, rfl⟩ := through.succeeds fun span member =>
      fit span (List.mem_append_left others member)
    exact (rest value).succeeds fun span member => fit span (List.mem_append_right spans member)
  fails span first := by
    rw [Span.firstBeyond, List.find?_append, Option.or_eq_some_iff] at first
    rcases first with early | ⟨none, late⟩
    · obtain ⟨path, rfl⟩ := through.fails span early
      exact ⟨path, rfl⟩
    · obtain ⟨value, rfl⟩ := through.succeeds (Span.firstBeyond_eq_none.mp none)
      exact (rest value).fails span late

theorem readEach {read : Nat → Except DecodeError α} (group : Nat → List Span)
    (each : ∀ index, GoesThrough available (group index) (read index)) (count start : Nat) :
    GoesThrough available ((List.range' start count).flatMap group)
      (readEach read count start) := by
  induction count generalizing start with
  | zero => exact nothing ⟨[], rfl⟩
  | succ count induction =>
      rw [List.range'_succ, List.flatMap_cons]
      apply (each start).bind
      intro item
      exact (induction (start + 1)).map (item :: ·)

variable (buffer : Bytes) (path : ValuePath) (kind : ScalarKind) (offset : Nat)

theorem readScalar :
    GoesThrough buffer.size [⟨offset, kind⟩] (buffer.readScalar path kind offset) where
  succeeds fit := Bytes.readScalar_ok path (fit _ List.mem_cons_self)
  fails span first := by
    obtain ⟨beyond, same⟩ := List.find?_cons_eq_some.mp first |>.resolve_right (by simp)
    cases same
    have beyond : ¬ offset + kind.size ≤ buffer.size :=
      Nat.not_le_of_lt (of_decide_eq_true beyond)
    exact ⟨path, by rw [Bytes.readScalar, Bytes.read?, if_neg beyond]⟩

theorem readComponents (count : Nat) :
    GoesThrough buffer.size (componentLeaves kind offset count)
      (buffer.readComponents path kind count offset) := by
  rw [componentLeaves, List.map_eq_flatMap]
  exact readEach _ (fun index => readScalar buffer path kind (offset + index * kind.size)) count 0

end GoesThrough

/-! ## Reading a type of known size -/

mutual
/-- What is read from one buffer is read from every buffer with the same bytes there. -/
theorem LaidOut.read_of_agree : ∀ {type : TypeDescriptor} {layout : Layout} {size offset : Nat}
    {first second : Bytes} {path : ValuePath} {value : HostValue} (other : ValuePath),
    LaidOut type layout → layout.size = some size →
      Bytes.Agree offset (offset + size) first second →
        type.read first path offset layout = .ok value →
          type.read second other offset layout = .ok value
  | .scalar kind, _, _, _, _, _, _, _, other, laid, sized, agree, found
  | .atomic kind, _, _, _, _, _, _, _, other, laid, sized, agree, found => by
      cases laid
      cases sized
      simp only [TypeDescriptor.read_scalar, TypeDescriptor.read_atomic, map_eq_ok] at found ⊢
      rcases found with ⟨scalar, known, same⟩
      exact ⟨scalar, agree.readScalar other known, same⟩
  | .vector kind width, _, _, _, _, _, _, _, other, laid, sized, agree, found => by
      cases laid
      cases sized
      rw [TypeDescriptor.read_vector, map_eq_ok] at found ⊢
      rcases found with ⟨components, known, same⟩
      exact ⟨components, agree.readComponents other known, same⟩
  | .matrix kind columns rows, _, _, _, _, _, _, _, other, laid, sized, agree, found => by
      cases laid
      cases sized
      rw [Layout.ofMatrix, TypeDescriptor.read_matrix, map_eq_ok] at found ⊢
      rcases found with ⟨values, known, same⟩
      refine ⟨values, readEach_congr known ?_, same⟩
      intro index column below columnRead
      have inside := item_le below (size_le_columnStride kind rows)
      exact (agree.narrow (by omega) (by omega)).readComponents other columnRead
  | .array element length, _, _, _, _, _, _, _, other, laid, sized, agree, found => by
      cases laid with
      | @array _ _ inner size elementLaid innerSized fits =>
          cases length with
          | runtime => cases sized
          | fixed count =>
              cases sized
              rw [TypeDescriptor.read_array, map_eq_ok] at found ⊢
              rcases found with ⟨elements, known, same⟩
              refine ⟨elements, readEach_congr known ?_, same⟩
              intro index value (below : index < count) elementRead
              have inside := item_le below (le_roundUp elementLaid.alignment_positive size)
              exact elementLaid.read_of_agree _ innerSized (agree.narrow (by omega) (by omega))
                elementRead
  | .struct label members, _, _, _, _, _, _, _, other, laid, sized, agree, found => by
      cases laid with
      | @struct _ _ run filled membersLaid fits =>
          rcases Option.map_eq_some_iff.mp sized with ⟨finish, finished, rfl⟩
          have reach := le_roundUp membersLaid.alignment_positive finish
          rw [TypeDescriptor.read_struct, map_eq_ok] at found ⊢
          rcases found with ⟨values, known, same⟩
          refine ⟨values, ?_, same⟩
          exact membersLaid.read_of_agree other finished
            (agree.narrow (by omega) (by omega)) known

theorem MembersLaidOut.read_of_agree : ∀ {members : MemberList} {free alignment finish : Nat}
    {run : MemberRun} {offset : Nat} {first second : Bytes} {path : ValuePath}
    {values : List (String × HostValue)} (other : ValuePath),
    MembersLaidOut free alignment members run → run.finish = some finish →
      Bytes.Agree (offset + free) (offset + finish) first second →
        members.readAll first path offset run.layouts = .ok values →
          members.readAll second other offset run.layouts = .ok values
  | .nil, _, _, _, _, _, _, _, _, _, _, laid, _, _, found => by
      cases laid
      exact found
  | .cons name type attributes rest, free, _, _, _, _, _, _, _, _, other, laid, finished, agree,
      found => by
      cases laid with
      | @cons _ _ align _ _ _ _ _ _ _ _ memberLaid sized aligns spans _ restLaid =>
          rw [MemberList.readAll_cons] at found ⊢
          rcases bind_eq_ok.mp found with ⟨value, valueRead, found⟩
          rcases bind_eq_ok.mp found with ⟨others, othersRead, same⟩
          have start := aligns.le_roundUp memberLaid.alignment_power free
          have reserved := spans.le
          have next := restLaid.free_le_finish finished
          rw [memberLaid.read_of_agree _ sized (agree.narrow (by omega) (by omega)) valueRead,
            ok_bind, restLaid.read_of_agree other finished
              (agree.narrow (by omega) (Nat.le_refl _)) othersRead]
          exact same
      | tail => cases finished
end

/-! ## Reading goes through the scalars of a type -/

theorem LaidOut.leaves_le {type : TypeDescriptor} {layout : Layout}
    {size tail offset available : Nat} (laid : LaidOut type layout)
    (sized : layout.size = some size) (room : offset + size ≤ available) :
    ∀ span ∈ type.leaves tail offset layout, span.finish ≤ available := by
  intro span member
  have inside := (laid.ordered tail offset).inside member
  rw [Layout.extent_of_size tail sized] at inside
  exact Nat.le_trans inside.2 room

theorem available_item_le {index bufferSize offset stride size : Nat}
    (below : index < ArrayLength.runtime.available bufferSize offset stride)
    (fits : size ≤ stride) : offset + index * stride + size ≤ bufferSize := by
  have counted : ArrayLength.runtime.available bufferSize offset stride =
      (bufferSize - offset) / max stride 1 := rfl
  rw [counted] at below
  have inside := item_le below (Nat.le_trans fits (Nat.le_max_left stride 1))
  have whole := Nat.div_mul_le_self (bufferSize - offset) (max stride 1)
  have steps := Nat.mul_le_mul_left index (Nat.le_max_left stride 1)
  have some := Nat.lt_of_lt_of_le (Nat.zero_lt_of_lt below)
    (Nat.div_le_self (bufferSize - offset) (max stride 1))
  omega

mutual
theorem LaidOut.read_goesThrough : ∀ {type : TypeDescriptor} {layout : Layout} (buffer : Bytes)
    (path : ValuePath) (offset : Nat), LaidOut type layout →
      GoesThrough buffer.size (type.leaves 0 offset layout)
        (type.read buffer path offset layout)
  | .scalar kind, _, buffer, path, offset, _ => by
      rw [TypeDescriptor.leaves_scalar, TypeDescriptor.read_scalar]
      exact (GoesThrough.readScalar buffer path kind offset).map _
  | .atomic kind, _, buffer, path, offset, _ => by
      rw [TypeDescriptor.leaves_atomic, TypeDescriptor.read_atomic]
      exact (GoesThrough.readScalar buffer path kind offset).map _
  | .vector kind width, _, buffer, path, offset, _ => by
      rw [TypeDescriptor.leaves_vector, TypeDescriptor.read_vector]
      exact (GoesThrough.readComponents buffer path kind offset width.count).map _
  | .matrix kind columns rows, _, buffer, path, offset, laid => by
      cases laid
      rw [Layout.ofMatrix, TypeDescriptor.leaves_matrix, TypeDescriptor.read_matrix]
      apply GoesThrough.map
      exact .readEach _ (fun _ => .readComponents buffer path kind _ rows.count) columns.count 0
  | .array element .runtime, _, buffer, path, offset, laid => by
      cases laid with
      | @array _ _ inner size elementLaid sized fits =>
          -- the elements are those that fit, so reading them goes through nothing that can fail
          have elements : ∃ values, readEach (fun index => element.read buffer
              (path ++ [.index index]) (offset + index * roundUp inner.alignment size) inner)
              (ArrayLength.runtime.available buffer.size offset (roundUp inner.alignment size))
              0 = .ok values := by
            apply readEach_ok
            intro index below
            apply (elementLaid.read_goesThrough buffer _ _).succeeds
            apply elementLaid.leaves_le sized
            exact available_item_le below (le_roundUp elementLaid.alignment_positive size)
          rw [TypeDescriptor.leaves_array, TypeDescriptor.read_array]
          exact (GoesThrough.nothing elements).map _
  | .array element (.fixed count), _, buffer, path, offset, laid => by
      cases laid with
      | array elementLaid sized fits =>
          rw [TypeDescriptor.leaves_array, TypeDescriptor.read_array]
          apply GoesThrough.map
          exact .readEach _ (fun _ => elementLaid.read_goesThrough buffer _ _) count 0
  | .struct label members, _, buffer, path, offset, laid => by
      cases laid with
      | struct filled membersLaid fits =>
          rw [TypeDescriptor.leaves_struct, TypeDescriptor.read_struct]
          exact (membersLaid.readAll_goesThrough buffer path offset).map _

theorem MembersLaidOut.readAll_goesThrough : ∀ {members : MemberList} {free alignment : Nat}
    {run : MemberRun} (buffer : Bytes) (path : ValuePath) (offset : Nat),
    MembersLaidOut free alignment members run →
      GoesThrough buffer.size (members.leaves 0 offset run.layouts)
        (members.readAll buffer path offset run.layouts)
  | .nil, _, _, _, _, _, _, laid => by
      cases laid
      rw [MemberList.leaves_nil]
      exact .nothing ⟨[], rfl⟩
  | .cons name type attributes rest, _, _, _, buffer, path, offset, laid => by
      cases laid with
      | cons memberLaid sized aligns spans fits restLaid =>
          rw [MemberList.leaves_cons, MemberList.readAll_cons]
          apply (memberLaid.read_goesThrough buffer _ _).bind
          intro value
          exact (restLaid.readAll_goesThrough buffer path offset).map ((name, value) :: ·)
      | tail memberLaid aligns unsized fits =>
          rw [MemberList.leaves_cons, MemberList.leaves_nil, MemberList.readAll_cons]
          apply (memberLaid.read_goesThrough buffer _ _).bind
          intro value
          exact .nothing ⟨_, rfl⟩
end

/-- A type of known size can be read wherever it is inside the buffer. -/
theorem LaidOut.read_ok {type : TypeDescriptor} {layout : Layout} {size offset : Nat}
    {buffer : Bytes} (path : ValuePath) (laid : LaidOut type layout)
    (sized : layout.size = some size) (room : offset + size ≤ buffer.size) :
    ∃ value, type.read buffer path offset layout = .ok value :=
  (laid.read_goesThrough buffer path offset).succeeds (laid.leaves_le sized room)

end ShaderKit
