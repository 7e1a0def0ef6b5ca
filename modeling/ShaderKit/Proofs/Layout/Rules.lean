import ShaderKit.Proofs.Layout.Rounding

/-!
# Layout rules

The layout of a type as a relation. It leaves out the place where a type is found, which
only errors mention, so a type has one layout wherever it occurs.
-/

namespace ShaderKit

inductive MemberAligns (natural : Nat) : Option Nat → Nat → Prop where
  | natural : MemberAligns natural none natural
  | asked {align : Nat} (power : isPowerOfTwo align = true) (stricter : natural ≤ align) :
      MemberAligns natural (some align) align

inductive MemberSpans (natural : Nat) : Option Nat → Nat → Prop where
  | natural : MemberSpans natural none natural
  | asked {size : Nat} (greater : natural ≤ size) : MemberSpans natural (some size) size

theorem MemberSpans.le {natural span : Nat} {asked : Option Nat}
    (spans : MemberSpans natural asked span) : natural ≤ span := by
  cases spans with
  | natural => exact Nat.le_refl natural
  | asked greater => exact greater

def ArrayLength.bytes (stride : Nat) : ArrayLength → Option Nat
  | .fixed count => some (count * stride)
  | .runtime => none

def MemberRun.size (run : MemberRun) : Option Nat :=
  run.finish.map (roundUp run.alignment)

mutual
/-- The layout that a type has. -/
inductive LaidOut : TypeDescriptor → Layout → Prop where
  | scalar (kind : ScalarKind) : LaidOut (.scalar kind) (.leaf kind.size kind.size)
  | atomic (kind : ScalarKind) : LaidOut (.atomic kind) (.leaf kind.size kind.size)
  | vector (kind : ScalarKind) (width : VectorWidth) :
      LaidOut (.vector kind width) (.ofVector kind width)
  | matrix (kind : ScalarKind) (columns rows : VectorWidth) :
      LaidOut (.matrix kind columns rows) (.ofMatrix kind columns rows)
  | array {element : TypeDescriptor} {length : ArrayLength} {inner : Layout} {size : Nat}
      (elementLaid : LaidOut element inner) (sized : inner.size = some size)
      (fits : ∀ bytes, length.bytes (roundUp inner.alignment size) = some bytes →
        bytes < addressLimit) :
      LaidOut (.array element length)
        (.array (length.bytes (roundUp inner.alignment size)) inner.alignment
          (roundUp inner.alignment size) inner)
  | struct {label : Option String} {members : MemberList} {run : MemberRun}
      (filled : members.isEmpty = false) (membersLaid : MembersLaidOut 0 1 members run)
      (fits : ∀ bytes, run.size = some bytes → bytes < addressLimit) :
      LaidOut (.struct label members) (.struct run.size run.alignment run.layouts)

inductive MembersLaidOut : (offset alignment : Nat) → MemberList → MemberRun → Prop where
  | nil {offset alignment : Nat} :
      MembersLaidOut offset alignment .nil ⟨.nil, some offset, alignment⟩
  | cons {offset alignment align size span : Nat} {name : String} {type : TypeDescriptor}
      {attributes : MemberAttributes} {rest : MemberList} {layout : Layout}
      {run : MemberRun} (memberLaid : LaidOut type layout) (sized : layout.size = some size)
      (aligns : MemberAligns layout.alignment attributes.alignBytes? align)
      (spans : MemberSpans size attributes.sizeBytes? span)
      (fits : roundUp align offset + span < addressLimit)
      (restLaid :
        MembersLaidOut (roundUp align offset + span) (max alignment align) rest run) :
      MembersLaidOut offset alignment (.cons name type attributes rest)
        { run with
          layouts := .cons name (roundUp align offset) (some span) layout run.layouts }
  | tail {offset alignment align : Nat} {name : String} {element : TypeDescriptor}
      {attributes : MemberAttributes} {layout : Layout}
      (memberLaid : LaidOut (.array element .runtime) layout)
      (aligns : MemberAligns layout.alignment attributes.alignBytes? align)
      (unsized : attributes.sizeBytes? = none) (fits : roundUp align offset < addressLimit) :
      MembersLaidOut offset alignment (.cons name (.array element .runtime) attributes .nil)
        ⟨.cons name (roundUp align offset) none layout .nil, none, max alignment align⟩
end

theorem LaidOut.size_runtimeArray {element : TypeDescriptor} {layout : Layout}
    (laid : LaidOut (.array element .runtime) layout) : layout.size = none := by
  cases laid
  rfl

/-! ## The computed layout follows the rules -/

section

variable {path : LayoutPath} {natural result : Nat} {asked : Option Nat}

theorem checkAddress_eq_ok {number : Nat} :
    checkAddress path number = .ok result ↔ number < addressLimit ∧ number = result := by
  unfold checkAddress
  split
  · next fits => simp [fits]
  · next large => simp [large]

theorem memberAlignment_eq_ok :
    memberAlignment path natural asked = .ok result ↔ MemberAligns natural asked result := by
  constructor
  · intro aligned
    unfold memberAlignment at aligned
    split at aligned
    · cases aligned
      exact .natural
    · split at aligned
      · next allowed =>
        cases aligned
        have both := Bool.and_eq_true_iff.mp allowed
        exact .asked both.1 (of_decide_eq_true both.2)
      · cases aligned
  · intro aligns
    cases aligns with
    | natural => rfl
    | asked power stricter => simp [memberAlignment, power, stricter]

theorem memberSpan_eq_ok {span : Option Nat} {natural : Option Nat} :
    memberSpan path natural asked = .ok span ↔
      (∃ size bytes, natural = some size ∧ span = some bytes ∧ MemberSpans size asked bytes) ∨
        (natural = none ∧ asked = none ∧ span = none) := by
  constructor
  · intro spanned
    unfold memberSpan at spanned
    split at spanned
    · cases spanned
      cases span with
      | none => exact .inr ⟨rfl, rfl, rfl⟩
      | some size => exact .inl ⟨size, size, rfl, rfl, .natural⟩
    · split at spanned
      · split at spanned
        · next greater =>
          cases spanned
          exact .inl ⟨_, _, rfl, rfl, .asked greater⟩
        · cases spanned
      · cases spanned
  · rintro (⟨size, bytes, rfl, rfl, spans⟩ | ⟨rfl, rfl, rfl⟩)
    · cases spans with
      | natural => rfl
      | asked greater => simp [memberSpan, greater]
    · rfl

end

@[simp] theorem ok_bind {ε α β : Type} (value : α) (next : α → Except ε β) :
    (Except.ok value >>= next) = next value :=
  rfl

theorem bind_eq_ok {ε α β : Type} {first : Except ε α} {next : α → Except ε β}
    {result : β} :
    (first >>= next) = .ok result ↔ ∃ value, first = .ok value ∧ next value = .ok result := by
  cases first with
  | error error =>
      constructor
      · intro impossible
        cases impossible
      · rintro ⟨_, impossible, _⟩
        cases impossible
  | ok value =>
      constructor
      · intro rest
        exact ⟨value, rfl, rest⟩
      · rintro ⟨_, equal, rest⟩
        cases equal
        exact rest

theorem TypeDescriptor.isRuntimeArray_iff {type : TypeDescriptor} :
    type.isRuntimeArray = true ↔ ∃ element, type = .array element .runtime := by
  constructor
  · intro runtime
    unfold isRuntimeArray at runtime
    split at runtime
    · exact ⟨_, rfl⟩
    · cases runtime
  · rintro ⟨element, rfl⟩
    rfl

theorem MemberList.isEmpty_iff {members : MemberList} :
    members.isEmpty = true ↔ members = .nil := by
  cases members <;> simp [isEmpty]

mutual
theorem laidOut_of_layoutAt : ∀ {type : TypeDescriptor} {path : LayoutPath} {layout : Layout},
    type.layoutAt path = .ok layout → LaidOut type layout
  | .scalar kind, _, _, laid => by
      cases laid
      exact .scalar kind
  | .atomic kind, _, _, laid => by
      cases laid
      exact .atomic kind
  | .vector kind width, _, _, laid => by
      cases laid
      exact .vector kind width
  | .matrix kind columns rows, _, _, laid => by
      cases laid
      exact .matrix kind columns rows
  | .array element length, path, layout, laid => by
      rw [TypeDescriptor.layoutAt, bind_eq_ok] at laid
      rcases laid with ⟨inner, innerLaid, rest⟩
      have elementLaid := laidOut_of_layoutAt innerLaid
      unfold Layout.stride at rest
      cases sized : inner.size with
      | none =>
          rw [sized] at rest
          cases rest
      | some size =>
          rw [sized] at rest
          cases length with
          | runtime =>
              cases rest
              exact .array elementLaid sized (fun _ impossible => nomatch impossible)
          | fixed count =>
              rcases bind_eq_ok.mp rest with ⟨bytes, checked, equal⟩
              rcases checkAddress_eq_ok.mp checked with ⟨fits, rfl⟩
              cases equal
              exact .array elementLaid sized (fun _ counted => Option.some.inj counted ▸ fits)
  | .struct label members, path, layout, laid => by
      rw [TypeDescriptor.layoutAt] at laid
      split at laid
      · cases laid
      next filled =>
        rcases bind_eq_ok.mp laid with ⟨run, runLaid, rest⟩
        have membersLaid := membersLaidOut_of_layoutFrom runLaid
        have filled := Bool.eq_false_iff.mpr filled
        rcases run with ⟨layouts, finish, alignment⟩
        cases finish with
        | none =>
            cases rest
            exact .struct filled membersLaid (fun _ impossible => nomatch impossible)
        | some finish =>
            rcases bind_eq_ok.mp rest with ⟨bytes, checked, equal⟩
            rcases checkAddress_eq_ok.mp checked with ⟨fits, rfl⟩
            cases equal
            exact .struct filled membersLaid
              (fun _ rounded => Option.some.inj rounded ▸ fits)

theorem membersLaidOut_of_layoutFrom : ∀ {members : MemberList} {path : LayoutPath}
    {offset alignment : Nat} {run : MemberRun},
    members.layoutFrom path offset alignment = .ok run →
      MembersLaidOut offset alignment members run
  | .nil, _, _, _, _, laid => by
      cases laid
      exact .nil
  | .cons name type attributes rest, path, offset, alignment, run, laid => by
      rw [MemberList.layoutFrom, bind_eq_ok] at laid
      rcases laid with ⟨layout, typeLaid, laid⟩
      have memberLaid := laidOut_of_layoutAt typeLaid
      split at laid
      · cases laid
      next allowed =>
        rcases bind_eq_ok.mp laid with ⟨align, aligned, laid⟩
        rcases bind_eq_ok.mp laid with ⟨span, spanned, laid⟩
        rcases bind_eq_ok.mp laid with ⟨start, started, laid⟩
        have aligns := memberAlignment_eq_ok.mp aligned
        rcases checkAddress_eq_ok.mp started with ⟨startFits, rfl⟩
        rcases memberSpan_eq_ok.mp spanned with
          ⟨size, bytes, sized, rfl, spans⟩ | ⟨unsized, unasked, rfl⟩
        · rcases bind_eq_ok.mp laid with ⟨next, checked, laid⟩
          rcases checkAddress_eq_ok.mp checked with ⟨fits, rfl⟩
          rcases bind_eq_ok.mp laid with ⟨others, othersLaid, equal⟩
          cases equal
          exact .cons memberLaid sized aligns spans fits
            (membersLaidOut_of_layoutFrom othersLaid)
        · cases laid
          simp only [unsized, Option.isNone_none, Bool.true_and, Bool.not_eq_true,
            Bool.not_eq_false', Bool.and_eq_true] at allowed
          rcases allowed with ⟨last, runtime⟩
          rcases TypeDescriptor.isRuntimeArray_iff.mp runtime with ⟨element, rfl⟩
          cases MemberList.isEmpty_iff.mp last
          exact .tail memberLaid aligns unasked startFits
end

mutual
theorem layoutAt_of_laidOut : ∀ {type : TypeDescriptor} {layout : Layout}
    (path : LayoutPath), LaidOut type layout → type.layoutAt path = .ok layout
  | .scalar _, _, _, laid | .atomic _, _, _, laid | .vector .., _, _, laid
  | .matrix .., _, _, laid => by
      cases laid
      rfl
  | .array element length, _, path, laid => by
      cases laid with
      | array elementLaid sized fits =>
          rw [TypeDescriptor.layoutAt, layoutAt_of_laidOut _ elementLaid]
          cases length with
          | runtime => simp [Layout.stride, sized, ArrayLength.bytes]
          | fixed count =>
              simp [Layout.stride, sized, checkAddress, ArrayLength.bytes, fits _ rfl]
  | .struct label members, _, path, laid => by
      cases laid with
      | struct filled membersLaid fits =>
          rw [TypeDescriptor.layoutAt, layoutFrom_of_membersLaidOut _ membersLaid]
          unfold MemberRun.size at fits ⊢
          split
          next empty => simp [filled] at empty
          next =>
            rw [ok_bind]
            split
            next finished => rw [finished, Option.map_none]
            next finish finished =>
              have below := fits (roundUp _ finish) (by rw [finished, Option.map_some])
              rw [finished, Option.map_some]
              simp [checkAddress, below]

theorem layoutFrom_of_membersLaidOut : ∀ {members : MemberList} {offset alignment : Nat}
    {run : MemberRun} (path : LayoutPath), MembersLaidOut offset alignment members run →
      members.layoutFrom path offset alignment = .ok run
  | .nil, _, _, _, _, laid => by
      cases laid
      rfl
  | .cons name type attributes rest, offset, alignment, _, path, laid => by
      cases laid with
      | cons memberLaid sized aligns spans fits restLaid =>
          rw [MemberList.layoutFrom, layoutAt_of_laidOut _ memberLaid]
          have startFits : roundUp _ offset < addressLimit :=
            Nat.lt_of_le_of_lt (Nat.le_add_right _ _) fits
          have spanned : memberSpan (path ++ [.member name]) (some _) attributes.sizeBytes? = _ :=
            memberSpan_eq_ok.mpr (.inl ⟨_, _, rfl, rfl, spans⟩)
          simp [sized, memberAlignment_eq_ok.mpr aligns, spanned, checkAddress, fits, startFits,
            layoutFrom_of_membersLaidOut path restLaid]
      | tail memberLaid aligns unsized fits =>
          rw [MemberList.layoutFrom, layoutAt_of_laidOut _ memberLaid]
          simp [memberLaid.size_runtimeArray, TypeDescriptor.isRuntimeArray,
            MemberList.isEmpty, memberAlignment_eq_ok.mpr aligns, unsized, memberSpan,
            checkAddress, fits]
end

/-- A type has the layout that the rules give it. -/
theorem layoutAt_eq_ok {type : TypeDescriptor} {path : LayoutPath} {layout : Layout} :
    type.layoutAt path = .ok layout ↔ LaidOut type layout :=
  ⟨laidOut_of_layoutAt, layoutAt_of_laidOut path⟩

theorem layout_eq_ok {type : TypeDescriptor} {layout : Layout} :
    type.layout = .ok layout ↔ LaidOut type layout :=
  layoutAt_eq_ok

/-! ## Types with and without a size -/

theorem MembersLaidOut.finish_of_allSized : ∀ {members : MemberList} {free alignment : Nat}
    {run : MemberRun}, MembersLaidOut free alignment members run → members.allSized = true →
      ∃ finish, run.finish = some finish
  | .nil, free, _, _, laid, _ => by
      cases laid
      exact ⟨free, rfl⟩
  | .cons name type attributes rest, _, _, _, laid, sized => by
      rw [MemberList.allSized, Bool.and_eq_true] at sized
      cases laid with
      | cons _ _ _ _ _ restLaid => exact restLaid.finish_of_allSized sized.2
      | tail => cases sized.1

theorem LaidOut.size_of_isSized {type : TypeDescriptor} {layout : Layout}
    (laid : LaidOut type layout) (sized : type.isSized = true) :
    ∃ size, layout.size = some size := by
  cases laid with
  | scalar | atomic | vector | matrix => exact ⟨_, rfl⟩
  | @array element length inner size elementLaid innerSized fits =>
      cases length with
      | fixed count => exact ⟨_, rfl⟩
      | runtime => cases sized
  | struct filled membersLaid fits =>
      rw [TypeDescriptor.isSized] at sized
      rcases membersLaid.finish_of_allSized sized with ⟨finish, finished⟩
      exact ⟨_, by rw [Layout.size, MemberRun.size, finished]; rfl⟩

mutual
theorem LaidOut.isSized_of_size : ∀ {type : TypeDescriptor} {layout : Layout},
    LaidOut type layout → layout.size.isSome = true → type.isSized = true
  | .scalar _, _, _, _ | .atomic _, _, _, _ | .vector .., _, _, _ | .matrix .., _, _, _ => rfl
  | .array element length, _, laid, sized => by
      cases laid
      cases length with
      | fixed count => rfl
      | runtime => cases sized
  | .struct label members, _, laid, sized => by
      cases laid with
      | struct filled membersLaid fits =>
          rw [TypeDescriptor.isSized]
          rw [Layout.size, MemberRun.size, Option.isSome_map] at sized
          exact membersLaid.allSized_of_finish sized

theorem MembersLaidOut.allSized_of_finish : ∀ {members : MemberList} {free alignment : Nat}
    {run : MemberRun}, MembersLaidOut free alignment members run →
      run.finish.isSome = true → members.allSized = true
  | .nil, _, _, _, _, _ => rfl
  | .cons name type attributes rest, _, _, _, laid, finished => by
      cases laid with
      | cons memberLaid sized _ _ _ restLaid =>
          rw [MemberList.allSized, memberLaid.isSized_of_size (sized ▸ rfl),
            restLaid.allSized_of_finish finished]
          rfl
      | tail => cases finished
end

theorem LaidOut.isSome_size {type : TypeDescriptor} {layout : Layout} (laid : LaidOut type layout) :
    layout.size.isSome = type.isSized := by
  rw [Bool.eq_iff_iff]
  constructor
  · exact laid.isSized_of_size
  · intro sized
    rcases laid.size_of_isSized sized with ⟨size, layoutSize⟩
    rw [layoutSize]
    rfl

end ShaderKit
