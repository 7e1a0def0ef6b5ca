import Mathlib.Order.Bounds.Basic
import ShaderKit.Proofs.Layout.Leaves

/-!
# Layouts over unbounded numbers

The rules of WGSL for sizes, alignments and offsets, with least multiples in place of any way to
compute them and without a limit for addresses. A type has a computed layout exactly if it can
be arranged by these rules and everything in the arrangement fits an address, and the computed
layout is that arrangement.
-/

namespace ShaderKit

/-! ## Least multiples -/

/-- The least multiple of an alignment that is not below a bound. -/
def LeastMultiple (alignment bound number : Nat) : Prop :=
  IsLeast {multiple | alignment ∣ multiple ∧ bound ≤ multiple} number

theorem leastMultiple_roundUp {alignment : Nat} (positive : 0 < alignment) (bound : Nat) :
    LeastMultiple alignment bound (roundUp alignment bound) :=
  ⟨⟨dvd_roundUp alignment bound, le_roundUp positive bound⟩,
    fun _ other => roundUp_le positive other.1 other.2⟩

theorem LeastMultiple.eq_roundUp {alignment bound number : Nat}
    (least : LeastMultiple alignment bound number) (positive : 0 < alignment) :
    number = roundUp alignment bound :=
  IsLeast.unique least (leastMultiple_roundUp positive bound)

/-! ## Arrangements -/

mutual
/-- A type arranged by the rules of WGSL. -/
inductive Arranged : TypeDescriptor → Layout → Prop where
  | scalar (kind : ScalarKind) : Arranged (.scalar kind) (.leaf kind.size kind.size)
  | atomic (kind : ScalarKind) : Arranged (.atomic kind) (.leaf kind.size kind.size)
  | vector (kind : ScalarKind) (width : VectorWidth) :
      Arranged (.vector kind width)
        (.leaf (width.count * kind.size) (width.alignFactor * kind.size))
  | matrix {kind : ScalarKind} {columns rows : VectorWidth} {stride : Nat}
      (spaced : LeastMultiple (rows.alignFactor * kind.size) (rows.count * kind.size) stride) :
      Arranged (.matrix kind columns rows)
        (.matrix (columns.count * stride) (rows.alignFactor * kind.size) stride)
  | array {element : TypeDescriptor} {length : ArrayLength} {inner : Layout} {size stride : Nat}
      (elementArranged : Arranged element inner) (sized : inner.size = some size)
      (spaced : LeastMultiple inner.alignment size stride) :
      Arranged (.array element length)
        (.array (length.bytes stride) inner.alignment stride inner)
  | struct {label : Option String} {members : MemberList} {run : MemberRun} {size : Option Nat}
      (filled : members ≠ .nil) (membersArranged : MembersArranged 0 1 members run)
      (padded : Option.Rel (LeastMultiple run.alignment) run.finish size) :
      Arranged (.struct label members) (.struct size run.alignment run.layouts)

/-- Consecutive members arranged from a free offset and an alignment on. A member without a size
is a runtime-sized array and the last one. -/
inductive MembersArranged : (offset alignment : Nat) → MemberList → MemberRun → Prop where
  | nil {offset alignment : Nat} :
      MembersArranged offset alignment .nil ⟨.nil, some offset, alignment⟩
  | cons {offset alignment align size span start : Nat} {name : String} {type : TypeDescriptor}
      {attributes : MemberAttributes} {rest : MemberList} {layout : Layout} {run : MemberRun}
      (memberArranged : Arranged type layout) (sized : layout.size = some size)
      (aligns : MemberAligns layout.alignment attributes.alignBytes? align)
      (spans : MemberSpans size attributes.sizeBytes? span)
      (starts : LeastMultiple align offset start)
      (restArranged : MembersArranged (start + span) (max alignment align) rest run) :
      MembersArranged offset alignment (.cons name type attributes rest)
        { run with layouts := .cons name start (some span) layout run.layouts }
  | tail {offset alignment align start : Nat} {name : String} {element : TypeDescriptor}
      {attributes : MemberAttributes} {layout : Layout}
      (memberArranged : Arranged (.array element .runtime) layout)
      (aligns : MemberAligns layout.alignment attributes.alignBytes? align)
      (unsized : attributes.sizeBytes? = none) (starts : LeastMultiple align offset start) :
      MembersArranged offset alignment (.cons name (.array element .runtime) attributes .nil)
        ⟨.cons name start none layout .nil, none, max alignment align⟩
end

mutual
/-- Every offset, member end, array size and structure size in the layout fits an address. -/
def Layout.Fits : Layout → Prop
  | .leaf .. | .matrix .. => True
  | .array size _ _ element => (∀ bytes, size = some bytes → bytes < addressLimit) ∧ element.Fits
  | .struct size _ members => (∀ bytes, size = some bytes → bytes < addressLimit) ∧ members.Fit

def MemberLayouts.Fit : MemberLayouts → Prop
  | .nil => True
  | .cons _ offset span layout rest =>
      offset < addressLimit ∧ (∀ bytes, span = some bytes → offset + bytes < addressLimit) ∧
        layout.Fits ∧ rest.Fit
end

/-! ## A type has one arrangement -/

theorem MemberAligns.unique {natural align other : Nat} {asked : Option Nat}
    (aligns : MemberAligns natural asked align) (others : MemberAligns natural asked other) :
    align = other := by
  cases aligns <;> cases others <;> rfl

theorem MemberSpans.unique {natural span other : Nat} {asked : Option Nat}
    (spans : MemberSpans natural asked span) (others : MemberSpans natural asked other) :
    span = other := by
  cases spans <;> cases others <;> rfl

theorem LeastMultiple.option_unique {alignment : Nat} {bound number other : Option Nat}
    (least : Option.Rel (LeastMultiple alignment) bound number)
    (leastOther : Option.Rel (LeastMultiple alignment) bound other) : number = other := by
  cases least with
  | none =>
      cases leastOther
      rfl
  | some least =>
      cases leastOther with
      | some leastOther => rw [IsLeast.unique least leastOther]

mutual
theorem Arranged.unique : ∀ {type : TypeDescriptor} {layout other : Layout},
    Arranged type layout → Arranged type other → layout = other
  | .scalar kind, _, _, arranged, others | .atomic kind, _, _, arranged, others
  | .vector kind width, _, _, arranged, others => by
      cases arranged
      cases others
      rfl
  | .matrix kind columns rows, _, _, arranged, others => by
      cases arranged with
      | matrix spaced =>
          cases others with
          | matrix otherSpaced => rw [IsLeast.unique spaced otherSpaced]
  | .array element length, _, _, arranged, others => by
      cases arranged with
      | array elementArranged sized spaced =>
          cases others with
          | array otherElement otherSized otherSpaced =>
              cases elementArranged.unique otherElement
              cases sized.symm.trans otherSized
              rw [IsLeast.unique spaced otherSpaced]
  | .struct label members, _, _, arranged, others => by
      cases arranged with
      | struct filled membersArranged padded =>
          cases others with
          | struct _ otherMembers otherPadded =>
              cases membersArranged.unique otherMembers
              rw [LeastMultiple.option_unique padded otherPadded]

theorem MembersArranged.unique : ∀ {members : MemberList} {free alignment : Nat}
    {run other : MemberRun}, MembersArranged free alignment members run →
      MembersArranged free alignment members other → run = other
  | .nil, _, _, _, _, arranged, others => by
      cases arranged
      cases others
      rfl
  | .cons name type attributes rest, _, _, _, _, arranged, others => by
      cases arranged with
      | cons memberArranged sized aligns spans starts restArranged =>
          cases others with
          | cons otherMember otherSized otherAligns otherSpans otherStarts otherRest =>
              cases memberArranged.unique otherMember
              cases sized.symm.trans otherSized
              cases aligns.unique otherAligns
              cases spans.unique otherSpans
              cases IsLeast.unique starts otherStarts
              cases restArranged.unique otherRest
              rfl
          | tail otherMember =>
              cases memberArranged.unique otherMember
              cases otherMember
              cases sized
      | tail memberArranged aligns unsized starts =>
          cases others with
          | cons otherMember otherSized =>
              cases memberArranged.unique otherMember
              cases otherMember
              cases otherSized
          | tail otherMember otherAligns _ otherStarts =>
              cases memberArranged.unique otherMember
              cases aligns.unique otherAligns
              cases IsLeast.unique starts otherStarts
              rfl
end

/-! ## Computed layouts are arrangements -/

theorem MemberRun.padded_size {run : MemberRun} (positive : 0 < run.alignment) :
    Option.Rel (LeastMultiple run.alignment) run.finish run.size := by
  unfold size
  cases run.finish with
  | none => exact .none
  | some finish => exact .some (leastMultiple_roundUp positive finish)

theorem MemberRun.size_of_padded {run : MemberRun} {size : Option Nat}
    (padded : Option.Rel (LeastMultiple run.alignment) run.finish size)
    (positive : 0 < run.alignment) : size = run.size := by
  unfold MemberRun.size
  generalize run.finish = finish at padded
  cases padded with
  | none => rfl
  | some least => rw [least.eq_roundUp positive, Option.map_some]

mutual
theorem LaidOut.arranged : ∀ {type : TypeDescriptor} {layout : Layout}, LaidOut type layout →
    Arranged type layout ∧ layout.Fits
  | .scalar kind, _, laid => by
      cases laid
      exact ⟨.scalar kind, trivial⟩
  | .atomic kind, _, laid => by
      cases laid
      exact ⟨.atomic kind, trivial⟩
  | .vector kind width, _, laid => by
      cases laid
      exact ⟨.vector kind width, trivial⟩
  | .matrix kind columns rows, _, laid => by
      cases laid
      exact ⟨.matrix (leastMultiple_roundUp (vectorAlignment_positive kind rows) _), trivial⟩
  | .array element length, _, laid => by
      cases laid with
      | @array _ _ inner size elementLaid sized fits =>
          have ⟨elementArranged, elementFits⟩ := elementLaid.arranged
          have spaced := leastMultiple_roundUp elementLaid.alignment_positive size
          exact ⟨.array elementArranged sized spaced, fits, elementFits⟩
  | .struct label members, _, laid => by
      cases laid with
      | struct filled membersLaid fits =>
          have ⟨membersArranged, membersFit⟩ := membersLaid.arranged
          have padded := MemberRun.padded_size membersLaid.alignment_positive
          refine ⟨.struct ?_ membersArranged padded, fits, membersFit⟩
          rintro rfl
          cases filled

theorem MembersLaidOut.arranged : ∀ {members : MemberList} {free alignment : Nat}
    {run : MemberRun}, MembersLaidOut free alignment members run →
      MembersArranged free alignment members run ∧ run.layouts.Fit
  | .nil, _, _, _, laid => by
      cases laid
      exact ⟨.nil, trivial⟩
  | .cons name type attributes rest, free, _, _, laid => by
      cases laid with
      | cons memberLaid sized aligns spans fits restLaid =>
          have ⟨memberArranged, memberFits⟩ := memberLaid.arranged
          have ⟨restArranged, restFit⟩ := restLaid.arranged
          have positive := aligns.positive memberLaid.alignment_power
          have starts := leastMultiple_roundUp positive free
          refine ⟨.cons memberArranged sized aligns spans starts restArranged, ?_, ?_,
            memberFits, restFit⟩
          · exact Nat.lt_of_le_of_lt (Nat.le_add_right _ _) fits
          · intro bytes reserved
            exact Option.some.inj reserved ▸ fits
      | tail memberLaid aligns unsized fits =>
          have ⟨memberArranged, memberFits⟩ := memberLaid.arranged
          have positive := aligns.positive memberLaid.alignment_power
          have starts := leastMultiple_roundUp positive free
          exact ⟨.tail memberArranged aligns unsized starts, fits, nofun, memberFits, trivial⟩
end

mutual
theorem Arranged.laidOut : ∀ {type : TypeDescriptor} {layout : Layout}, Arranged type layout →
    layout.Fits → LaidOut type layout
  | .scalar kind, _, arranged, _ => by
      cases arranged
      exact .scalar kind
  | .atomic kind, _, arranged, _ => by
      cases arranged
      exact .atomic kind
  | .vector kind width, _, arranged, _ => by
      cases arranged
      exact .vector kind width
  | .matrix kind columns rows, _, arranged, _ => by
      cases arranged with
      | matrix spaced =>
          rw [spaced.eq_roundUp (vectorAlignment_positive kind rows)]
          exact .matrix kind columns rows
  | .array element length, _, arranged, fits => by
      cases arranged with
      | array elementArranged sized spaced =>
          have elementLaid := elementArranged.laidOut fits.2
          cases spaced.eq_roundUp elementLaid.alignment_positive
          exact .array elementLaid sized fits.1
  | .struct label members, _, arranged, fits => by
      cases arranged with
      | struct filled membersArranged padded =>
          have membersLaid := membersArranged.laidOut fits.2
          cases MemberRun.size_of_padded padded membersLaid.alignment_positive
          refine .struct ?_ membersLaid fits.1
          rw [Bool.eq_false_iff, ne_eq, MemberList.isEmpty_iff]
          exact filled

theorem MembersArranged.laidOut : ∀ {members : MemberList} {free alignment : Nat}
    {run : MemberRun}, MembersArranged free alignment members run → run.layouts.Fit →
      MembersLaidOut free alignment members run
  | .nil, _, _, _, arranged, _ => by
      cases arranged
      exact .nil
  | .cons name type attributes rest, free, _, _, arranged, fit => by
      cases arranged with
      | cons memberArranged sized aligns spans starts restArranged =>
          have ⟨_, ends, memberFits, restFit⟩ := fit
          have memberLaid := memberArranged.laidOut memberFits
          cases starts.eq_roundUp (aligns.positive memberLaid.alignment_power)
          exact .cons memberLaid sized aligns spans (ends _ rfl) (restArranged.laidOut restFit)
      | tail memberArranged aligns unsized starts =>
          have ⟨begins, _, memberFits, _⟩ := fit
          have memberLaid := memberArranged.laidOut memberFits
          cases starts.eq_roundUp (aligns.positive memberLaid.alignment_power)
          exact .tail memberLaid aligns unsized begins
end

/-- The computed layout is the arrangement of the type, if everything in it fits an address. -/
theorem layout_eq_ok_iff_arranged {type : TypeDescriptor} {layout : Layout} :
    type.layout = .ok layout ↔ Arranged type layout ∧ layout.Fits := by
  rw [layout_eq_ok]
  constructor
  · exact LaidOut.arranged
  · rintro ⟨arranged, fits⟩
    exact arranged.laidOut fits

end ShaderKit
