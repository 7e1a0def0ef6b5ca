import ShaderKit.Proofs.Layout.Rules

/-!
# Alignments

Every alignment is a power of two, and the sizes of composites are multiples of it.
-/

namespace ShaderKit

/-! ## Powers of two -/

theorem MemberAligns.power {natural align : Nat} {asked : Option Nat}
    (aligns : MemberAligns natural asked align) (power : isPowerOfTwo natural = true) :
    isPowerOfTwo align = true := by
  cases aligns with
  | natural => exact power
  | asked askedPower _ => exact askedPower

theorem MemberAligns.dvd {natural align : Nat} {asked : Option Nat}
    (aligns : MemberAligns natural asked align) (power : isPowerOfTwo natural = true) :
    natural ∣ align := by
  cases aligns with
  | natural => exact Nat.dvd_refl natural
  | asked askedPower stricter => exact isPowerOfTwo.dvd_of_le power askedPower stricter

theorem MemberAligns.positive {natural align : Nat} {asked : Option Nat}
    (aligns : MemberAligns natural asked align) (power : isPowerOfTwo natural = true) :
    0 < align :=
  isPowerOfTwo.positive (aligns.power power)

theorem MemberAligns.le_roundUp {natural align : Nat} {asked : Option Nat}
    (aligns : MemberAligns natural asked align) (power : isPowerOfTwo natural = true)
    (offset : Nat) : offset ≤ roundUp align offset :=
  ShaderKit.le_roundUp (aligns.positive power) offset

theorem MemberAligns.dvd_start {natural align whole offset : Nat} {asked : Option Nat}
    (aligns : MemberAligns natural asked align) (power : isPowerOfTwo natural = true)
    (own : align ∣ whole) (multiple : whole ∣ offset) (free : Nat) :
    natural ∣ offset + roundUp align free := by
  have start := Nat.dvd_add (Nat.dvd_trans own multiple) (dvd_roundUp align free)
  exact Nat.dvd_trans (aligns.dvd power) start

theorem isPowerOfTwo_vectorAlignment (kind : ScalarKind) (width : VectorWidth) :
    isPowerOfTwo (width.alignFactor * kind.size) = true := by
  cases kind <;> cases width <;> decide

theorem vectorAlignment_positive (kind : ScalarKind) (width : VectorWidth) :
    0 < width.alignFactor * kind.size :=
  isPowerOfTwo.positive (isPowerOfTwo_vectorAlignment kind width)

mutual
theorem LaidOut.alignment_power : ∀ {type : TypeDescriptor} {layout : Layout},
    LaidOut type layout → isPowerOfTwo layout.alignment = true
  | .scalar kind, _, laid | .atomic kind, _, laid => by
      cases laid
      exact isPowerOfTwo_size kind
  | .vector kind width, _, laid => by
      cases laid
      exact isPowerOfTwo_vectorAlignment kind width
  | .matrix kind _ rows, _, laid => by
      cases laid
      exact isPowerOfTwo_vectorAlignment kind rows
  | .array _ _, _, laid => by
      cases laid with
      | array elementLaid _ _ => exact elementLaid.alignment_power
  | .struct _ _, _, laid => by
      cases laid with
      | struct _ membersLaid _ => exact (membersLaid.alignment_power (by decide)).1

/-- Each member can only raise the alignment of the members before it. -/
theorem MembersLaidOut.alignment_power : ∀ {members : MemberList} {offset alignment : Nat}
    {run : MemberRun}, MembersLaidOut offset alignment members run →
      isPowerOfTwo alignment = true →
        isPowerOfTwo run.alignment = true ∧ alignment ∣ run.alignment
  | .nil, _, _, _, laid, power => by
      cases laid
      exact ⟨power, Nat.dvd_refl _⟩
  | .cons _ _ _ _, _, alignment, _, laid, power => by
      cases laid with
      | cons memberLaid _ aligns _ _ restLaid =>
          have alignPower := aligns.power memberLaid.alignment_power
          have greatest := isPowerOfTwo.max power alignPower
          have rest := restLaid.alignment_power greatest
          have step := isPowerOfTwo.dvd_of_le power greatest (Nat.le_max_left _ _)
          exact ⟨rest.1, Nat.dvd_trans step rest.2⟩
      | tail memberLaid aligns _ _ =>
          have alignPower := aligns.power memberLaid.alignment_power
          have greatest := isPowerOfTwo.max power alignPower
          exact ⟨greatest, isPowerOfTwo.dvd_of_le power greatest (Nat.le_max_left _ _)⟩
end

theorem LaidOut.alignment_positive {type : TypeDescriptor} {layout : Layout}
    (laid : LaidOut type layout) : 0 < layout.alignment :=
  isPowerOfTwo.positive laid.alignment_power

theorem MembersLaidOut.alignment_positive {members : MemberList} {free : Nat} {run : MemberRun}
    (laid : MembersLaidOut free 1 members run) : 0 < run.alignment :=
  isPowerOfTwo.positive (laid.alignment_power (by decide)).1

/-! ## Sizes -/

def TypeDescriptor.isPadded : TypeDescriptor → Bool
  | .matrix .. | .array .. | .struct .. => true
  | _ => false

theorem LaidOut.alignment_dvd_size {type : TypeDescriptor} {layout : Layout} {size : Nat}
    (laid : LaidOut type layout) (padded : type.isPadded = true)
    (sized : layout.size = some size) : layout.alignment ∣ size := by
  cases laid with
  | scalar => cases padded
  | atomic => cases padded
  | vector => cases padded
  | matrix kind columns rows =>
      cases sized
      exact Nat.dvd_mul_left_of_dvd (dvd_roundUp _ _) _
  | @array _ length _ _ _ _ _ =>
      cases length with
      | fixed count =>
          cases sized
          exact Nat.dvd_mul_left_of_dvd (dvd_roundUp _ _) _
      | runtime => cases sized
  | struct =>
      rcases Option.map_eq_some_iff.mp sized with ⟨finish, _, rfl⟩
      exact dvd_roundUp _ _

end ShaderKit
