import ShaderKit.Layout.Words
import ShaderKit.Proofs.Layout.Arranged

/-!
# Layouts computed in words

Computing a layout in words gives the layout over unbounded numbers, or the same error. Masking
rounds exactly as long as the rounded number fits the words. What is not checked never wraps:
the sizes that are rounded without a check are multiples of their alignment or small.
-/

namespace ShaderKit

/-! ## Results in words and in numbers -/

/-- A computation on words that has the result of a computation on numbers, or its error. -/
inductive Agree {α β : Type} (view : α → β) :
    Except WordFailure α → Except LayoutError β → Prop where
  | ok (result : α) : Agree view (.ok result) (.ok (view result))
  | error (error : LayoutError) : Agree view (.error (.reported error)) (.error error)

namespace Agree

variable {α β α' β' : Type} {view : α → β} {view' : α' → β'} {words : Except WordFailure α}
  {exact : Except LayoutError β}

theorem eq_map (agree : Agree view words exact) :
    words.map view = exact.mapError .reported := by
  cases agree <;> rfl

theorem ne_wrapped (agree : Agree view words exact) : words ≠ .error .wrapped := by
  cases agree <;> nofun

theorem bind {next : α → Except WordFailure α'} {exactNext : β → Except LayoutError β'}
    (agree : Agree view words exact)
    (rest : ∀ result, words = .ok result → exact = .ok (view result) →
      Agree view' (next result) (exactNext (view result))) :
    Agree view' (words >>= next) (exact >>= exactNext) := by
  cases agree with
  | ok result => exact rest result rfl rfl
  | error error => exact .error error

end Agree

/-! ## Operations on words -/

namespace Word

/-- An operation that finds the exact number where that fits the words, and nothing elsewhere. -/
structure Exact (result : Option UInt64) (number : Nat) : Prop where
  found : number < addressLimit → ∃ word, result = some word ∧ word.toNat = number
  lost : addressLimit ≤ number → result = none

variable {left right alignment number : UInt64} {failure : WordFailure}

theorem exact_sum? : Exact (sum? left right) (left.toNat + right.toNat) where
  found fits := by
    refine ⟨left + right, if_pos fits, ?_⟩
    exact (UInt64.toNat_add left right).trans (Nat.mod_eq_of_lt fits)
  lost large := if_neg (Nat.not_lt_of_le large)

theorem exact_product? : Exact (product? left right) (left.toNat * right.toNat) where
  found fits := by
    refine ⟨left * right, if_pos fits, ?_⟩
    exact (UInt64.toNat_mul left right).trans (Nat.mod_eq_of_lt fits)
  lost large := if_neg (Nat.not_lt_of_le large)

theorem Exact.agree {result : Option UInt64} {exact : Nat} (path : LayoutPath)
    (found : Exact result exact) :
    Agree UInt64.toNat (orFail (.reported (.sizeOverflow path)) result)
      (checkAddress path exact) := by
  unfold checkAddress
  split
  next fits =>
    obtain ⟨word, rfl, rfl⟩ := found.found fits
    exact .ok word
  next large =>
    rw [found.lost (Nat.le_of_not_lt large)]
    exact .error (.sizeOverflow path)

/-! ## Rounding by a mask -/

/-- Clearing the low bits of a word rounds it down. -/
theorem toNat_clear {exponent : Nat} (mask : right.toNat = Nat.pow 2 exponent - 1) :
    (left &&& ~~~right).toNat =
      left.toNat / Nat.pow 2 exponent * Nat.pow 2 exponent := by
  have complement : (~~~right).toNat = 2 ^ 64 - (right.toNat + 1) := by
    rw [UInt64.toNat_not, UInt64.size]
    omega
  rw [Nat.pow_eq] at *
  apply Nat.eq_of_testBit_eq
  intro bit
  rw [UInt64.toNat_and, complement, Nat.testBit_and,
    Nat.testBit_two_pow_sub_succ right.toNat_lt, mask, Nat.testBit_two_pow_sub_one,
    Nat.testBit_mul_two_pow, Nat.testBit_div_two_pow]
  by_cases low : bit < exponent
  · simp [low, Nat.not_le_of_lt low]
  · rw [Nat.sub_add_cancel (Nat.le_of_not_lt low)]
    by_cases high : bit < 64
    · simp [low, high, Nat.le_of_not_lt low]
    · have beyond : left.toNat < 2 ^ bit :=
        Nat.lt_of_lt_of_le left.toNat_lt (Nat.pow_le_pow_right (by decide) (Nat.le_of_not_lt high))
      simp [Nat.testBit_lt_two_pow beyond]

/-- The sum with the mask fits the words exactly if the rounded number does. -/
theorem roundUp_lt_iff (power : isPowerOfTwo alignment.toNat = true) :
    ShaderKit.roundUp alignment.toNat number.toNat < addressLimit ↔
      number.toNat + (alignment.toNat - 1) < addressLimit := by
  have limit : isPowerOfTwo addressLimit = true := isPowerOfTwo_pow 64
  have divides := isPowerOfTwo.dvd_of_le power limit (Nat.le_of_lt alignment.toNat_lt)
  constructor
  · intro fits
    apply Nat.lt_of_not_le
    intro large
    have rounded := Nat.mul_le_mul_right alignment.toNat
      (Nat.div_le_div_right (c := alignment.toNat) large)
    rw [Nat.div_mul_cancel divides] at rounded
    exact Nat.not_le_of_lt fits rounded
  · intro fits
    exact Nat.lt_of_le_of_lt (Nat.div_mul_le_self _ _) fits

theorem difference?_one (positive : 0 < alignment.toNat) :
    ∃ mask, difference? alignment 1 = some mask ∧ mask.toNat = alignment.toNat - 1 := by
  have below : 1 ≤ alignment := UInt64.le_iff_toNat_le.mpr positive
  exact ⟨alignment - 1, if_pos below, UInt64.toNat_sub_of_le _ _ below⟩

theorem roundUp_of_lt (power : isPowerOfTwo alignment.toNat = true)
    (fits : ShaderKit.roundUp alignment.toNat number.toNat < addressLimit) :
    ∃ result, roundUp failure alignment number = .ok result ∧
      result.toNat = ShaderKit.roundUp alignment.toNat number.toNat := by
  obtain ⟨mask, masked, maskValue⟩ := difference?_one (isPowerOfTwo.positive power)
  have sumFits := (roundUp_lt_iff power).mp fits
  rw [← maskValue] at sumFits
  obtain ⟨sum, summed, sumValue⟩ := exact_sum?.found sumFits
  obtain ⟨exponent, exact⟩ := isPowerOfTwo_iff.mp power
  refine ⟨sum &&& ~~~mask, ?_, ?_⟩
  · simp [roundUp, masked, summed, orFail]
  · rw [exact] at maskValue ⊢
    rw [toNat_clear maskValue, sumValue, maskValue]
    rfl

theorem roundUp_of_le (power : isPowerOfTwo alignment.toNat = true)
    (large : addressLimit ≤ ShaderKit.roundUp alignment.toNat number.toNat) :
    roundUp failure alignment number = .error failure := by
  obtain ⟨mask, masked, maskValue⟩ := difference?_one (isPowerOfTwo.positive power)
  have sumLarge := Nat.le_of_not_lt (mt (roundUp_lt_iff power).mpr (Nat.not_lt_of_le large))
  rw [← maskValue] at sumLarge
  have lost := exact_sum?.lost sumLarge
  simp [roundUp, masked, lost, orFail]
  rfl

theorem agree_roundUp (path : LayoutPath) (power : isPowerOfTwo alignment.toNat = true) :
    Agree UInt64.toNat (roundUp (.reported (.sizeOverflow path)) alignment number)
      (checkAddress path (ShaderKit.roundUp alignment.toNat number.toNat)) := by
  unfold checkAddress
  split
  next fits =>
    obtain ⟨result, rounded, value⟩ := roundUp_of_lt power fits
    rw [rounded, ← value]
    exact .ok result
  next large =>
    rw [roundUp_of_le power (Nat.le_of_not_lt large)]
    exact .error (.sizeOverflow path)

theorem toNat_max (left right : UInt64) : (max left right).toNat = max left.toNat right.toNat := by
  have definition : max left right = if left ≤ right then right else left := rfl
  rw [definition]
  split
  next ordered => exact (Nat.max_eq_right (UInt64.le_iff_toNat_le.mp ordered)).symm
  next reversed =>
    have after := Nat.le_of_not_le (mt UInt64.le_iff_toNat_le.mpr reversed)
    exact (Nat.max_eq_left after).symm

/-! ## Attributes of members -/

theorem agree_memberAlignment (path : LayoutPath) (natural : UInt64) (asked : Option UInt32) :
    Agree UInt64.toNat (memberAlignment path natural asked)
      (ShaderKit.memberAlignment path natural.toNat (asked.map UInt32.toNat)) := by
  cases asked with
  | none => exact .ok natural
  | some asked =>
      have value := asked.toNat_toUInt64
      simp only [memberAlignment, ShaderKit.memberAlignment, Option.map_some,
        UInt64.le_iff_toNat_le, value]
      split
      next => exact value ▸ .ok asked.toUInt64
      next => exact .error _

theorem agree_memberSpan (path : LayoutPath) (natural : Option UInt64) (asked : Option UInt32) :
    Agree (Option.map UInt64.toNat) (memberSpan path natural asked)
      (ShaderKit.memberSpan path (natural.map UInt64.toNat) (asked.map UInt32.toNat)) := by
  cases asked with
  | none => exact .ok natural
  | some asked =>
      have value := asked.toNat_toUInt64
      cases natural with
      | none => 
        simp only [memberSpan, ShaderKit.memberSpan, Option.map_some, Option.map_none, value]
        exact .error _
      | some least =>
          simp only [memberSpan, ShaderKit.memberSpan, Option.map_some,
            UInt64.le_iff_toNat_le, value]
          split
          next => exact value ▸ .ok (some asked.toUInt64)
          next => exact .error _

end Word

/-! ## Layouts in words -/

namespace WordLayout

@[simp] theorem size_toLayout (layout : WordLayout) :
    layout.toLayout.size = layout.size.map UInt64.toNat := by
  cases layout <;> rfl

@[simp] theorem alignment_toLayout (layout : WordLayout) :
    layout.toLayout.alignment = layout.alignment.toNat := by
  cases layout <;> rfl

theorem agree_ofVector (kind : ScalarKind) (width : VectorWidth) :
    Agree toLayout (ofVector kind width) (.ok (.ofVector kind width)) := by
  have found : ofVector kind width = .ok (.leaf (.ofNat (width.count * kind.size))
      (.ofNat (width.alignFactor * kind.size))) := by
    cases kind <;> cases width <;> rfl
  have same : Layout.ofVector kind width = toLayout (.leaf (.ofNat (width.count * kind.size))
      (.ofNat (width.alignFactor * kind.size))) := by
    cases kind <;> cases width <;> rfl
  rw [found, same]
  exact .ok _

theorem agree_ofMatrix (kind : ScalarKind) (columns rows : VectorWidth) :
    Agree toLayout (ofMatrix kind columns rows) (.ok (.ofMatrix kind columns rows)) := by
  have found : ofMatrix kind columns rows =
      .ok (.matrix (.ofNat (columns.count * columnStride kind rows))
        (.ofNat (rows.alignFactor * kind.size)) (.ofNat (columnStride kind rows))) := by
    cases kind <;> cases columns <;> cases rows <;> rfl
  have same : Layout.ofMatrix kind columns rows =
      toLayout (.matrix (.ofNat (columns.count * columnStride kind rows))
        (.ofNat (rows.alignFactor * kind.size)) (.ofNat (columnStride kind rows))) := by
    cases kind <;> cases columns <;> cases rows <;> rfl
  rw [found, same]
  exact .ok _

end WordLayout

/-- The distance between the values of an array fits an address wherever their size does: sizes
are multiples of the alignment, or those of basic types. -/
theorem LaidOut.roundUp_size_lt {type : TypeDescriptor} {layout : Layout} {size : Nat}
    (laid : LaidOut type layout) (sized : layout.size = some size) (fits : size < addressLimit) :
    roundUp layout.alignment size < addressLimit := by
  cases padded : type.isPadded with
  | true =>
      rw [roundUp_eq_self laid.alignment_positive (laid.alignment_dvd_size padded sized)]
      exact fits
  | false =>
      cases laid with
      | scalar kind | atomic kind =>
          cases sized
          cases kind <;> decide
      | vector kind width =>
          cases sized
          cases kind <;> cases width <;> decide
      | matrix | array | struct => cases padded

theorem WordLayout.agree_stride {type : TypeDescriptor} {layout : WordLayout}
    (laid : LaidOut type layout.toLayout) :
    ∃ stride, layout.stride = .ok stride ∧
      layout.toLayout.stride = stride.map UInt64.toNat := by
  have power := laid.alignment_power
  unfold stride Layout.stride
  rw [size_toLayout, alignment_toLayout] at *
  cases sized : layout.size with
  | none => exact ⟨none, rfl, rfl⟩
  | some size =>
      have fits : ShaderKit.roundUp layout.alignment.toNat size.toNat < addressLimit := by
        rw [← alignment_toLayout]
        apply laid.roundUp_size_lt _ size.toNat_lt
        rw [size_toLayout, sized, Option.map_some]
      obtain ⟨stride, rounded, value⟩ := Word.roundUp_of_lt power fits
      refine ⟨some stride, congrArg (Except.map some) rounded, ?_⟩
      rw [Option.map_some, Option.map_some, Option.map_some, value]

def WordRun.toRun (run : WordRun) : MemberRun :=
  ⟨run.layouts.toLayouts, run.finish.map UInt64.toNat, run.alignment.toNat⟩

mutual
/-- The counts of arrays of fixed length are words. -/
def TypeDescriptor.CountsFit : TypeDescriptor → Prop
  | .array element length =>
      (∀ count, length = .fixed count → count < addressLimit) ∧ element.CountsFit
  | .struct _ members => members.CountsFit
  | _ => True

def MemberList.CountsFit : MemberList → Prop
  | .nil => True
  | .cons _ type _ rest => type.CountsFit ∧ rest.CountsFit
end

mutual
/-- The layout in words is the layout in numbers. -/
theorem TypeDescriptor.agree_wordLayoutAt : ∀ (type : TypeDescriptor) (path : LayoutPath),
    type.CountsFit → Agree WordLayout.toLayout (type.wordLayoutAt path) (type.layoutAt path)
  | .scalar kind, path, _ | .atomic kind, path, _ => by
      cases kind <;> exact .ok (WordLayout.leaf _ _)
  | .vector kind width, path, _ => WordLayout.agree_ofVector kind width
  | .matrix kind columns rows, path, _ => WordLayout.agree_ofMatrix kind columns rows
  | .array element length, path, counted => by
      rw [TypeDescriptor.CountsFit] at counted
      rw [TypeDescriptor.wordLayoutAt, TypeDescriptor.layoutAt]
      apply Agree.bind (element.agree_wordLayoutAt _ counted.2)
      intro inner _ computed
      obtain ⟨stride, found, exact⟩ := WordLayout.agree_stride (laidOut_of_layoutAt computed)
      rw [found, ok_bind, exact]
      cases stride with
      | none => exact .error _
      | some stride =>
          cases length with
          | runtime =>
              rw [WordLayout.alignment_toLayout]
              exact .ok (WordLayout.array none inner.alignment stride inner)
          | fixed count =>
              have whole : (UInt64.ofNat count).toNat = count :=
                UInt64.toNat_ofNat_of_lt (counted.1 count rfl)
              have product := (@Word.exact_product? (.ofNat count) stride).agree path
              rw [whole] at product
              apply product.bind
              intro size _ _
              rw [WordLayout.alignment_toLayout]
              exact .ok (WordLayout.array (some size) inner.alignment stride inner)
  | .struct label members, path, counted => by
      rw [TypeDescriptor.CountsFit] at counted
      rw [TypeDescriptor.wordLayoutAt, TypeDescriptor.layoutAt]
      split
      next => exact .error _
      next =>
        apply Agree.bind (members.agree_wordLayoutFrom path 0 1 counted (by decide))
        intro run _ computed
        have laid := membersLaidOut_of_layoutFrom computed
        have power := (laid.alignment_power (by decide)).1
        rcases run with ⟨layouts, finish, alignment⟩
        cases finish with
        | none => exact .ok (WordLayout.struct none alignment layouts)
        | some finish =>
            apply Agree.bind (Word.agree_roundUp path power)
            intro size _ _
            exact .ok (WordLayout.struct (some size) alignment layouts)

theorem MemberList.agree_wordLayoutFrom : ∀ (members : MemberList) (path : LayoutPath)
    (offset alignment : UInt64), members.CountsFit → isPowerOfTwo alignment.toNat = true →
      Agree WordRun.toRun (members.wordLayoutFrom path offset alignment)
        (members.layoutFrom path offset.toNat alignment.toNat)
  | .nil, path, offset, alignment, _, _ => by
      exact .ok (WordRun.mk .nil (some offset) alignment)
  | .cons name type attributes rest, path, offset, alignment, counted, power => by
      rw [MemberList.CountsFit] at counted
      rw [MemberList.wordLayoutFrom, MemberList.layoutFrom]
      apply Agree.bind (type.agree_wordLayoutAt _ counted.1)
      intro layout _ computed
      have laid := laidOut_of_layoutAt computed
      rw [WordLayout.size_toLayout, Option.isNone_map, WordLayout.alignment_toLayout]
      split
      next => exact .error _
      next =>
        apply Agree.bind (Word.agree_memberAlignment _ layout.alignment attributes.align)
        intro align _ aligned
        have aligns := memberAlignment_eq_ok.mp aligned
        have alignPower := aligns.power (layout.alignment_toLayout ▸ laid.alignment_power)
        apply Agree.bind (Word.agree_memberSpan _ layout.size attributes.size)
        intro span _ _
        apply Agree.bind (Word.agree_roundUp _ alignPower)
        intro start _ _
        rw [← Word.toNat_max]
        cases span with
        | none =>
            exact .ok (WordRun.mk (.cons name start none layout .nil) none (max alignment align))
        | some bytes =>
            apply Agree.bind (Word.exact_sum?.agree _)
            intro next _ _
            have greatest : isPowerOfTwo (max alignment align).toNat = true := by
              rw [Word.toNat_max]
              exact isPowerOfTwo.max power alignPower
            apply Agree.bind (rest.agree_wordLayoutFrom path next _ counted.2 greatest)
            intro run _ _
            exact .ok { run with layouts := .cons name start (some bytes) layout run.layouts }
end

/-- The rules of WGSL arrange a type in at most one way. A type has a layout exactly if they
arrange it and everything in the arrangement fits an address, and the layout is the arrangement.
Words give the same layout, or the same error, and what is not checked on the way never wraps. -/
theorem layout_exact (type : TypeDescriptor) :
    (∀ layout other, Arranged type layout → Arranged type other → layout = other) ∧
    (∀ layout, type.layout = .ok layout ↔ Arranged type layout ∧ layout.Fits) ∧
    (type.CountsFit → type.wordLayout ≠ .error .wrapped ∧
      type.wordLayout.map WordLayout.toLayout = type.layout.mapError .reported) := by
  refine ⟨fun _ _ => Arranged.unique, fun _ => layout_eq_ok_iff_arranged, ?_⟩
  intro counted
  have agree := type.agree_wordLayoutAt [] counted
  exact ⟨agree.ne_wrapped, agree.eq_map⟩

def exampleVast : TypeDescriptor :=
  .struct none (.ofList [
    ⟨"points", .array (.vector .f32 .three) (.fixed 0xfffffffffffffff), {}⟩])

theorem layout_exact_exampleVast : exampleVast.CountsFit ∧
    exampleVast.wordLayout.map WordLayout.toLayout =
      .ok (.struct (some 0xfffffffffffffff0) 16
        (.cons "points" 0 (some 0xfffffffffffffff0)
          (.array (some 0xfffffffffffffff0) 16 16 (.leaf 12 16)) .nil)) := by
  have counted : exampleVast.CountsFit := by
    simp [exampleVast, MemberList.ofList, TypeDescriptor.CountsFit, MemberList.CountsFit,
      addressLimit]
  exact ⟨counted, ((layout_exact exampleVast).2.2 counted).2⟩

/-- One byte more rounds up to a size that fits no address, where the sum with the mask wraps. -/
example : (TypeDescriptor.struct none (.ofList [
    ⟨"points", .array (.vector .f32 .three) (.fixed 0xfffffffffffffff), {}⟩,
    ⟨"count", .u32, {}⟩])).wordLayout = .error (.reported (.sizeOverflow [])) := by
  rfl

end ShaderKit
