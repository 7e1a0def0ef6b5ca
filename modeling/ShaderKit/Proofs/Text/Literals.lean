import ShaderKit.Proofs.Text.NumericLiteral
import ShaderKit.Scalar

/-!
# The texts of scalar values

The spelling of a finite scalar is a literal without a sign, or an expression in parentheses
over such literals. What the digits are does not matter for that, only that they are digits.
-/

namespace ShaderKit

open Text

inductive LiteralText : String → Prop where
  | truth (value : Bool) : LiteralText (if value then "true" else "false")
  | number {literal : String} (numeric : NumericLiteral literal.toList) : LiteralText literal
  | negative {literal : String} (numeric : NumericLiteral literal.toList) :
      LiteralText ("(-" ++ literal ++ ")")
  | difference {first second : String} (firstNumeric : NumericLiteral first.toList)
      (secondNumeric : NumericLiteral second.toList) :
      LiteralText ("(-" ++ first ++ " - " ++ second ++ ")")

/-! ## Integers -/

theorem digitChar_ne_zero {digit : Nat} (positive : 0 < digit) (below : digit < 10) :
    digit.digitChar ≠ '0' := by
  have all : ∀ digit < 10, 0 < digit → digit.digitChar ≠ '0' := by decide
  exact all digit below positive

theorem toDigits_eq_cons (number : Nat) (positive : 0 < number) :
    ∃ first others, Nat.toDigits 10 number = first :: others ∧ first ≠ '0' := by
  induction number using Nat.strongRecOn with
  | ind number induction =>
      rcases Nat.lt_or_ge number 10 with small | large
      · rw [Nat.toDigits_of_lt_base small]
        exact ⟨_, [], rfl, digitChar_ne_zero positive small⟩
      · rw [Nat.toDigits_of_base_le (by decide) large]
        rcases induction (number / 10) (Nat.div_lt_self positive (by decide))
          (Nat.div_pos large (by decide)) with ⟨first, others, same, notZero⟩
        rw [same]
        exact ⟨first, _, rfl, notZero⟩

theorem digits_toDigits (number : Nat) : Text.Digits (Nat.toDigits 10 number) :=
  fun _ member => Nat.isDigit_of_mem_toDigits (by decide) (by decide) member

theorem numericLiteral_toDigits (number : Nat) {suffix : List Char}
    (ends : suffix ∈ integerSuffixes ++ floatSuffixes) :
    NumericLiteral (Nat.toDigits 10 number ++ suffix) := by
  rcases Nat.eq_zero_or_pos number with rfl | positive
  · exact .zero ends
  · rcases toDigits_eq_cons number positive with ⟨first, others, same, notZero⟩
    have digital := digits_toDigits number
    rw [same] at digital ⊢
    rcases List.forall_mem_cons.mp digital with ⟨digit, others⟩
    exact .integer digit notZero others ends

/-! ## Decimal numbers -/

namespace Decimal

variable {number : Digits} {suffix : List Char}

theorem digits_trimZeros {digits : List Char} (digital : Text.Digits digits) :
    Text.Digits (trimZeros digits) := by
  intro char member
  rw [trimZeros, List.mem_reverse] at member
  exact digital char (List.mem_reverse.mp ((List.dropWhile_suffix _).subset member))

theorem digits_replicate (count : Nat) : Text.Digits (List.replicate count '0') := by
  intro char member
  rw [List.eq_of_mem_replicate member]
  decide

theorem digits_ofGrid (count : Nat) (exponent : Int) :
    Text.Digits (Digits.ofGrid count exponent).digits :=
  digits_trimZeros (digits_toDigits count)

theorem digits_findDigits (interval : Interval) (point : Int) (tries length : Nat) :
    Text.Digits (interval.findDigits point tries length).digits := by
  induction tries generalizing length with
  | zero => exact digits_ofGrid _ _
  | succ tries induction =>
      rw [Interval.findDigits]
      split
      next => exact digits_ofGrid _ _
      next => exact induction (length + 1)

theorem numericLiteral_positional (digital : Text.Digits number.digits)
    (ends : suffix ∈ floatSuffixes) : NumericLiteral (positional number ++ suffix) := by
  unfold positional
  split
  next =>
    have part : Text.Digits (List.replicate (-number.point).toNat '0' ++ number.digits) :=
      List.forall_mem_append.mpr ⟨digits_replicate _, digital⟩
    have literal := @NumericLiteral.fraction ['0'] _ [] suffix (by decide) part (.inl (by decide))
      (.inl rfl) ends
    simpa using literal
  next =>
    let before := number.digits.take number.point.toNat
    let after := number.digits.drop number.point.toNat
    have whole : Text.Digits (before ++ List.replicate (number.point.toNat - before.length) '0') :=
      List.forall_mem_append.mpr
        ⟨fun char member => digital char (List.mem_of_mem_take member), digits_replicate _⟩
    have part : Text.Digits (if after.isEmpty then ['0'] else after) := by
      split
      next => decide
      next => exact fun char member => digital char (List.mem_of_mem_drop member)
    have filled : (if after.isEmpty then ['0'] else after) ≠ [] := by
      split
      next => decide
      next some => exact fun none => some (List.isEmpty_iff.mpr none)
    have literal := @NumericLiteral.fraction _ _ [] suffix whole part (.inr filled) (.inl rfl) ends
    show NumericLiteral (before ++ List.replicate (number.point.toNat - before.length) '0' ++
      '.' :: (if after.isEmpty then ['0'] else after) ++ suffix)
    rw [List.append_nil] at literal
    rw [List.append_assoc, List.cons_append]
    exact literal

theorem exponent_repr (exponent : Int) :
    Exponent ['e', 'E'] ('e' :: (toString exponent).toList) := by
  cases exponent with
  | ofNat count =>
      have text : (toString (Int.ofNat count)).toList = [] ++ Nat.toDigits 10 count :=
        Nat.toList_repr
      rw [text]
      exact .mk (by decide) (by decide) Nat.toDigits_ne_nil (digits_toDigits count)
  | negSucc count =>
      have text : (toString (Int.negSucc count)).toList =
          ['-'] ++ Nat.toDigits 10 (count + 1) := by
        rw [Int.toString_eq_repr, Int.repr, String.toList_append, Nat.toList_repr]
        rfl
      rw [text]
      exact .mk (by decide) (by decide) Nat.toDigits_ne_nil (digits_toDigits (count + 1))

theorem numericLiteral_scientific (digital : Text.Digits number.digits)
    (ends : suffix ∈ floatSuffixes) : NumericLiteral (scientific number ++ suffix) := by
  unfold scientific
  split
  next => exact .zero (List.mem_append_right _ ends)
  next digit same =>
    rw [same] at digital
    have literal := NumericLiteral.scientific digital (by simp) (exponent_repr (number.point - 1))
      ends
    simpa using literal
  next digit rest _ same =>
    rw [same] at digital
    rcases List.forall_mem_cons.mp digital with ⟨first, others⟩
    have literal := @NumericLiteral.fraction [digit] rest _ suffix
      (List.forall_mem_singleton.mpr first) others (.inl (by simp))
      (.inr (exponent_repr (number.point - 1))) ends
    simpa using literal

theorem writeSingle_cases (bits : UInt32) (finite : bits.toNat % 0x80000000 < 0x7f800000) :
    ∃ text, (∀ suffix ∈ floatSuffixes, NumericLiteral (text ++ suffix)) ∧
      (writeSingle bits = text ∨ writeSingle bits = '-' :: text) := by
  let magnitude := bits.toNat % 0x80000000
  let text := if magnitude = 0 then ['0', '.', '0']
    else singleFormat.write (shortestSingle magnitude)
  have numeric : ∀ suffix ∈ floatSuffixes, NumericLiteral (text ++ suffix) := by
    intro suffix ends
    unfold text
    split
    next =>
      exact @NumericLiteral.fraction ['0'] ['0'] [] suffix (by decide) (by decide)
        (.inl (by decide)) (.inl rfl) ends
    next =>
      unfold Format.write
      split
      next => exact numericLiteral_positional (digits_findDigits _ _ _ _) ends
      next => exact numericLiteral_scientific (digits_findDigits _ _ _ _) ends
  refine ⟨text, numeric, ?_⟩
  have written : writeSingle bits =
      if bits.toNat / 0x80000000 == 1 then '-' :: text else text := by
    have notNaN : ¬ magnitude > 0x7f800000 := Nat.not_lt.mpr (Nat.le_of_lt finite)
    have notInfinite : magnitude ≠ 0x7f800000 := Nat.ne_of_lt finite
    unfold writeSingle
    simp only [magnitude] at notNaN notInfinite
    simp only [if_neg notNaN, if_neg notInfinite]
    rfl
  rw [written]
  split
  next => exact .inr rfl
  next => exact .inl rfl

end Decimal

/-! ## Scalars -/

theorem Single.magnitude_lt {bits : UInt32} (finite : Single.isFinite bits = true) :
    bits.toNat % 0x80000000 < 0x7f800000 := by
  rw [isFinite, bne_iff_ne] at finite
  omega

/-- A subnormal half, moved up to its highest bit, fits the significand of a single. -/
theorem Half.shifted_lt {fraction : Nat} (notZero : fraction ≠ 0) (bounded : fraction < 1024) :
    fraction.log2 < 10 ∧ fraction * Nat.pow 2 (23 - fraction.log2) < 0x1000000 := by
  have below : fraction.log2 < 10 := (Nat.log2_lt notZero).mpr bounded
  have upper : fraction < 2 ^ (fraction.log2 + 1) := Nat.lt_log2_self
  refine ⟨below, ?_⟩
  calc fraction * 2 ^ (23 - fraction.log2)
      < 2 ^ (fraction.log2 + 1) * 2 ^ (23 - fraction.log2) :=
        Nat.mul_lt_mul_of_pos_right upper (Nat.two_pow_pos _)
    _ = 2 ^ (fraction.log2 + 1 + (23 - fraction.log2)) := (Nat.pow_add ..).symm
    _ = Nat.pow 2 24 := congrArg (Nat.pow 2) (by omega)

theorem Half.widenMagnitude_lt {magnitude : Nat} (bounded : magnitude < 0x8000)
    (finite : magnitude / 1024 ≠ 31) : widenMagnitude magnitude < 0x7f800000 := by
  unfold widenMagnitude
  dsimp only
  split
  next full => exact absurd full finite
  next =>
    split
    next =>
      split
      next => decide
      next notZero =>
        have shifted := shifted_lt notZero (Nat.mod_lt _ (by decide))
        omega
    next => omega

theorem Half.magnitude_lt {bits : UInt16} (finite : Half.isFinite bits = true) :
    (Half.widen bits).toNat % 0x80000000 < 0x7f800000 := by
  rw [isFinite, bne_iff_ne] at finite
  have bounded : bits.toNat < 0x10000 := bits.toNat_lt
  have widened := @widenMagnitude_lt (bits.toNat % 0x8000) (by omega) (by omega)
  rw [widen, UInt32.toNat_ofNat']
  omega

namespace Scalar

theorem wrapNegative_of_numeric {literal : String} (numeric : NumericLiteral literal.toList) :
    wrapNegative literal = literal := by
  rcases numeric.begins with ⟨first, rest, same, digit⟩
  have unsigned : first ≠ '-' := by
    rintro rfl
    revert digit
    decide
  rw [wrapNegative, if_neg]
  rw [same]
  simpa using unsigned

theorem wrapNegative_of_minus (text : String) :
    wrapNegative ("-" ++ text) = "(-" ++ text ++ ")" := by
  rw [wrapNegative, if_pos (by simp), ← String.append_assoc]
  rfl

theorem literalText_of_numeric {text : String} (numeric : NumericLiteral text.toList) :
    LiteralText (wrapNegative text) ∧ LiteralText (wrapNegative ("-" ++ text)) := by
  rw [wrapNegative_of_numeric numeric, wrapNegative_of_minus]
  exact ⟨.number numeric, .negative numeric⟩

theorem literalText_writeSingle {bits : UInt32} {suffix : String}
    (finite : bits.toNat % 0x80000000 < 0x7f800000) (ends : suffix.toList ∈ floatSuffixes) :
    LiteralText (wrapNegative (String.ofList (Decimal.writeSingle bits) ++ suffix)) := by
  rcases Decimal.writeSingle_cases bits finite with ⟨text, numeric, written⟩
  have numeric : NumericLiteral (String.ofList text ++ suffix).toList := by
    rw [String.toList_append, String.toList_ofList]
    exact numeric _ ends
  rcases literalText_of_numeric numeric with ⟨positive, negative⟩
  rcases written with written | written
  · rw [written]
    exact positive
  · rw [written, String.ofList_cons, String.append_assoc]
    exact negative

theorem literalText_integer (value : Int) {suffix : String}
    (ends : suffix.toList ∈ integerSuffixes) :
    LiteralText (wrapNegative (toString value ++ suffix)) := by
  have numeric (number : Nat) : NumericLiteral (number.repr ++ suffix).toList := by
    rw [String.toList_append, Nat.toList_repr]
    exact numericLiteral_toDigits number (List.mem_append_left _ ends)
  cases value with
  | ofNat number => exact (literalText_of_numeric (numeric number)).1
  | negSucc number =>
      rw [Int.toString_eq_repr, Int.repr, String.append_assoc]
      exact (literalText_of_numeric (numeric (number + 1))).2

theorem literalText {value : Scalar} (finite : value.isFinite = true) :
    LiteralText value.literal := by
  rw [literal]
  split
  next =>
    exact @LiteralText.difference "2147483647i" "1i"
      (@NumericLiteral.integer '2' "147483647".toList ['i'] (by decide) (by decide) (by decide)
        (by decide))
      (@NumericLiteral.integer '1' [] ['i'] (by decide) (by decide) (by decide) (by decide))
  next =>
    cases value with
    | bool value =>
        cases value
        · exact .truth false
        · exact .truth true
    | f16 bits => exact @literalText_writeSingle _ "h" (Half.magnitude_lt finite) (by decide)
    | f32 bits => exact @literalText_writeSingle _ "f" (Single.magnitude_lt finite) (by decide)
    | i32 value => exact @literalText_integer value.toInt "i" (by decide)
    | u32 value => exact @literalText_integer value.toNat "u" (by decide)

end Scalar

end ShaderKit
