import ShaderKit.Layout

/-!
# Rounding up, and powers of two
-/

namespace ShaderKit

/-! ## Rounding -/

section

variable {alignment : Nat}

theorem dvd_roundUp (alignment number : Nat) : alignment ∣ roundUp alignment number :=
  Nat.dvd_mul_left _ _

theorem le_roundUp (positive : 0 < alignment) (number : Nat) :
    number ≤ roundUp alignment number := by
  have split := Nat.div_add_mod (number + (alignment - 1)) alignment
  have rest := Nat.mod_lt (number + (alignment - 1)) positive
  rw [Nat.mul_comm] at split
  unfold roundUp
  omega

theorem roundUp_le {number bound : Nat} (positive : 0 < alignment) (multiple : alignment ∣ bound)
    (enough : number ≤ bound) : roundUp alignment number ≤ bound := by
  rcases multiple with ⟨quotient, rfl⟩
  have reached : (number + (alignment - 1)) / alignment < quotient + 1 := by
    rw [Nat.div_lt_iff_lt_mul positive, Nat.add_mul, Nat.mul_comm quotient]
    omega
  unfold roundUp
  rw [Nat.mul_comm alignment]
  exact Nat.mul_le_mul_right alignment (Nat.le_of_lt_succ reached)

theorem roundUp_eq_self {number : Nat} (positive : 0 < alignment) (multiple : alignment ∣ number) :
    roundUp alignment number = number :=
  Nat.le_antisymm (roundUp_le positive multiple (Nat.le_refl number)) (le_roundUp positive number)

end

/-! ## Powers of two -/

theorem isPowerOfTwo_pow (exponent : Nat) : isPowerOfTwo (Nat.pow 2 exponent) = true := by
  have log : (Nat.pow 2 exponent).log2 = exponent := Nat.log2_two_pow
  unfold isPowerOfTwo
  rw [log]
  exact beq_self_eq_true _

theorem isPowerOfTwo_iff {number : Nat} :
    isPowerOfTwo number = true ↔ ∃ exponent, number = Nat.pow 2 exponent := by
  constructor
  · intro power
    exact ⟨number.log2, (eq_of_beq power).symm⟩
  · rintro ⟨exponent, rfl⟩
    exact isPowerOfTwo_pow exponent

section

variable {small large : Nat}

theorem isPowerOfTwo.positive {number : Nat} (power : isPowerOfTwo number = true) :
    0 < number := by
  rcases isPowerOfTwo_iff.mp power with ⟨exponent, rfl⟩
  exact Nat.pow_pos Nat.two_pos

theorem isPowerOfTwo.dvd_of_le (smallPower : isPowerOfTwo small = true)
    (largePower : isPowerOfTwo large = true) (ordered : small ≤ large) : small ∣ large := by
  rcases isPowerOfTwo_iff.mp smallPower with ⟨smallExponent, rfl⟩
  rcases isPowerOfTwo_iff.mp largePower with ⟨largeExponent, rfl⟩
  have exponents : smallExponent ≤ largeExponent :=
    (Nat.pow_le_pow_iff_right (Nat.lt_succ_self 1)).mp ordered
  exact Nat.pow_dvd_pow 2 exponents

theorem isPowerOfTwo.max (smallPower : isPowerOfTwo small = true)
    (largePower : isPowerOfTwo large = true) : isPowerOfTwo (max small large) = true := by
  rcases Nat.le_total small large with ordered | ordered
  · rw [Nat.max_eq_right ordered]
    exact largePower
  · rw [Nat.max_eq_left ordered]
    exact smallPower

end

theorem isPowerOfTwo_size (kind : ScalarKind) : isPowerOfTwo kind.size = true := by
  cases kind <;> decide

end ShaderKit
