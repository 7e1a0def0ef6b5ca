import ShaderKit.Identifier

/-!
# The shape of identifiers

Which characters begin an identifier and which continue it, and which texts are made of them as
identifiers are.
-/

namespace ShaderKit.Identifier

/-! ## Characters -/

def IsAsciiWordChar (char : Char) : Prop :=
  ('a' ≤ char ∧ char ≤ 'z') ∨ ('A' ≤ char ∧ char ≤ 'Z') ∨ ('0' ≤ char ∧ char ≤ '9') ∨ char = '_'

variable {char : Char}

theorem isDigit_iff : char.isDigit = true ↔ '0' ≤ char ∧ char ≤ '9' := by
  rw [Char.isDigit, Bool.and_eq_true, decide_eq_true_iff, decide_eq_true_iff]
  rfl

theorem isAlpha_iff :
    char.isAlpha = true ↔ ('A' ≤ char ∧ char ≤ 'Z') ∨ ('a' ≤ char ∧ char ≤ 'z') := by
  have upper : char.isUpper = true ↔ 'A' ≤ char ∧ char ≤ 'Z' := decide_eq_true_iff
  have lower : char.isLower = true ↔ 'a' ≤ char ∧ char ≤ 'z' := by
    change (decide ('a' ≤ char) && decide (char ≤ 'z')) = true ↔ _
    rw [Bool.and_eq_true, decide_eq_true_iff, decide_eq_true_iff]
  change (char.isUpper || char.isLower) = true ↔ _
  rw [Bool.or_eq_true, upper, lower]

theorem isBodyChar_iff : isBodyChar char = true ↔ IsAsciiWordChar char := by
  rw [isBodyChar, Char.isAlphanum, Bool.or_eq_true, Bool.or_eq_true, isAlpha_iff, isDigit_iff,
    beq_iff_eq, IsAsciiWordChar, or_assoc, or_assoc, or_left_comm]

theorem toNat_of_isDigit (digit : char.isDigit = true) :
    48 ≤ char.toNat ∧ char.toNat ≤ 57 :=
  isDigit_iff.mp digit

theorem isBodyChar_of_isDigit (digit : char.isDigit = true) : isBodyChar char = true := by
  rw [isBodyChar, Char.isAlphanum, digit, Bool.or_true, Bool.true_or]

theorem isBodyChar_of_isStartChar (start : isStartChar char = true) : isBodyChar char = true := by
  rw [isStartChar, Bool.or_eq_true] at start
  rw [isBodyChar, Bool.or_eq_true, Char.isAlphanum, Bool.or_eq_true]
  rcases start with letter | underscore
  · exact .inl (.inl letter)
  · exact .inr underscore

theorem isStartChar_of_isBodyChar (body : isBodyChar char = true)
    (notDigit : ¬ char.isDigit = true) : isStartChar char = true := by
  rw [isBodyChar, Char.isAlphanum, Bool.or_eq_true, Bool.or_eq_true] at body
  rw [isStartChar, Bool.or_eq_true]
  rcases body with (alpha | digit) | underscore
  · exact .inl alpha
  · exact absurd digit notDigit
  · exact .inr underscore

theorem isStartChar_of_isDigit (digit : char.isDigit = true) : isStartChar char = false := by
  have atMost : char.toNat ≤ 57 := (toNat_of_isDigit digit).2
  have beyond {bound : Char} (above : 57 < bound.toNat) : ¬ bound ≤ char :=
    fun atLeast => Nat.not_lt.mpr atMost (Nat.lt_of_lt_of_le above atLeast)
  rw [Bool.eq_false_iff, isStartChar, Ne, Bool.or_eq_true, isAlpha_iff, beq_iff_eq]
  rintro ((upper | lower) | rfl)
  · exact beyond (by decide) upper.1
  · exact beyond (by decide) lower.1
  · exact absurd atMost (by decide)

/-! ## Names -/

theorem isImplementationName_iff {name : List Char} :
    isImplementationName name = true ↔ ∃ rest, name = '_' :: '_' :: rest := by
  unfold isImplementationName
  split
  next rest => exact ⟨fun _ => ⟨rest, rfl⟩, fun _ => rfl⟩
  next other =>
    constructor
    · nofun
    · rintro ⟨rest, same⟩
      exact absurd same (other rest)

theorem hasIdentifierShape_cons {first : Char} {rest : List Char} :
    hasIdentifierShape (first :: rest) = true ↔
      isStartChar first = true ∧ (∀ char ∈ rest, isBodyChar char = true) ∧
        first :: rest ≠ ['_'] ∧ isImplementationName (first :: rest) = false := by
  rw [hasIdentifierShape, Bool.and_eq_true, Bool.and_eq_true, Bool.and_eq_true, List.all_eq_true,
    bne_iff_ne, Bool.not_eq_true', and_assoc, and_assoc]

theorem hasIdentifierShape_append {name more : List Char}
    (shaped : hasIdentifierShape name = true) (body : ∀ char ∈ more, isBodyChar char = true) :
    hasIdentifierShape (name ++ more) = true := by
  cases name with
  | nil => cases shaped
  | cons first rest =>
      rcases hasIdentifierShape_cons.mp shaped with ⟨start, restBody, named, ordinary⟩
      rw [List.cons_append]
      refine hasIdentifierShape_cons.mpr ⟨start, ?_, ?_, ?_⟩
      · intro char member
        rcases List.mem_append.mp member with inside | after
        · exact restBody char inside
        · exact body char after
      · intro same
        rw [List.cons.injEq, List.append_eq_nil_iff] at same
        exact named (by rw [same.1, same.2.1])
      · rw [Bool.eq_false_iff]
        intro doubled
        rcases isImplementationName_iff.mp doubled with ⟨after, same⟩
        rw [List.cons.injEq] at same
        cases rest with
        | nil => exact named (by rw [same.1])
        | cons second rest =>
            rw [List.cons_append, List.cons.injEq] at same
            rw [same.1, same.2.1] at ordinary
            cases ordinary

/-- A name is spelled like an identifier, whether it is reserved or not. -/
structure Spelled (name : List Char) : Prop where
  nonempty : name ≠ []
  ascii : ∀ char ∈ name, IsAsciiWordChar char
  begins : ∀ first ∈ name.head?, ¬ ('0' ≤ first ∧ first ≤ '9')
  named : name ≠ ['_']
  ordinary : ¬ ['_', '_'] <+: name

theorem isImplementationName_eq_false {name : List Char} :
    isImplementationName name = false ↔ ¬ ['_', '_'] <+: name := by
  rw [Bool.eq_false_iff, Ne, isImplementationName_iff]
  exact not_congr (exists_congr fun _ => eq_comm)

theorem hasIdentifierShape_iff {name : List Char} :
    hasIdentifierShape name = true ↔ Spelled name := by
  cases name with
  | nil => exact ⟨nofun, fun spelled => absurd rfl spelled.nonempty⟩
  | cons first rest =>
      rw [hasIdentifierShape_cons, isImplementationName_eq_false]
      constructor
      · rintro ⟨start, body, named, ordinary⟩
        refine ⟨List.cons_ne_nil _ _, ?_, ?_, named, ordinary⟩
        · intro char member
          rcases List.mem_cons.mp member with rfl | member
          · exact isBodyChar_iff.mp (isBodyChar_of_isStartChar start)
          · exact isBodyChar_iff.mp (body char member)
        · intro other begins digit
          cases begins
          rw [isStartChar_of_isDigit (isDigit_iff.mpr digit)] at start
          cases start
      · intro spelled
        have body : ∀ char ∈ first :: rest, isBodyChar char = true := fun char member =>
          isBodyChar_iff.mpr (spelled.ascii char member)
        have noDigit : ¬ first.isDigit = true := fun digit =>
          spelled.begins first rfl (isDigit_iff.mp digit)
        exact ⟨isStartChar_of_isBodyChar (body first List.mem_cons_self) noDigit,
          fun char member => body char (List.mem_cons_of_mem _ member),
          spelled.named, spelled.ordinary⟩

theorem isValid_iff {name : String} :
    isValid name = true ↔ hasIdentifierShape name.toList = true ∧ isReserved name = false := by
  rw [isValid, Bool.and_eq_true, Bool.not_eq_true']

end ShaderKit.Identifier
