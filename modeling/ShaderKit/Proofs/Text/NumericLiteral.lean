import ShaderKit.Proofs.Identifier.Shape

/-!
# Numeric literals

The numeric literals of WGSL: decimal and hexadecimal integers, and decimal and
hexadecimal floating point numbers with a fraction, an exponent or a suffix. An integer
does not begin with a zero unless it is zero; a floating point number may.
-/

namespace ShaderKit.Text

/-! ## Deciding about characters -/

/-- What is said of the characters in a list is decided in the list, not over all characters. -/
instance decidableForallMem (chars : List Char) (holds : Char → Prop) [DecidablePred holds] :
    Decidable (∀ char ∈ chars, holds char) :=
  List.decidableBAll holds chars

instance decidableForallMemOption (char : Option Char) (holds : Char → Prop)
    [DecidablePred holds] : Decidable (∀ present ∈ char, holds present) :=
  decidable_of_iff (∀ present ∈ char.toList, holds present) (by simp)

/-! ## The grammar -/

abbrev Digits (chars : List Char) : Prop :=
  ∀ char ∈ chars, char.isDigit = true

def isHexDigit (char : Char) : Bool :=
  char.isDigit || ['a', 'b', 'c', 'd', 'e', 'f', 'A', 'B', 'C', 'D', 'E', 'F'].contains char

abbrev HexDigits (chars : List Char) : Prop :=
  ∀ char ∈ chars, isHexDigit char = true

def floatSuffixes : List (List Char) :=
  [[], ['f'], ['h']]

def integerSuffixes : List (List Char) :=
  [[], ['i'], ['u']]

inductive Exponent (letters : List Char) : List Char → Prop where
  | mk {letter : Char} {sign digits : List Char} (begins : letter ∈ letters)
      (signed : sign ∈ [[], ['+'], ['-']]) (filled : digits ≠ []) (digital : Digits digits) :
      Exponent letters (letter :: (sign ++ digits))

/-- The numeric literals of WGSL. -/
inductive NumericLiteral : List Char → Prop where
  | zero {suffix : List Char} (ends : suffix ∈ integerSuffixes ++ floatSuffixes) :
      NumericLiteral ('0' :: suffix)
  | integer {first : Char} {others suffix : List Char} (digit : first.isDigit = true)
      (notZero : first ≠ '0') (digital : Digits others)
      (ends : suffix ∈ integerSuffixes ++ floatSuffixes) :
      NumericLiteral (first :: (others ++ suffix))
  | fraction {whole part exponent suffix : List Char} (wholeDigital : Digits whole)
      (partDigital : Digits part) (filled : whole ≠ [] ∨ part ≠ [])
      (scaled : exponent = [] ∨ Exponent ['e', 'E'] exponent) (ends : suffix ∈ floatSuffixes) :
      NumericLiteral (whole ++ '.' :: (part ++ exponent ++ suffix))
  | scientific {whole exponent suffix : List Char} (digital : Digits whole) (filled : whole ≠ [])
      (scaled : Exponent ['e', 'E'] exponent) (ends : suffix ∈ floatSuffixes) :
      NumericLiteral (whole ++ exponent ++ suffix)
  | hexInteger {mark : Char} {digits suffix : List Char} (marked : mark ∈ ['x', 'X'])
      (digital : HexDigits digits) (filled : digits ≠ []) (ends : suffix ∈ integerSuffixes) :
      NumericLiteral ('0' :: mark :: (digits ++ suffix))
  | hexFraction {mark : Char} {whole part : List Char} (marked : mark ∈ ['x', 'X'])
      (wholeDigital : HexDigits whole) (partDigital : HexDigits part)
      (filled : whole ≠ [] ∨ part ≠ []) : NumericLiteral ('0' :: mark :: (whole ++ '.' :: part))
  | hexScientific {mark : Char} {whole point part exponent suffix : List Char}
      (marked : mark ∈ ['x', 'X']) (wholeDigital : HexDigits whole)
      (pointed : point = ['.'] ∨ (point = [] ∧ part = [])) (partDigital : HexDigits part)
      (filled : whole ≠ [] ∨ part ≠ []) (scaled : Exponent ['p', 'P'] exponent)
      (ends : suffix ∈ floatSuffixes) :
      NumericLiteral ('0' :: mark :: (whole ++ point ++ part ++ exponent ++ suffix))

def isLiteralChar (char : Char) : Bool :=
  isHexDigit char || ['.', '+', '-', 'x', 'X', 'p', 'P', 'h', 'i', 'u'].contains char

/-! ## The characters of a literal -/

theorem isHexDigit_of_isDigit {char : Char} (digit : char.isDigit = true) :
    isHexDigit char = true := by
  rw [isHexDigit, digit, Bool.true_or]

theorem isLiteralChar_of_isHexDigit {char : Char} (digit : isHexDigit char = true) :
    isLiteralChar char = true := by
  rw [isLiteralChar, digit, Bool.true_or]

abbrev LiteralChars (chars : List Char) : Prop :=
  ∀ char ∈ chars, isLiteralChar char = true

namespace LiteralChars

variable {chars : List Char}

theorem cons {char : Char} (first : isLiteralChar char = true) (rest : LiteralChars chars) :
    LiteralChars (char :: chars) :=
  List.forall_mem_cons.mpr ⟨first, rest⟩

theorem append {others : List Char} (front : LiteralChars chars) (back : LiteralChars others) :
    LiteralChars (chars ++ others) :=
  List.forall_mem_append.mpr ⟨front, back⟩

theorem hex (digital : HexDigits chars) : LiteralChars chars :=
  fun char inside => isLiteralChar_of_isHexDigit (digital char inside)

theorem digits (digital : Digits chars) : LiteralChars chars :=
  hex fun char inside => isHexDigit_of_isDigit (digital char inside)

theorem suffix (ends : chars ∈ integerSuffixes ++ floatSuffixes) : LiteralChars chars := by
  have all : ∀ suffix ∈ integerSuffixes ++ floatSuffixes,
      ∀ char ∈ suffix, isLiteralChar char = true := by decide
  exact all chars ends

theorem floatSuffix (ends : chars ∈ floatSuffixes) : LiteralChars chars :=
  suffix (List.mem_append_right _ ends)

theorem exponent {letters : List Char} (known : LiteralChars letters)
    (scaled : Exponent letters chars) : LiteralChars chars := by
  rcases scaled with ⟨begins, signed, _, digital⟩
  have signs : ∀ sign ∈ [[], ['+'], ['-']], ∀ char ∈ sign, isLiteralChar char = true := by decide
  exact .cons (known _ begins) (.append (signs _ signed) (digits digital))

end LiteralChars

namespace NumericLiteral

variable {literal : List Char}

theorem begins (numeric : NumericLiteral literal) :
    ∃ first rest, literal = first :: rest ∧ (first.isDigit = true ∨ first = '.') := by
  cases numeric with
  | zero => exact ⟨_, _, rfl, .inl (by decide)⟩
  | integer digit => exact ⟨_, _, rfl, .inl digit⟩
  | @fraction whole part exponent suffix wholeDigital =>
      cases whole with
      | nil => exact ⟨_, _, rfl, .inr rfl⟩
      | cons first others => exact ⟨_, _, rfl, .inl (wholeDigital first List.mem_cons_self)⟩
  | @scientific whole exponent suffix digital filled =>
      cases whole with
      | nil => exact absurd rfl filled
      | cons first others => exact ⟨_, _, rfl, .inl (digital first List.mem_cons_self)⟩
  | hexInteger | hexFraction | hexScientific => exact ⟨_, _, rfl, .inl (by decide)⟩

theorem chars (numeric : NumericLiteral literal) : LiteralChars literal := by
  have marks : LiteralChars ['x', 'X'] := by decide
  have letters : LiteralChars ['e', 'E'] := by decide
  have binaryLetters : LiteralChars ['p', 'P'] := by decide
  have point : LiteralChars ['.'] := by decide
  cases numeric with
  | zero ends => exact .cons (by decide) (.suffix ends)
  | integer digit _ digital ends =>
      exact .cons (isLiteralChar_of_isHexDigit (isHexDigit_of_isDigit digit))
        (.append (.digits digital) (.suffix ends))
  | fraction wholeDigital partDigital _ scaled ends =>
      refine .append (.digits wholeDigital) (.cons (by decide) (.append (.append
        (.digits partDigital) ?_) (.floatSuffix ends)))
      rcases scaled with rfl | scaled
      · exact nofun
      · exact .exponent letters scaled
  | scientific digital _ scaled ends =>
      exact .append (.append (.digits digital) (.exponent letters scaled)) (.floatSuffix ends)
  | hexInteger marked digital _ ends =>
      exact .cons (by decide) (.cons (marks _ marked)
        (.append (.hex digital) (.suffix (List.mem_append_left _ ends))))
  | hexFraction marked wholeDigital partDigital =>
      exact .cons (by decide) (.cons (marks _ marked)
        (.append (.hex wholeDigital) (.cons (by decide) (.hex partDigital))))
  | hexScientific marked wholeDigital pointed partDigital _ scaled ends =>
      refine .cons (by decide) (.cons (marks _ marked) (.append (.append (.append (.append
        (.hex wholeDigital) ?_) (.hex partDigital)) (.exponent binaryLetters scaled))
        (.floatSuffix ends)))
      rcases pointed with rfl | ⟨rfl, _⟩
      · exact point
      · exact nofun

end NumericLiteral

example : NumericLiteral ['0', 'x', '1', 'f'] :=
  @NumericLiteral.hexInteger 'x' ['1', 'f'] [] (by decide) (by decide) (by decide) (by decide)

end ShaderKit.Text
