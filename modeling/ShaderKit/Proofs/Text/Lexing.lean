import ShaderKit.Function.Operator
import ShaderKit.Proofs.Text.NumericLiteral

/-!
# The tokens of a text

How WGSL divides a text into words, numbers and symbols: from left to right, and at each place
the longest token that begins there. Blanks stand between tokens only.
-/

namespace ShaderKit.Text

inductive Token where
  | word (chars : List Char)
  | number (chars : List Char)
  | symbol (chars : List Char)
deriving DecidableEq, Repr

def symbols : List (List Char) :=
  ["&", "&&", "->", "@", "/", "!", "[", "]", "\x7b", "\x7d", ":", ",", "=", "==", "!=", ">", ">=",
    ">>", "<", "<<", "<=", "%", "-", "--", ".", "+", "++", "|", "||", "(", ")", ";", "*", "~",
    "^", "+=", "-=", "*=", "/=", "%=", "&=", "|=", "^=", ">>=", "<<="].map String.toList

namespace Token

def chars : Token → List Char
  | .word chars | .number chars | .symbol chars => chars

/-- Words have the shape of an identifier or a keyword, numbers are literals. -/
inductive Lexeme : Token → Prop where
  | word {first : Char} {rest : List Char} (begins : Identifier.isStartChar first = true)
      (continues : ∀ char ∈ rest, Identifier.isBodyChar char = true) :
      Lexeme (.word (first :: rest))
  | number {chars : List Char} (numeric : NumericLiteral chars) : Lexeme (.number chars)
  | symbol {chars : List Char} (known : chars ∈ symbols) : Lexeme (.symbol chars)

/-- No longer token begins where this one does. -/
def Longest (token : Token) (rest : List Char) : Prop :=
  ∀ other : Token, other.Lexeme → other.chars <+: token.chars ++ rest →
    other.chars.length ≤ token.chars.length

end Token

/-- A text is divided into tokens. -/
inductive Lexes : List Char → List Token → Prop where
  | done : Lexes [] []
  | blank {text : List Char} {tokens : List Token} (follows : Lexes text tokens) :
      Lexes (' ' :: text) tokens
  | token {token : Token} {rest : List Char} {tokens : List Token} (lexeme : token.Lexeme)
      (longest : token.Longest rest) (follows : Lexes rest tokens) :
      Lexes (token.chars ++ rest) (token :: tokens)

/-! ## The characters of a token -/

theorem NumericLiteral.ne_point {literal : List Char} (numeric : NumericLiteral literal) :
    literal ≠ ['.'] := by
  rintro rfl
  generalize same : ['.'] = literal at numeric
  cases numeric with
  | zero | hexInteger | hexFraction | hexScientific => simp at same
  | integer digit =>
      rw [← (List.cons.inj same).1] at digit
      exact absurd digit (by decide)
  | @fraction whole part exponent suffix wholeDigital _ filled =>
      cases whole with
      | nil =>
          have none := (List.cons.inj same).2
          simp only [List.nil_eq, List.append_eq_nil_iff] at none
          exact filled.elim (· rfl) (· none.1.1)
      | cons first others => simp at same
  | @scientific whole _ _ digital filled =>
      cases whole with
      | nil => exact filled rfl
      | cons first others =>
          have digit := digital first List.mem_cons_self
          rw [← (List.cons.inj same).1] at digit
          exact absurd digit (by decide)

namespace Token

def beginsNumber (char : Char) : Bool :=
  char.isDigit || char == '.'

def extendsSymbol (first char : Char) : Bool :=
  symbols.any fun symbol => symbol.head? == some first && symbol.tail.contains char

/-- Which characters may stand in a token behind its first. -/
def mayFollow (first char : Char) : Bool :=
  if Identifier.isStartChar first then Identifier.isBodyChar char
  else if beginsNumber first then isLiteralChar char
  else extendsSymbol first char

theorem isStartChar_of_beginsNumber {char : Char} (begins : beginsNumber char = true) :
    Identifier.isStartChar char = false := by
  rw [beginsNumber, Bool.or_eq_true, beq_iff_eq] at begins
  rcases begins with digit | rfl
  · exact Identifier.isStartChar_of_isDigit digit
  · decide

theorem mayFollow_symbol {first char : Char} (noStart : Identifier.isStartChar first = false)
    (noNumber : beginsNumber first = false)
    (stops : ∀ symbol ∈ symbols, symbol.head? = some first → char ∉ symbol.tail) :
    mayFollow first char = false := by
  rw [mayFollow, if_neg (by simp [noStart]), if_neg (by simp [noNumber]), extendsSymbol,
    List.any_eq_false]
  intro symbol member follows
  rw [Bool.and_eq_true, beq_iff_eq, List.contains_iff_mem] at follows
  exact stops symbol member follows.1 follows.2

theorem begins_of_mem_symbols {first : Char} {rest : List Char}
    (known : first :: rest ∈ symbols) : Identifier.isStartChar first = false ∧
      (beginsNumber first = true → rest = []) ∧ first ≠ ' ' := by
  have all : ∀ symbol ∈ symbols, ∀ first ∈ symbol.head?,
      Identifier.isStartChar first = false ∧
        (beginsNumber first = true → symbol.tail = []) ∧ first ≠ ' ' := by decide
  exact all _ known first rfl

def classify (chars : List Char) : Token :=
  if chars.head?.any Identifier.isStartChar then .word chars
  else if chars.head?.any beginsNumber ∧ chars ≠ ['.'] then .number chars
  else .symbol chars

namespace Lexeme

variable {token other : Token} {first : Char} {rest : List Char}

theorem number_begins {literal : List Char} (numeric : NumericLiteral literal)
    (same : literal = first :: rest) : beginsNumber first = true := by
  rcases numeric.begins with ⟨begin, others, written, begins⟩
  rw [written] at same
  rw [beginsNumber, Bool.or_eq_true, beq_iff_eq, ← (List.cons.inj same).1]
  exact begins

theorem chars_ne_nil (lexeme : token.Lexeme) : token.chars ≠ [] := by
  cases lexeme with
  | word => simp [chars]
  | number numeric =>
      rcases numeric.begins with ⟨first, rest, same, _⟩
      simp [chars, same]
  | symbol known =>
      have all : ∀ symbol ∈ symbols, symbol ≠ [] := by decide
      exact all _ known

theorem mayFollow_of_mem (lexeme : token.Lexeme) (same : token.chars = first :: rest) :
    ∀ char ∈ rest, mayFollow first char = true := by
  intro char inside
  cases lexeme with
  | word begins continues =>
      rcases List.cons.inj same with ⟨rfl, rfl⟩
      rw [mayFollow, if_pos begins]
      exact continues char inside
  | @number literal numeric =>
      have same : literal = first :: rest := same
      have begins := number_begins numeric same
      rw [mayFollow, if_neg (by simp [isStartChar_of_beginsNumber begins]), if_pos begins]
      exact numeric.chars char (same ▸ List.mem_cons_of_mem _ inside)
  | @symbol symbol known =>
      have same : symbol = first :: rest := same
      rw [same] at known
      rcases begins_of_mem_symbols known with ⟨noStart, point, _⟩
      have noNumber : ¬ beginsNumber first = true := by
        intro begins
        rw [point begins] at inside
        cases inside
      rw [mayFollow, if_neg (by simp [noStart]), if_neg noNumber, extendsSymbol, List.any_eq_true]
      exact ⟨_, known, by simpa using inside⟩

theorem append_ne_blank (lexeme : token.Lexeme) (rest text : List Char) :
    token.chars ++ rest ≠ ' ' :: text := by
  intro same
  cases lexeme with
  | word begins =>
      rw [(List.cons.inj same).1] at begins
      exact absurd begins (by decide)
  | @number literal numeric =>
      rcases numeric.begins with ⟨first, others, written, begins⟩
      have digit := number_begins numeric written
      have same : literal ++ rest = ' ' :: text := same
      rw [written] at same
      rw [(List.cons.inj same).1] at digit
      exact absurd digit (by decide)
  | @symbol symbol known =>
      have same : symbol ++ rest = ' ' :: text := same
      cases symbol with
      | nil => exact absurd known (by decide)
      | cons first others => exact (begins_of_mem_symbols known).2.2 (List.cons.inj same).1

theorem classify_chars (lexeme : token.Lexeme) : classify token.chars = token := by
  cases lexeme with
  | word begins => exact if_pos begins
  | number numeric =>
      rcases numeric.begins with ⟨first, rest, same, _⟩
      have begins := number_begins numeric same
      rw [classify, chars, if_neg, if_pos]
      · exact ⟨by simpa [same] using begins, numeric.ne_point⟩
      · simpa [same] using isStartChar_of_beginsNumber begins
  | @symbol symbol known =>
      cases symbol with
      | nil => rfl
      | cons first rest =>
          rcases begins_of_mem_symbols known with ⟨noStart, point, _⟩
          rw [classify, chars, if_neg (by simp [noStart]), if_neg]
          rintro ⟨begins, notPoint⟩
          have alone := point begins
          subst alone
          have all : ∀ symbol ∈ symbols, symbol.head?.any beginsNumber → symbol = ['.'] := by
            decide
          exact notPoint (all _ known begins)

theorem eq_of_chars (lexeme : token.Lexeme) (another : other.Lexeme)
    (same : token.chars = other.chars) : token = other := by
  rw [← lexeme.classify_chars, same, another.classify_chars]

/-- A token is the longest one if what comes behind it cannot stand in it. -/
theorem longest_of_stops {text : List Char} (begins : token.chars = first :: rest)
    (stops : ∀ char ∈ text.head?, mayFollow first char = false) : token.Longest text := by
  intro other lexeme within
  rw [begins] at within ⊢
  cases text with
  | nil =>
      rw [List.append_nil] at within
      exact within.length_le
  | cons char text =>
      refine Nat.le_of_not_lt fun longer => ?_
      have inside : first :: rest ++ [char] <+: other.chars := by
        refine List.prefix_of_prefix_length_le ?_ within ?_
        · exact ⟨text, by simp⟩
        · simp at longer ⊢
          omega
      rcases inside with ⟨more, same⟩
      have follows := lexeme.mayFollow_of_mem same.symm char (by simp)
      rw [stops char rfl] at follows
      cases follows

end Lexeme

end Token

namespace Lexes

variable {text : List Char} {tokens others : List Token}

/-- A text is divided in one way. -/
theorem unique (first : Lexes text tokens) (second : Lexes text others) : tokens = others := by
  induction first generalizing others with
  | done =>
      generalize same : [] = text at second
      cases second with
      | done => rfl
      | blank => cases same
      | token lexeme => exact absurd (List.append_eq_nil_iff.mp same.symm).1 lexeme.chars_ne_nil
  | @blank rest tokens follows induction =>
      generalize same : ' ' :: rest = text at second
      cases second with
      | done => cases same
      | blank second =>
          rw [(List.cons.inj same).2] at induction
          exact induction second
      | token lexeme => exact absurd same.symm (lexeme.append_ne_blank _ _)
  | @token token rest tokens lexeme longest follows induction =>
      generalize same : token.chars ++ rest = text at second
      cases second with
      | done => exact absurd (List.append_eq_nil_iff.mp same).1 lexeme.chars_ne_nil
      | blank => exact absurd same (lexeme.append_ne_blank _ _)
      | @token other behind others another longestToo second =>
          have atMost := longest other another (same ▸ List.prefix_append _ _)
          have atLeast := longestToo token lexeme (same ▸ List.prefix_append _ _)
          rcases List.append_inj same (Nat.le_antisymm atLeast atMost) with ⟨chars, rfl⟩
          rw [lexeme.eq_of_chars another chars, induction second]

end Lexes

end ShaderKit.Text
