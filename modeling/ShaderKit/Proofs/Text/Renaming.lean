import Mathlib.Data.List.Basic
import ShaderKit.Proofs.Text.NumericLiteral
import ShaderKit.Text.Rename

/-!
# Renaming and numeric literals

What renaming does to one part of a text. A part that is cut off at both ends is renamed
as it would be alone, apart from what a dot in front of it hides, and it is copied exactly
when none of its words is replaced. A word begins at any letter that no word
reaches: the letters that end a numeric literal are a word too.
-/

namespace ShaderKit.Text

open Identifier (isStartChar isBodyChar isBodyChar_of_isStartChar isStartChar_of_isDigit
  toNat_of_isDigit)

/-! ## Cutting a text at a place where no word is open -/

theorem closeWord_append (current : List Char) (front back : List Piece) :
    closeWord current (front ++ back) = closeWord current front ++ back := by
  unfold closeWord
  split <;> rfl

/-- A text is cut at a place in front of which no word can go on. -/
theorem piecesFrom_append {current front back : List Char}
    (cut : ∀ char ∈ back.head?, isBodyChar char = false) :
    piecesFrom current (front ++ back) = piecesFrom current front ++ pieces back := by
  induction front generalizing current with
  | nil =>
      rw [List.nil_append, piecesFrom]
      cases current with
      | nil => rfl
      | cons first others =>
          cases back with
          | nil => exact (List.append_nil _).symm
          | cons char rest =>
              have stop : isBodyChar char = false := cut char rfl
              have noStart : isStartChar char = false := by
                cases start : isStartChar char with
                | false => rfl
                | true => rw [isBodyChar_of_isStartChar start] at stop; cases stop
              simp [pieces, piecesFrom, closeWord, stop, noStart]
  | cons char front induction =>
      rw [List.cons_append, piecesFrom, piecesFrom]
      split
      next =>
        split
        next => exact induction
        next => rw [induction, List.cons_append]
      next =>
        split
        next => exact induction
        next => rw [induction, ← List.cons_append, closeWord_append]

theorem pieces_append {front back : List Char}
    (cut : ∀ char ∈ back.head?, isBodyChar char = false) :
    pieces (front ++ back) = pieces front ++ pieces back :=
  piecesFrom_append cut

theorem pieces_cons {char : Char} (noStart : isStartChar char = false) (rest : List Char) :
    pieces (char :: rest) = .other char :: pieces rest := by
  simp [pieces, piecesFrom, noStart]

theorem isStartChar_eq_false {char : Char} (stop : isBodyChar char = false) :
    isStartChar char = false := by
  rw [← Bool.not_eq_true] at stop ⊢
  exact fun start => stop (isBodyChar_of_isStartChar start)

theorem pieces_append_of_getLast? {front : List Char}
    (cut : ∀ char ∈ front.getLast?, isBodyChar char = false) (back : List Char) :
    pieces (front ++ back) = pieces front ++ pieces back := by
  rcases List.eq_nil_or_concat' front with rfl | ⟨others, last, rfl⟩
  · rfl
  · have stop : isBodyChar last = false := cut last (by simp)
    have head : ∀ rest, ∀ char ∈ (last :: rest).head?, isBodyChar char = false := by
      rintro rest char same
      cases same
      exact stop
    rw [List.append_assoc, List.singleton_append, pieces_append (head back),
      pieces_append (head []), pieces_cons (isStartChar_eq_false stop),
      pieces_cons (isStartChar_eq_false stop), List.append_assoc]
    rfl

/-! ## Renaming the parts of a text -/

variable (replacements : List (String × String))

/-- What renaming makes of a text; `afterDot` tells whether a dot stands in front of it. -/
def renameFrom (afterDot : Bool) (source : String) : String :=
  String.ofList (renamePieces replacements afterDot (pieces source.toList))

def endsBehindDot (afterDot : Bool) (source : String) : Bool :=
  (pieces source.toList).foldl followsDot afterDot

theorem renamePieces_append (afterDot : Bool) (front back : List Piece) :
    renamePieces replacements afterDot (front ++ back) =
      renamePieces replacements afterDot front ++
        renamePieces replacements (front.foldl followsDot afterDot) back := by
  induction front generalizing afterDot with
  | nil => rfl
  | cons piece front induction =>
      rw [List.cons_append, renamePieces, induction, ← List.append_assoc]
      rfl

theorem rename_append {before part after : String}
    (opens : ∀ char ∈ before.toList.getLast?, isBodyChar char = false)
    (closes : ∀ char ∈ after.toList.head?, isBodyChar char = false) :
    rename replacements (before ++ part ++ after) =
      rename replacements before ++
        renameFrom replacements (endsBehindDot false before) part ++
        renameFrom replacements (endsBehindDot (endsBehindDot false before) part) after := by
  simp only [rename, renameFrom, endsBehindDot, String.toList_append]
  rw [pieces_append closes, pieces_append_of_getLast? opens, renamePieces_append,
    renamePieces_append, List.foldl_append, String.ofList_append, String.ofList_append]

/-! ## Parts that are copied -/

def charsOf (pieces : List Piece) : List Char :=
  pieces.flatMap Piece.chars

/-- Words consist of word characters, and behind each stands a character that could not
continue it, or nothing. -/
inductive Separated : List Piece → Prop where
  | nil : Separated []
  | other {rest : List Piece} (char : Char) (separated : Separated rest) :
      Separated (.other char :: rest)
  | last {letters : List Char} (word : ∀ char ∈ letters, isBodyChar char = true) :
      Separated [.word letters]
  | word {letters : List Char} {stop : Char} {rest : List Piece}
      (word : ∀ char ∈ letters, isBodyChar char = true) (stops : isBodyChar stop = false)
      (separated : Separated rest) : Separated (.word letters :: .other stop :: rest)

theorem separated_piecesFrom {current : List Char}
    (word : ∀ char ∈ current, isBodyChar char = true) (text : List Char) :
    Separated (piecesFrom current text) := by
  induction text generalizing current with
  | nil =>
      rw [piecesFrom, closeWord]
      split
      next => exact .nil
      next => exact .last word
  | cons char text induction =>
      rw [piecesFrom]
      split
      next =>
        split
        next start =>
          exact induction (List.forall_mem_singleton.mpr (isBodyChar_of_isStartChar start))
        next => exact .other char (induction nofun)
      next opened =>
        split
        next goesOn =>
          exact induction (List.forall_mem_append.mpr ⟨word, List.forall_mem_singleton.mpr goesOn⟩)
        next stops =>
          rw [closeWord, if_neg opened]
          exact .word word (Bool.not_eq_true _ ▸ stops) (induction nofun)

theorem charsOf_piecesFrom (current text : List Char) :
    charsOf (piecesFrom current text) = current ++ text := by
  have closed : ∀ (current : List Char) (rest : List Piece),
      charsOf (closeWord current rest) = current ++ charsOf rest := by
    intro current rest
    rw [closeWord]
    split
    next empty => rw [List.isEmpty_iff.mp empty, List.nil_append]
    next => rfl
  induction text generalizing current with
  | nil => rw [piecesFrom, closed]; rfl
  | cons char text induction =>
      rw [piecesFrom]
      split
      next empty =>
        rw [List.isEmpty_iff.mp empty]
        split
        next => exact induction [char]
        next => exact congrArg (char :: ·) (induction [])
      next =>
        split
        next => rw [induction, List.append_assoc]; rfl
        next => rw [closed]; exact congrArg (current ++ char :: ·) (induction [])

def looseWords (afterDot : Bool) : List Piece → List (List Char)
  | [] => []
  | .word letters :: rest =>
      if afterDot then looseWords false rest else letters :: looseWords false rest
  | .other char :: rest => looseWords (followsDot afterDot (.other char)) rest

theorem looseWords_word (afterDot : Bool) (letters : List Char) (rest : List Piece) :
    looseWords afterDot (.word letters :: rest) =
      if afterDot then looseWords false rest else letters :: looseWords false rest := rfl

-- Comparing the two flags first would unfold what is blank down to its code points.
attribute [local irreducible] isBlank in
theorem looseWords_other (afterDot : Bool) (char : Char) (rest : List Piece) :
    looseWords afterDot (.other char :: rest) =
      looseWords (followsDot afterDot (.other char)) rest := rfl

def Keeps (letters : List Char) : Prop :=
  ∀ replacement, replacementOf replacements (String.ofList letters) = some replacement →
    replacement = String.ofList letters

theorem renamePiece_word_eq_iff {letters : List Char} :
    renamePiece replacements false (.word letters) = letters ↔ Keeps replacements letters := by
  rw [renamePiece, if_neg Bool.false_ne_true, Keeps]
  split
  next replacement found =>
    rw [found]
    constructor
    · rintro copied _ same
      cases same
      rw [← copied, String.ofList_toList]
    · intro kept
      rw [kept replacement rfl, String.toList_ofList]
  next missing =>
    rw [missing]
    exact ⟨fun _ _ impossible => (nomatch impossible), fun _ => rfl⟩

theorem word_append_inj {first second front back : List Char}
    (firstWord : ∀ char ∈ first, isBodyChar char = true)
    (secondWord : ∀ char ∈ second, isBodyChar char = true)
    (frontStops : ∀ char ∈ front.head?, isBodyChar char = false)
    (backStops : ∀ char ∈ back.head?, isBodyChar char = false)
    (same : first ++ front = second ++ back) : first = second ∧ front = back := by
  induction first generalizing second with
  | nil =>
      cases second with
      | nil => exact ⟨rfl, same⟩
      | cons char second =>
          rw [List.nil_append] at same
          have stops := frontStops char (by rw [same]; rfl)
          rw [secondWord char List.mem_cons_self] at stops
          cases stops
  | cons char first induction =>
      cases second with
      | nil =>
          rw [List.nil_append] at same
          have stops := backStops char (by rw [← same]; rfl)
          rw [firstWord char List.mem_cons_self] at stops
          cases stops
      | cons other second =>
          injection same with head tail
          rcases induction (fun char inside => firstWord char (List.mem_cons_of_mem _ inside))
            (fun char inside => secondWord char (List.mem_cons_of_mem _ inside)) tail with
            ⟨rfl, rest⟩
          exact ⟨by rw [head], rest⟩

def countStops (chars : List Char) : Nat :=
  chars.countP fun char => !isBodyChar char

theorem countStops_append (front back : List Char) :
    countStops (front ++ back) = countStops front + countStops back :=
  List.countP_append

theorem countStops_eq_zero {chars : List Char} :
    countStops chars = 0 ↔ ∀ char ∈ chars, isBodyChar char = true := by
  simp [countStops, List.countP_eq_zero]

theorem charsOf_other (char : Char) (rest : List Piece) :
    charsOf (.other char :: rest) = [char] ++ charsOf rest := rfl

theorem charsOf_word (letters : List Char) (rest : List Piece) :
    charsOf (.word letters :: rest) = letters ++ charsOf rest := rfl

theorem renamePieces_other (afterDot : Bool) (char : Char) (rest : List Piece) :
    renamePieces replacements afterDot (.other char :: rest) =
      [char] ++ renamePieces replacements (followsDot afterDot (.other char)) rest := rfl

theorem renamePieces_word (afterDot : Bool) (letters : List Char) (rest : List Piece) :
    renamePieces replacements afterDot (.word letters :: rest) =
      renamePiece replacements afterDot (.word letters) ++ renamePieces replacements false rest :=
  rfl

theorem countStops_charsOf_le {pieces : List Piece} (separated : Separated pieces)
    (afterDot : Bool) :
    countStops (charsOf pieces) ≤ countStops (renamePieces replacements afterDot pieces) := by
  induction separated generalizing afterDot with
  | nil => exact Nat.le_refl _
  | other char _ induction =>
      rw [charsOf_other, renamePieces_other, countStops_append, countStops_append]
      exact Nat.add_le_add_left (induction _) _
  | last word =>
      rw [charsOf_word, countStops_append, countStops_eq_zero.mpr word, Nat.zero_add]
      exact Nat.zero_le _
  | word word _ _ induction =>
      rw [charsOf_word, charsOf_other, renamePieces_word, renamePieces_other, countStops_append,
        countStops_eq_zero.mpr word, countStops_append, countStops_append, countStops_append,
        Nat.zero_add]
      exact Nat.le_add_left_of_le (Nat.add_le_add_left (induction _) _)

/-- Pieces that stay as they are as a whole stay so one by one: a replacement that brought
a character from outside of words could not be made good later. -/
theorem renamePieces_eq_charsOf_iff {pieces : List Piece} (separated : Separated pieces)
    (afterDot : Bool) :
    renamePieces replacements afterDot pieces = charsOf pieces ↔
      ∀ letters ∈ looseWords afterDot pieces, Keeps replacements letters := by
  have first : ∀ {letters : List Char} {afterDot : Bool} {rest : List (List Char)},
      (∀ word ∈ (if afterDot then rest else letters :: rest), Keeps replacements word) ↔
        renamePiece replacements afterDot (.word letters) = letters ∧
          ∀ word ∈ rest, Keeps replacements word := by
    intro letters afterDot rest
    cases afterDot with
    | true => exact ⟨fun kept => ⟨rfl, kept⟩, fun kept => kept.2⟩
    | false => rw [if_neg Bool.false_ne_true, List.forall_mem_cons, renamePiece_word_eq_iff]
  induction separated generalizing afterDot with
  | nil => exact ⟨fun _ => nofun, fun _ => rfl⟩
  | other char _ induction =>
      rw [renamePieces_other, charsOf_other, List.append_cancel_left_eq, looseWords_other]
      exact induction _
  | last word =>
      rw [looseWords_word, show looseWords false [] = [] from rfl, first, renamePieces_word, charsOf_word, renamePieces, charsOf,
        List.flatMap_nil, List.append_nil, List.append_nil]
      exact ⟨fun kept => ⟨kept, nofun⟩, fun kept => kept.1⟩
  | @word letters stop rest word stops separated induction =>
      rw [looseWords_word, first, looseWords_other, renamePieces_word, charsOf_word, renamePieces_other,
        charsOf_other]
      constructor
      · intro same
        have counts := congrArg countStops same
        rw [countStops_append, countStops_append, countStops_append, countStops_append,
          countStops_eq_zero.mpr word] at counts
        have more := countStops_charsOf_le replacements separated (followsDot false (.other stop))
        have renamed := countStops_eq_zero.mp
          (show countStops (renamePiece replacements afterDot (.word letters)) = 0 by omega)
        have stopsThere : ∀ back, ∀ char ∈ ([stop] ++ back).head?, isBodyChar char = false := by
          rintro back char found
          cases found
          exact stops
        rcases word_append_inj renamed word (stopsThere _) (stopsThere _) same with
          ⟨kept, rest⟩
        exact ⟨kept, (induction _).mp (List.append_cancel_left rest)⟩
      · rintro ⟨kept, rest⟩
        rw [kept, (induction _).mpr rest]

/-- A text is copied exactly when no word that follows no dot is replaced. -/
theorem renameFrom_eq_iff (afterDot : Bool) (source : String) :
    renameFrom replacements afterDot source = source ↔
      ∀ letters ∈ looseWords afterDot (pieces source.toList), Keeps replacements letters := by
  have whole : charsOf (pieces source.toList) = source.toList := charsOf_piecesFrom [] _
  have separated : Separated (pieces source.toList) :=
    separated_piecesFrom (List.forall_mem_nil _) source.toList
  rw [← renamePieces_eq_charsOf_iff replacements separated, whole, renameFrom]
  constructor
  · intro copied
    rw [← String.toList_ofList (l := renamePieces _ _ _), copied]
  · intro copied
    rw [copied, String.ofList_toList]

/-! ## The letters of words -/

theorem start_of_word_mem {current text letters : List Char}
    (opened : ∀ char ∈ current.head?, isStartChar char = true)
    (inside : .word letters ∈ piecesFrom current text) :
    ∃ first others, letters = first :: others ∧ isStartChar first = true := by
  have closing : ∀ {current : List Char} {rest : List Piece},
      (∀ char ∈ current.head?, isStartChar char = true) →
      .word letters ∈ closeWord current rest →
        (∃ first others, letters = first :: others ∧ isStartChar first = true) ∨
          .word letters ∈ rest := by
    intro current rest opened inside
    cases current with
    | nil => exact .inr inside
    | cons first others =>
        rcases List.mem_cons.mp inside with same | inside
        · cases same
          exact .inl ⟨first, others, rfl, opened first rfl⟩
        · exact .inr inside
  have noneOpen : ∀ char ∈ ([] : List Char).head?, isStartChar char = true :=
    fun _ impossible => nomatch impossible
  induction text generalizing current with
  | nil =>
      rcases closing opened inside with found | impossible
      · exact found
      · cases impossible
  | cons char text induction =>
      rw [piecesFrom] at inside
      split at inside
      next =>
        split at inside
        next start =>
          refine induction ?_ inside
          rintro char same
          cases same
          exact start
        next =>
          rcases List.mem_cons.mp inside with impossible | inside
          · cases impossible
          · exact induction noneOpen inside
      next filled =>
        split at inside
        next =>
          refine induction ?_ inside
          cases current with
          | nil => exact absurd rfl filled
          | cons first others => exact opened
        next =>
          rcases closing opened inside with found | inside
          · exact found
          · rcases List.mem_cons.mp inside with impossible | inside
            · cases impossible
            · exact induction noneOpen inside

theorem word_mem_of_mem_looseWords {pieces : List Piece} {letters : List Char} {afterDot : Bool}
    (inside : letters ∈ looseWords afterDot pieces) : .word letters ∈ pieces := by
  induction pieces generalizing afterDot with
  | nil => cases inside
  | cons piece rest induction =>
      cases piece with
      | other char => exact List.mem_cons_of_mem _ (induction inside)
      | word found =>
          rw [looseWords_word] at inside
          split at inside
          next => exact List.mem_cons_of_mem _ (induction inside)
          next =>
            rcases List.mem_cons.mp inside with rfl | inside
            · exact List.mem_cons_self
            · exact List.mem_cons_of_mem _ (induction inside)

theorem start_of_mem_looseWords {text letters : List Char} {afterDot : Bool}
    (inside : letters ∈ looseWords afterDot (pieces text)) :
    ∃ first others, letters = first :: others ∧ isStartChar first = true ∧ first ∈ text := by
  have word := word_mem_of_mem_looseWords inside
  rcases start_of_word_mem (by simp) word with ⟨first, others, rfl, start⟩
  refine ⟨first, others, rfl, start, ?_⟩
  have within : first ∈ charsOf (pieces text) :=
    List.mem_flatMap.mpr ⟨_, word, List.mem_cons_self⟩
  rwa [pieces, charsOf_piecesFrom] at within

/-! ## Numeric literals -/

/-- The letters of numeric literals: hexadecimal digits, the marks of hexadecimal literals
and exponents, and suffixes. -/
def literalLetters : List Char :=
  ['a', 'b', 'c', 'd', 'e', 'f', 'A', 'B', 'C', 'D', 'E', 'F', 'x', 'X', 'p', 'P', 'h', 'i', 'u']

theorem isBlank_of_isDigit {char : Char} (digit : char.isDigit = true) : isBlank char = false := by
  rcases toNat_of_isDigit digit with ⟨atLeast, atMost⟩
  simp [isBlank]
  omega

theorem mem_literalLetters {char : Char} (known : isLiteralChar char = true)
    (start : isStartChar char = true) : char ∈ literalLetters := by
  have listed : ∀ char ∈ ['a', 'b', 'c', 'd', 'e', 'f', 'A', 'B', 'C', 'D', 'E', 'F', '.', '+',
      '-', 'x', 'X', 'p', 'P', 'h', 'i', 'u'], isStartChar char = true → char ∈ literalLetters := by
    decide
  refine listed char ?_ start
  rw [isLiteralChar, isHexDigit, Bool.or_eq_true, Bool.or_eq_true] at known
  rcases known with (digit | hex) | other
  · rw [isStartChar_of_isDigit digit] at start
    cases start
  · exact List.mem_append_left _ (List.contains_iff_mem.mp hex)
  · exact List.mem_append_right
      ['a', 'b', 'c', 'd', 'e', 'f', 'A', 'B', 'C', 'D', 'E', 'F'] (List.contains_iff_mem.mp other)

namespace NumericLiteral

variable {literal : String}

/-- The first character of a numeric literal decides whether a dot stands in front of what
follows. -/
theorem pieces_eq (numeric : NumericLiteral literal.toList) :
    ∃ first rest, pieces literal.toList = .other first :: rest ∧ isBlank first = false := by
  rcases numeric.begins with ⟨first, rest, same, digit | rfl⟩
  · rw [same, pieces_cons (isStartChar_of_isDigit digit)]
    exact ⟨first, _, rfl, isBlank_of_isDigit digit⟩
  · rw [same, pieces_cons (by decide)]
    exact ⟨'.', _, rfl, by decide⟩

theorem renameFrom_eq (numeric : NumericLiteral literal.toList) (afterDot : Bool) :
    renameFrom replacements afterDot literal = rename replacements literal := by
  rcases numeric.pieces_eq with ⟨first, rest, same, notBlank⟩
  rw [renameFrom, rename, same, renamePieces_other, renamePieces_other, followsDot, followsDot,
    notBlank]
  rfl

theorem endsBehindDot_eq (numeric : NumericLiteral literal.toList) (afterDot : Bool) :
    endsBehindDot afterDot literal = endsBehindDot false literal := by
  rcases numeric.pieces_eq with ⟨first, rest, same, notBlank⟩
  rw [endsBehindDot, endsBehindDot, same, List.foldl_cons, List.foldl_cons, followsDot, followsDot,
    notBlank]
  rfl

end NumericLiteral

/-- A numeric literal in a text is renamed as it stands alone, and copied exactly when no
word in it is replaced: such a word follows no dot and begins with a hexadecimal letter, a
mark or a suffix. -/
theorem rename_numericLiteral {before literal after : String}
    (numeric : NumericLiteral literal.toList)
    (opens : ∀ char ∈ before.toList.getLast?, isBodyChar char = false)
    (closes : ∀ char ∈ after.toList.head?, isBodyChar char = false) :
    rename replacements (before ++ literal ++ after) =
        rename replacements before ++ rename replacements literal ++
          renameFrom replacements (endsBehindDot false literal) after ∧
      (rename replacements literal = literal ↔
        ∀ letters ∈ looseWords false (pieces literal.toList), Keeps replacements letters) ∧
      ∀ letters ∈ looseWords false (pieces literal.toList),
        ∃ first others, letters = first :: others ∧ first ∈ literalLetters := by
  refine ⟨?_, renameFrom_eq_iff replacements false literal, ?_⟩
  · rw [rename_append replacements opens closes, numeric.renameFrom_eq, numeric.endsBehindDot_eq]
  · intro letters inside
    rcases start_of_mem_looseWords inside with ⟨first, others, rfl, start, within⟩
    exact ⟨first, others, rfl, mem_literalLetters (numeric.chars first within) start⟩

/-- A literal whose suffix no replacement names is copied, beside a word that is replaced. -/
theorem rename_numericLiteral_exampleScaled :
    rename [("sq", "square")] ("return " ++ "2u" ++ " * sq(n);") =
      "return " ++ "2u" ++ " * square(n);" := by
  have numeric : NumericLiteral "2u".toList :=
    @NumericLiteral.integer '2' [] ['u'] (by decide) (by decide) (by decide) (by decide)
  rcases @rename_numericLiteral [("sq", "square")] "return " "2u" " * sq(n);" numeric
    (by decide) (by decide) with ⟨parts, copied, _⟩
  have words : looseWords false (pieces "2u".toList) = [['u']] := by decide +kernel
  have kept : Keeps [("sq", "square")] ['u'] := by
    intro replacement found
    have unnamed : replacementOf [("sq", "square")] (String.ofList ['u']) = none := by
      decide +kernel
    rw [unnamed] at found
    cases found
  rw [words, List.forall_mem_singleton] at copied
  rw [parts, copied.mpr kept]
  decide +kernel

/-- The suffix of a literal is taken for a word: `2u` becomes something else. -/
theorem rename_exampleSuffix_replaced :
    NumericLiteral "2u".toList ∧
      rename [("u", "unit")] "2u * u(n)" = "2unit * unit(n)" ∧
      rename [("u", "unit")] "2u" ≠ "2u" :=
  ⟨@NumericLiteral.integer '2' [] ['u'] (by decide) (by decide) (by decide) (by decide),
    by decide +kernel, by decide +kernel⟩

end ShaderKit.Text
