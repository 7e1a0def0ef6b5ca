import Mathlib.Data.List.Induction
import Mathlib.Data.List.TakeWhile
import ShaderKit.Proofs.Text.Renaming

/-!
# Renaming is a substitution

Renaming replaces the words of a text all at once. A word is meant here by where it stands: no
longer word of the text contains it. At every such place the text comes apart, in front of the
first word nothing changes, and from this follows that two renamings in a row are one.
-/

namespace ShaderKit.Text

open Identifier (isStartChar isBodyChar isBodyChar_of_isStartChar)

/-! ## Words and where they stand -/

def IsWord : List Char → Prop
  | [] => False
  | first :: rest => isStartChar first = true ∧ ∀ char ∈ rest, isBodyChar char = true

/-- A word between two parts of a text that is contained in no longer word. -/
structure StandsAlone (before word after : List Char) : Prop where
  shape : IsWord word
  left : ∀ front more, before = front ++ more → IsWord (more ++ word) → more = []
  right : ∀ more back, after = more ++ back → IsWord (word ++ more) → more = []

def behindDot (text : List Char) : Bool :=
  (text.reverse.dropWhile isBlank).head? == some '.'

example : behindDot "a . ".toList = true := by decide
example : behindDot "a.b ".toList = false := by decide

namespace IsWord

variable {word more : List Char}

theorem body (shape : IsWord word) : ∀ char ∈ word, isBodyChar char = true := by
  cases word with
  | nil => cases shape
  | cons first rest =>
      exact List.forall_mem_cons.mpr ⟨isBodyChar_of_isStartChar shape.1, shape.2⟩

theorem append (shape : IsWord word) (body : ∀ char ∈ more, isBodyChar char = true) :
    IsWord (word ++ more) := by
  cases word with
  | nil => cases shape
  | cons first rest => exact ⟨shape.1, List.forall_mem_append.mpr ⟨shape.2, body⟩⟩

theorem ne_nil (shape : IsWord word) : word ≠ [] := by
  rintro rfl
  cases shape

end IsWord

namespace StandsAlone

variable {before word after : List Char}

theorem stops (standing : StandsAlone before word after) :
    ∀ char ∈ after.head?, isBodyChar char = false := by
  intro char next
  cases after with
  | nil => cases next
  | cons first rest =>
      cases next
      by_contra continues
      have continues : isBodyChar char = true := Bool.of_not_eq_false continues
      have longer := standing.shape.append (List.forall_mem_singleton.mpr continues)
      cases standing.right [char] rest rfl longer

theorem right_of_stops (stops : ∀ char ∈ after.head?, isBodyChar char = false)
    (more back : List Char) (same : after = more ++ back) (longer : IsWord (word ++ more)) :
    more = [] := by
  cases more with
  | nil => rfl
  | cons first rest =>
      have stop := stops first (by rw [same]; rfl)
      rw [longer.body first (by simp)] at stop
      cases stop

theorem of_first (shape : IsWord word) (noStart : ∀ char ∈ before, isStartChar char = false)
    (stops : ∀ char ∈ after.head?, isBodyChar char = false) : StandsAlone before word after where
  shape := shape
  left := by
    intro front more same longer
    cases more with
    | nil => rfl
    | cons first rest =>
        have start := noStart first (same ▸ List.mem_append_right _ List.mem_cons_self)
        rw [longer.1] at start
        cases start
  right := right_of_stops stops

theorem of_stops (shape : IsWord word) (opens : ∀ char ∈ before.getLast?, isBodyChar char = false)
    (stops : ∀ char ∈ after.head?, isBodyChar char = false) : StandsAlone before word after where
  shape := shape
  left := by
    intro front more same longer
    rcases List.eq_nil_or_concat' more with rfl | ⟨others, last, rfl⟩
    · rfl
    · have opened := opens last (by simp [same])
      rw [longer.body last (by simp)] at opened
      cases opened
  right := right_of_stops stops

end StandsAlone

theorem exists_first (text : List Char) :
    (∀ char ∈ text, isStartChar char = false) ∨
      ∃ before word after, text = before ++ word ++ after ∧
        (∀ char ∈ before, isStartChar char = false) ∧ IsWord word ∧
        ∀ char ∈ after.head?, isBodyChar char = false := by
  induction text with
  | nil => exact .inl nofun
  | cons char text induction =>
      cases start : isStartChar char with
      | false =>
          apply induction.imp
          · exact fun none => List.forall_mem_cons.mpr ⟨start, none⟩
          · rintro ⟨before, word, after, rfl, none, shape, stops⟩
            exact ⟨char :: before, word, after, rfl, List.forall_mem_cons.mpr ⟨start, none⟩,
              shape, stops⟩
      | true =>
          refine .inr ⟨[], char :: text.takeWhile isBodyChar, text.dropWhile isBodyChar, ?_, nofun,
            ⟨start, fun char inside => List.mem_takeWhile_imp inside⟩, ?_⟩
          · simp
          · intro next found
            have stops := List.head?_dropWhile_not isBodyChar text
            rw [Option.mem_def.mp found] at stops
            simpa using stops

/-! ## Pieces around a word -/

theorem exists_opened (current front : List Char) :
    ∃ closed opened, ∀ back,
      piecesFrom current (front ++ back) = closed ++ piecesFrom opened back := by
  induction front generalizing current with
  | nil => exact ⟨[], current, fun _ => rfl⟩
  | cons char front induction =>
      simp only [List.cons_append, piecesFrom]
      split
      next =>
        split
        next => exact induction [char]
        next =>
          rcases induction [] with ⟨closed, opened, cut⟩
          exact ⟨.other char :: closed, opened, fun back => congrArg _ (cut back)⟩
      next =>
        split
        next => exact induction _
        next =>
          rcases induction [] with ⟨closed, opened, cut⟩
          refine ⟨closeWord current (.other char :: closed), opened, fun back => ?_⟩
          rw [cut, ← closeWord_append, List.cons_append]

theorem piecesFrom_body {current word : List Char} (opened : current ≠ [])
    (body : ∀ char ∈ word, isBodyChar char = true) :
    piecesFrom current word = [.word (current ++ word)] := by
  induction word generalizing current with
  | nil => simp [piecesFrom, closeWord, opened]
  | cons char word induction =>
      rcases List.forall_mem_cons.mp body with ⟨first, rest⟩
      rw [piecesFrom, if_neg (by simpa using opened), if_pos first, induction (by simp) rest]
      simp

theorem pieces_word {word : List Char} (shape : IsWord word) : pieces word = [.word word] := by
  cases word with
  | nil => cases shape
  | cons first rest =>
      rw [pieces, piecesFrom, if_pos (by rfl), if_pos shape.1]
      exact piecesFrom_body (by simp) shape.2

theorem Separated.body {pieces : List Piece} (separated : Separated pieces) {letters : List Char}
    (inside : .word letters ∈ pieces) : ∀ char ∈ letters, isBodyChar char = true := by
  induction separated with
  | nil => cases inside
  | other char _ induction =>
      rcases List.mem_cons.mp inside with impossible | inside
      · cases impossible
      · exact induction inside
  | last word =>
      cases List.mem_singleton.mp inside
      exact word
  | word word _ _ induction =>
      rcases List.mem_cons.mp inside with same | inside
      · cases same
        exact word
      · rcases List.mem_cons.mp inside with impossible | inside
        · cases impossible
        · exact induction inside

theorem isWord_of_mem_pieces {text letters : List Char} (inside : .word letters ∈ pieces text) :
    IsWord letters := by
  have body := (separated_piecesFrom (List.forall_mem_nil _) text).body inside
  rcases start_of_word_mem (by simp) inside with ⟨first, others, rfl, start⟩
  exact ⟨start, (List.forall_mem_cons.mp body).2⟩

/-- The pieces of a text come apart at a word that stands alone. -/
theorem StandsAlone.pieces_eq {before word after : List Char}
    (standing : StandsAlone before word after) :
    pieces (before ++ word ++ after) = pieces before ++ .word word :: pieces after := by
  rcases exists_opened [] before with ⟨closed, opened, cut⟩
  have front : pieces before = closed ++ piecesFrom opened [] := by
    have cut := cut []
    rwa [List.append_nil] at cut
  have none : opened = [] := by
    cases opened with
    | nil => rfl
    | cons first rest =>
        -- The open word would go on in the word behind it.
        have closes : piecesFrom (first :: rest) [] = [.word (first :: rest)] := rfl
        have shape : IsWord (first :: rest) :=
          @isWord_of_mem_pieces before _ (by rw [front, closes]; simp)
        have chars := charsOf_piecesFrom [] before
        rw [← pieces, front, closes, charsOf, List.flatMap_append, List.flatMap_singleton] at chars
        exact standing.left _ _ chars.symm (shape.append standing.shape.body)
  subst none
  have whole : pieces (before ++ word) = pieces before ++ pieces word := by
    rw [front]
    simpa [pieces, piecesFrom, closeWord] using cut word
  rw [pieces_append standing.stops, whole, pieces_word standing.shape, List.append_assoc]
  rfl

/-! ## Dots in front of words -/

theorem behindDot_concat (text : List Char) (char : Char) :
    behindDot (text ++ [char]) = if isBlank char then behindDot text else char == '.' := by
  rw [behindDot, List.reverse_concat, List.dropWhile_cons]
  split
  next => rfl
  next => simp

theorem toNat_of_isBodyChar {char : Char} (body : isBodyChar char = true) :
    48 ≤ char.toNat ∧ char.toNat ≤ 122 := by
  rcases Identifier.isBodyChar_iff.mp body with
    ⟨least, greatest⟩ | ⟨least, greatest⟩ | ⟨least, greatest⟩ | rfl
  · exact ⟨Nat.le_trans (by decide) least, greatest⟩
  · exact ⟨Nat.le_trans (by decide) least, Nat.le_trans greatest (by decide)⟩
  · exact ⟨least, Nat.le_trans greatest (by decide)⟩
  · decide

theorem behindDot_append_word (text : List Char) {word : List Char} (shape : IsWord word) :
    behindDot (text ++ word) = false := by
  rcases List.eq_nil_or_concat' word with rfl | ⟨others, last, rfl⟩
  · cases shape
  · have range := toNat_of_isBodyChar (shape.body last (by simp))
    have noBlank : isBlank last = false := by
      simp [isBlank]
      omega
    have noDot : last ≠ '.' := by
      rintro rfl
      exact absurd range.1 (by decide)
    rw [← List.append_assoc, behindDot_concat, noBlank]
    simpa using noDot

theorem foldl_followsDot {pieces : List Piece}
    (words : ∀ letters, .word letters ∈ pieces → IsWord letters) :
    pieces.foldl followsDot false = behindDot (charsOf pieces) := by
  induction pieces using List.reverseRecOn with
  | nil => rfl
  | append_singleton front last induction =>
      have front := induction fun letters inside => words letters (List.mem_append_left _ inside)
      rw [List.foldl_append, charsOf, List.flatMap_append, List.flatMap_singleton, ← charsOf]
      cases last with
      | word letters => exact (behindDot_append_word _ (words letters (by simp))).symm
      | other char =>
          rw [Piece.chars, behindDot_concat, ← front]
          rfl

/-! ## What renaming does to a text -/

variable (replacements : List (String × String))

def renamed (word : String) : String :=
  (replacementOf replacements word).getD word

def renameChars (text : List Char) : List Char :=
  renamePieces replacements false (pieces text)

theorem rename_eq (source : String) :
    rename replacements source = String.ofList (renameChars replacements source.toList) :=
  rfl

theorem renamePiece_word (afterDot : Bool) (letters : List Char) :
    renamePiece replacements afterDot (.word letters) =
      if afterDot then letters else (renamed replacements (String.ofList letters)).toList := by
  rw [renamePiece, renamed]
  cases replacementOf replacements (String.ofList letters) with
  | none => simp
  | some replacement => rfl

/-- At a word that stands alone a text is renamed part by part. The word is replaced unless it
names a member. -/
theorem renameChars_append {before word after : List Char}
    (standing : StandsAlone before word after) :
    renameChars replacements (before ++ word ++ after) =
      renameChars replacements before ++
        (if behindDot before then word else (renamed replacements (String.ofList word)).toList) ++
        renameChars replacements after := by
  have dotted := foldl_followsDot fun letters => @isWord_of_mem_pieces before letters
  rw [pieces, charsOf_piecesFrom, List.nil_append, ← pieces] at dotted
  rw [renameChars, standing.pieces_eq, renamePieces_append, dotted, renamePieces_word,
    renamePiece_word, ← List.append_assoc]
  rfl

theorem renameChars_of_noStart {text : List Char}
    (noStart : ∀ char ∈ text, isStartChar char = false) :
    renameChars replacements text = text := by
  have all (afterDot : Bool) : renamePieces replacements afterDot (pieces text) = text := by
    induction text generalizing afterDot with
    | nil => rfl
    | cons char text induction =>
        rcases List.forall_mem_cons.mp noStart with ⟨first, rest⟩
        rw [pieces_cons first, renamePieces_other, induction rest, List.singleton_append]
  exact all false

theorem stops_renameChars {text : List Char}
    (stops : ∀ char ∈ text.head?, isBodyChar char = false) :
    ∀ char ∈ (renameChars replacements text).head?, isBodyChar char = false := by
  cases text with
  | nil => exact stops
  | cons first rest =>
      have stop := stops first rfl
      rw [renameChars, pieces_cons (isStartChar_eq_false stop), renamePieces_other]
      intro char found
      cases found
      exact stop

/-- Two renamings in a row. The words that the first one puts in are words of their own for the
second one, and what stands around them is the same. -/
theorem renameChars_renameChars {first second combined : List (String × String)}
    (words : ∀ word replacement, replacementOf first word = some replacement →
      IsWord replacement.toList)
    (composed : ∀ word, renamed combined word = renamed second (renamed first word))
    (text : List Char) :
    renameChars second (renameChars first text) = renameChars combined text := by
  induction size : text.length using Nat.strongRecOn generalizing text with
  | ind length induction =>
      rcases exists_first text with none | ⟨before, word, after, rfl, none, shape, stops⟩
      · rw [renameChars_of_noStart first none, renameChars_of_noStart second none,
          renameChars_of_noStart combined none]
      · have rest : renameChars second (renameChars first after) = renameChars combined after := by
          apply induction after.length _ after rfl
          have filled := List.length_pos_of_ne_nil shape.ne_nil
          simp only [List.length_append] at size
          omega
        have again {image : List Char} (imageShape : IsWord image) :=
          renameChars_append second
            (StandsAlone.of_first imageShape none (stops_renameChars first stops))
        rw [renameChars_append first (.of_first shape none stops),
          renameChars_append combined (.of_first shape none stops),
          renameChars_of_noStart first none, renameChars_of_noStart combined none]
        cases dotted : behindDot before with
        | true =>
            simp only [if_true]
            rw [again shape, dotted, renameChars_of_noStart second none, rest]
            rfl
        | false =>
            have imageShape : IsWord (renamed first (String.ofList word)).toList := by
              rw [renamed]
              cases found : replacementOf first (String.ofList word) with
              | none => simpa using shape
              | some replacement => exact words _ _ found
            simp only [Bool.false_eq_true, if_false]
            rw [again imageShape, dotted, renameChars_of_noStart second none, rest, composed]
            simp

/-! ## Two renamings as one -/

/-- The replacements of two renamings in a row. -/
def compose (first second : List (String × String)) : List (String × String) :=
  second ++ first.map fun pair => (pair.1, renamed second pair.2)

theorem replacementOf_append (front back : List (String × String)) (word : String) :
    replacementOf (front ++ back) word =
      (replacementOf back word).or (replacementOf front word) := by
  simp only [replacementOf, List.reverse_append, List.find?_append]
  cases back.reverse.find? fun pair => pair.1 == word <;> rfl

theorem mem_of_replacementOf {word replacement : String}
    (found : replacementOf replacements word = some replacement) :
    (word, replacement) ∈ replacements := by
  rcases Option.map_eq_some_iff.mp found with ⟨⟨name, image⟩, known, rfl⟩
  have same : name = word := by simpa using List.find?_some known
  rw [← same]
  exact List.mem_reverse.mp (List.mem_of_find?_eq_some known)

theorem renamed_compose (first second : List (String × String)) (word : String) :
    renamed (compose first second) word = renamed second (renamed first word) := by
  have mapped : replacementOf (first.map fun pair => (pair.1, renamed second pair.2)) word =
      (replacementOf first word).map (renamed second) := by
    simp only [replacementOf, ← List.map_reverse, List.find?_map, Option.map_map]
    rfl
  rw [renamed, compose, replacementOf_append, mapped, renamed, renamed]
  cases replacementOf first word <;> rfl

/-- Renaming is a substitution of whole words, all at once. A text comes apart at every word that
stands alone: the word is replaced by what its name stands for, unless it names a member, and a
text without letters is copied. Two renamings in a row, the first of which puts in words, are one
by the composed names. Without replacements a text is copied. -/
theorem rename_substitutes (source : String) :
    rename [] source = source ∧
      (∀ replacements,
        ((∀ char ∈ source.toList, isStartChar char = false) →
            rename replacements source = source) ∧
          ∀ before word after, source = before ++ word ++ after →
            StandsAlone before.toList word.toList after.toList →
              rename replacements source = rename replacements before ++
                (if behindDot before.toList then word else renamed replacements word) ++
                rename replacements after) ∧
      ∀ first second combined,
        (∀ word replacement, replacementOf first word = some replacement →
          IsWord replacement.toList) →
        (∀ word, renamed combined word = renamed second (renamed first word)) →
          rename second (rename first source) = rename combined source := by
  refine ⟨?_, fun replacements => ⟨?_, ?_⟩, ?_⟩
  · exact (renameFrom_eq_iff [] false source).mpr fun _ _ _ impossible => nomatch impossible
  · intro noStart
    rw [rename_eq, renameChars_of_noStart replacements noStart, String.ofList_toList]
  · rintro before word after rfl standing
    simp only [rename_eq, String.toList_append, renameChars_append replacements standing,
      String.ofList_append, String.ofList_toList]
    split <;> simp
  · intro first second combined words composed
    rw [rename_eq, rename_eq, String.toList_ofList, renameChars_renameChars words composed]
    rfl

def exampleSource : String := "2u * a. \tsq(x) + sq(é)"

theorem rename_substitutes_exampleSource :
    rename [("square", "item_0"), ("x", "y")] (rename [("sq", "square"), ("u", "sq")]
        exampleSource) = "2sq * a. \tsq(y) + item_0(é)" ∧
      rename [("sq", "square"), ("u", "sq")] exampleSource =
        rename [("sq", "square"), ("u", "sq")] "2u * a. \t" ++ "sq" ++
          rename [("sq", "square"), ("u", "sq")] "(x) + sq(é)" ∧
      rename [("sq", "square"), ("u", "sq")] "1 + (é)" = "1 + (é)" ∧
      rename [] exampleSource = exampleSource := by
  have words : ∀ word replacement,
      replacementOf [("sq", "square"), ("u", "sq")] word = some replacement →
        IsWord replacement.toList := by
    intro word replacement found
    have listed := mem_of_replacementOf _ found
    simp only [List.mem_cons, Prod.mk.injEq, List.not_mem_nil, or_false] at listed
    rcases listed with ⟨_, rfl⟩ | ⟨_, rfl⟩ <;> exact ⟨by decide, by decide⟩
  have standing : StandsAlone "2u * a. \t".toList "sq".toList "(x) + sq(é)".toList :=
    .of_stops ⟨by decide, by decide⟩ (by decide) (by decide)
  rcases rename_substitutes exampleSource with ⟨none, parts, both⟩
  have together := both [("sq", "square"), ("u", "sq")] [("square", "item_0"), ("x", "y")]
    (compose [("sq", "square"), ("u", "sq")] [("square", "item_0"), ("x", "y")]) words
    (renamed_compose _ _)
  have apart := (parts [("sq", "square"), ("u", "sq")]).2 _ _ _ (by decide) standing
  have dotted : behindDot "2u * a. \t".toList = true := by decide
  rw [if_pos dotted] at apart
  have copied := ((rename_substitutes "1 + (é)").2.1 [("sq", "square"), ("u", "sq")]).1 (by decide)
  refine ⟨?_, apart, copied, none⟩
  rw [together]
  decide +kernel

end ShaderKit.Text
