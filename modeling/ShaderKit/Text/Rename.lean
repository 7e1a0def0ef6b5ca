import ShaderKit.Identifier
import ShaderKit.Text.Blank

/-!
# Renaming words in a text

A text is cut into words, which are runs of identifier characters that begin with a
letter or an underscore, and single other characters. Renaming replaces whole words and
leaves alone the words that follow a dot, because those name members.
-/

namespace ShaderKit.Text

open Identifier (isStartChar isBodyChar)

inductive Piece where
  | word (letters : List Char)
  | other (char : Char)
deriving DecidableEq, Repr

def Piece.chars : Piece → List Char
  | .word letters => letters
  | .other char => [char]

def closeWord (current : List Char) (rest : List Piece) : List Piece :=
  if current.isEmpty then rest else .word current :: rest

def piecesFrom (current : List Char) : List Char → List Piece
  | [] => closeWord current []
  | char :: rest =>
      if current.isEmpty then
        if isStartChar char then piecesFrom [char] rest
        else .other char :: piecesFrom [] rest
      else if isBodyChar char then piecesFrom (current ++ [char]) rest
      else closeWord current (.other char :: piecesFrom [] rest)

def pieces (text : List Char) : List Piece :=
  piecesFrom [] text

/-- The replacement of a word: the last pair of that name counts. -/
def replacementOf (replacements : List (String × String)) (word : String) : Option String :=
  (replacements.reverse.find? fun pair => pair.1 == word).map Prod.snd

/-- Whether the next word follows a dot, once this piece has been passed. Blank
characters change nothing. -/
def followsDot (before : Bool) : Piece → Bool
  | .word _ => false
  | .other char => if isBlank char then before else char == '.'

def renamePiece (replacements : List (String × String)) (afterDot : Bool) :
    Piece → List Char
  | .other char => [char]
  | .word letters =>
      if afterDot then letters
      else match replacementOf replacements (String.ofList letters) with
        | some replacement => replacement.toList
        | none => letters

def renamePieces (replacements : List (String × String)) (afterDot : Bool) :
    List Piece → List Char
  | [] => []
  | piece :: rest =>
      renamePiece replacements afterDot piece ++
        renamePieces replacements (followsDot afterDot piece) rest

/-- Replace every whole word that has a replacement and follows no dot. -/
def rename (replacements : List (String × String)) (source : String) : String :=
  String.ofList (renamePieces replacements false (pieces source.toList))

end ShaderKit.Text
