/-!
# Indented text

A text that grows by whole lines, each indented by the current level. An empty line is
written without indentation.
-/

namespace ShaderKit

/-- Text under construction, with the indentation level of its next line. -/
structure IndentedText where
  level : Nat := 0
  text : String := ""
deriving DecidableEq, Repr

namespace IndentedText

def indentation : Nat → String
  | 0 => ""
  | level + 1 => "  " ++ indentation level

/-- Append one line. Only its beginning is indented, whatever the content holds. -/
def line (target : IndentedText) (content : String) : IndentedText :=
  let indented := if content == "" then "" else indentation target.level ++ content
  { target with text := target.text ++ indented ++ "\n" }

def lines (target : IndentedText) (contents : List String) : IndentedText :=
  contents.foldl line target

def indent (target : IndentedText) : IndentedText :=
  { target with level := target.level + 1 }

def outdent (target : IndentedText) : IndentedText :=
  { target with level := target.level - 1 }

def dropReturn (line : List Char) : List Char :=
  match line.getLast? with
  | some '\r' => line.dropLast
  | _ => line

/-- Cut a text at its line feeds. The text before the first cut continues `current`, and
nothing after the last line feed makes no line. -/
def splitAux (current : List Char) : List Char → List (List Char)
  | [] => if current.isEmpty then [] else [current]
  | '\n' :: rest => dropReturn current :: splitAux [] rest
  | char :: rest => splitAux (current ++ [char]) rest

def splitLines (text : String) : List String :=
  (splitAux [] text.toList).map String.ofList

/-- Append a text of several lines, each indented. -/
def block (target : IndentedText) (content : String) : IndentedText :=
  target.lines (splitLines content)

example : splitLines "a\r\nb\n\nc\r" = ["a", "b", "", "c\r"] := by decide

end IndentedText

end ShaderKit
