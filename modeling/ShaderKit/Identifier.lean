import ShaderKit.Identifier.ReservedWords

/-!
# Identifiers

Which texts name something in a WGSL module, and how an arbitrary label is made into
such a text. Only ASCII letters, digits and underscores occur in identifiers.
-/

namespace ShaderKit.Identifier

def isBodyChar (char : Char) : Bool :=
  char.isAlphanum || char == '_'

def isStartChar (char : Char) : Bool :=
  char.isAlpha || char == '_'

def isImplementationName : List Char → Bool
  | '_' :: '_' :: _ => true
  | _ => false

def isAliasSuffix (char : Char) : Bool :=
  char == 'f' || char == 'h' || char == 'i' || char == 'u'

def beginsLikeGenerator : List Char → Bool
  | 'v' :: 'e' :: 'c' :: _ => true
  | 'm' :: 'a' :: 't' :: _ => true
  | _ => false

/-- Aliases such as `vec3f` are a reserved word that begins like a vector or matrix
generator, followed by one letter for the component kind. -/
def isAlias (name : List Char) : Bool :=
  match name.getLast? with
  | none => false
  | some suffix =>
      isAliasSuffix suffix && beginsLikeGenerator name.dropLast &&
        reservedWords.contains (String.ofList name.dropLast)

def isReserved (name : String) : Bool :=
  reservedWords.contains name || isAlias name.toList

/-- The shape of an identifier, reserved or not. The lone underscore is the phony
assignment target and names nothing. -/
def hasIdentifierShape : List Char → Bool
  | [] => false
  | first :: rest =>
      isStartChar first && rest.all isBodyChar && first :: rest != ['_'] &&
        !isImplementationName (first :: rest)

def isValid (name : String) : Bool :=
  hasIdentifierShape name.toList && !isReserved name

/-- Drop underscores at the front while two of them stand there. -/
def dropDoubledUnderscores : List Char → List Char
  | [] => []
  | first :: rest =>
      if isImplementationName (first :: rest) then dropDoubledUnderscores rest
      else first :: rest

def placeholder : List Char := ['i', 't', 'e', 'm']

def repairStart : List Char → List Char
  | [] => placeholder
  | ['_'] => placeholder
  | first :: rest => if first.isDigit then '_' :: first :: rest else first :: rest

/-- Turn an arbitrary label into a text of identifier shape. The result may still be a
reserved word; callers that need a name add a suffix then. -/
def sanitize (label : String) : String :=
  let cleaned := label.toList.map fun char => if isBodyChar char then char else '_'
  String.ofList (repairStart (dropDoubledUnderscores cleaned))

example : sanitize "my label" = "my_label" := by decide
example : sanitize "___" = "item" := by decide
example : sanitize "3d" = "_3d" := by decide

end ShaderKit.Identifier
