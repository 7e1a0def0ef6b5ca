import ShaderKit.Function.Signature
import ShaderKit.Function.Standard
import ShaderKit.Identifier
import ShaderKit.Binding

/-!
# The names of a module

The identifiers that a module gives to its declarations, and the spelling of types with
them.
-/

namespace ShaderKit

/-- Identifiers by what they name; of two entries for one thing the first counts. -/
structure ModuleNames where
  types : List (TypeDescriptor × String) := []
  constants : List (Nat × String) := []
  bindings : List (Slot × String) := []
  helpers : List (Helper × String) := []
  functions : List (FunctionId × String) := []

namespace ModuleNames

def lookup? {α : Type} [DecidableEq α] (names : List (α × String)) (thing : α) :
    Option String :=
  (names.find? fun entry => entry.1 = thing).map Prod.snd

/-- The name of a thing, and no text if it has none. -/
def lookup {α : Type} [DecidableEq α] (names : List (α × String)) (thing : α) : String :=
  (lookup? names thing).getD ""

def undeclaredName : Option String → String
  | some label => Identifier.sanitize label
  | none => "Struct"

/-- The spelling of a type. Structures have names, and arrays are spelled where they are
used. -/
def typeText (names : ModuleNames) : TypeDescriptor → String
  | .struct label members =>
      (lookup? names.types (.struct label members)).getD (undeclaredName label)
  | .array element (.fixed count) => s!"array<{names.typeText element}, {count}>"
  | .array element .runtime => s!"array<{names.typeText element}>"
  | other => other.text

end ModuleNames

end ShaderKit
