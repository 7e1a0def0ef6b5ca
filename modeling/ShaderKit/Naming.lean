import ShaderKit.Function.Standard
import ShaderKit.Identifier

/-!
# Unique names

A name registry hands out identifiers that are unique in their scope and collide neither
with reserved words nor with standard functions. A registry for an inner scope begins with
the names of the outer one; what it hands out does not lead back.

A search for a free numbered name ends because the numbered names differ from each other:
among as many of them as there are used names and one more, one is not used.
-/

namespace ShaderKit

inductive NamingStrategy where
  /-- Names derived from labels. -/
  | strict
  /-- Numbered names, whatever the labels are. -/
  | compact
deriving DecidableEq, Repr

def NamingStrategy.name : NamingStrategy → String
  | .strict => "Strict"
  | .compact => "Compact"

def NamingStrategy.ofName? : String → Option NamingStrategy
  | "strict" => some .strict
  | "compact" => some .compact
  | _ => none

/-- The names that are used in a scope. -/
structure NameRegistry where
  strategy : NamingStrategy
  used : List String
  compactCounter : Nat := 0
deriving DecidableEq, Repr

namespace NameRegistry

/-- A registry in which only the standard functions have names. -/
def new (strategy : NamingStrategy) : NameRegistry :=
  { strategy := strategy, used := StandardFunction.names }

def isTaken (registry : NameRegistry) (name : String) : Bool :=
  registry.used.contains name || !Identifier.isValid name

def use (registry : NameRegistry) (name : String) : NameRegistry :=
  { registry with used := name :: registry.used }

def numbered (tag : String) (number : Nat) : String :=
  tag ++ toString number

/-- The least number from `number` on whose name is free, among as many as `tries`
numbers. -/
def freeNumberWithin (registry : NameRegistry) (tag : String) :
    (tries : Nat) → (number : Nat) → Nat
  | 0, number => number
  | tries + 1, number =>
      if registry.isTaken (numbered tag number) then
        registry.freeNumberWithin tag tries (number + 1)
      else number

def freeNumber (registry : NameRegistry) (tag : String) (number : Nat) : Nat :=
  registry.freeNumberWithin tag (registry.used.length + 1) number

/-- The name for a label: the sanitized label itself, or with the least number that makes
it unique. -/
def nameFor (registry : NameRegistry) (label : String) : String :=
  let base := Identifier.sanitize label
  if registry.isTaken base then
    let tag := base ++ "_"
    numbered tag (registry.freeNumber tag 1)
  else base

/-- Hand out a name derived from a label, whatever the strategy is. -/
def makeUniqueLabel (registry : NameRegistry) (label : String) : NameRegistry × String :=
  let name := registry.nameFor label
  (registry.use name, name)

def compactTag : String := "item_"

/-- Hand out a numbered name. Numbers that were passed over are not tried again. -/
def makeCompact (registry : NameRegistry) : NameRegistry × String :=
  let number := registry.freeNumber compactTag registry.compactCounter
  let name := numbered compactTag number
  ({ registry.use name with compactCounter := number + 1 }, name)

def makeUnique (registry : NameRegistry) (label : String) : NameRegistry × String :=
  match registry.strategy with
  | .strict => registry.makeUniqueLabel label
  | .compact => registry.makeCompact

/-- A registry for an inner scope, in which names derive from labels. -/
def fork (registry : NameRegistry) : NameRegistry :=
  { strategy := .strict, used := registry.used }

end NameRegistry

end ShaderKit
