import ShaderKit.Codec.Path

/-!
# Reading and writing inside values

A path leads from a value to a value inside it, down to the components of vectors and of
matrix columns. Writing gives the whole value with the part replaced.
-/

namespace ShaderKit.HostValue

def at? : HostValue → ValuePath → Option HostValue
  | value, [] => some value
  | .struct members, .member name :: rest => do
      let inner ← memberIn? name members
      inner.at? rest
  | .array elements, .index position :: rest => do
      let inner ← elements[position]?
      inner.at? rest
  | .matrix columns, .index position :: rest => do
      let column ← columns[position]?
      (HostValue.vector column).at? rest
  | .vector components, [.index position] => do
      let component ← components[position]?
      some (.scalar component)
  | _, _ => none
termination_by structural _ path => path

def replaceAt {α : Type} (entries : List α) (position : Nat) (new : α) : Option (List α) :=
  if position < entries.length then some (entries.set position new) else none

def replaceComponent (components : Components) (position : Nat) (new : HostValue) :
    Option Components := do
  let component ← new.scalar?
  replaceAt components position component

/-- Replace a matrix column, or a component of it, at the end of the path that leads on
from the column. The new column has the height of the old one. -/
def replaceInColumn (column : Components) (new : HostValue) : ValuePath → Option Components
  | [] =>
      match new with
      | .vector components => if components.length = column.length then some components else none
      | _ => none
  | [.index position] => replaceComponent column position new
  | _ => none

def setAt? (new : HostValue) : HostValue → ValuePath → Option HostValue
  | _, [] => some new
  | .struct members, .member name :: rest => do
      let inner ← memberIn? name members
      let replaced ← setAt? new inner rest
      some (.struct (replaceMember name replaced members))
  | .array elements, .index position :: rest => do
      let inner ← elements[position]?
      let replaced ← setAt? new inner rest
      some (.array (elements.set position replaced))
  | .matrix columns, .index position :: rest => do
      let column ← columns[position]?
      let replaced ← replaceInColumn column new rest
      some (.matrix (columns.set position replaced))
  | .vector components, [.index position] => do
      let replaced ← replaceComponent components position new
      some (.vector replaced)
  | _, _ => none
termination_by structural _ path => path

end ShaderKit.HostValue
