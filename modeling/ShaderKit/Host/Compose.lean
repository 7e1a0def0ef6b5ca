import ShaderKit.Value

/-!
# Value constructors on the host
-/

namespace ShaderKit

def flattenComponents : List HostValue → Option Components
  | [] => some []
  | .scalar value :: rest => do
      let others ← flattenComponents rest
      some (value :: others)
  | .vector values :: rest => do
      let others ← flattenComponents rest
      some (values ++ others)
  | _ => none

def columnsOf : List HostValue → Option (List Components)
  | [] => some []
  | .vector values :: rest => do
      let others ← columnsOf rest
      some (values :: others)
  | _ => none

/-- Cut components into at most the given number of columns of equal height; the last one
may be shorter. -/
def cutColumns (height : Nat) : (limit : Nat) → Components → List Components
  | 0, _ | _, [] => []
  | limit + 1, values => values.take height :: cutColumns height limit (values.drop height)

/-- The value that a constructor of a type makes. A single component fills a vector. A matrix
is made of its columns or of its components; no component is left out, and there are never
more columns than components. -/
def TypeDescriptor.compose (type : TypeDescriptor) (arguments : List HostValue) :
    Option HostValue :=
  match type with
  | .scalar kind => do
      let first ← arguments.head?
      let value ← first.scalar?
      some (.scalar (value.convert kind))
  | .vector _ width => do
      match (← flattenComponents arguments) with
      | [single] => some (.vector (List.replicate width.count single))
      | values => some (.vector values)
  | .matrix _ columns rows =>
      if arguments.length = columns.count then
        (columnsOf arguments).map HostValue.matrix
      else
        (flattenComponents arguments).map fun values =>
          .matrix (cutColumns rows.count values.length values)
  | .array _ _ => some (.array arguments)
  | .struct _ members =>
      some (.struct ((members.toList.map Member.name).zip arguments))
  | .atomic _ => none

end ShaderKit
