import ShaderKit.Function.Script

/-!
# Single operations

An operation on its own: what it is called, which operand types it accepts, and the
function that applies it to its parameters.
-/

namespace ShaderKit

inductive Operation where
  | unary (operator : UnaryOperator)
  | binary (operator : BinaryOperator)
  | standard (function : StandardFunction)
  | closeTo
  | convert (target : TypeDescriptor)
  | construct (target : TypeDescriptor)
deriving DecidableEq, Repr

namespace Operation

def catalogue : List Operation :=
  UnaryOperator.all.map unary ++ BinaryOperator.all.map binary ++
    StandardFunction.catalogue.map standard

def name : Operation → String
  | .unary operator => operator.token
  | .binary operator => operator.token
  | .standard function => function.name
  | .closeTo => (Helper.isCloseTo .f32).label
  | .convert target | .construct target => target.text

/-- The type of the result for the given operand types, if the operation accepts them.
Conversions and constructions have the type that they name. -/
def resultType (operation : Operation) (operands : List TypeDescriptor) :
    Option TypeDescriptor :=
  match operation, operands with
  | .unary operator, [operand] => operator.resultType operand
  | .binary operator, [left, right] => operator.resultType left right
  | .standard function, _ => function.resultType operands
  | .closeTo, _ => some .bool
  | .convert target, _ | .construct target, _ => some target
  | _, _ => none

/-- The operators and standard functions that accept operands, with the types of their
results. -/
def accepting (operands : List TypeDescriptor) : List (Operation × TypeDescriptor) :=
  catalogue.filterMap fun operation =>
    (operation.resultType operands).map fun result => (operation, result)

/-- The operands that an operation takes out of a list: operators and conversions take as many
as they need from the front, and the others take all. -/
def taken {α : Type} (operation : Operation) (operands : List α) : List α :=
  match operation with
  | .unary _ | .convert _ => operands.take 1
  | .binary _ => operands.take 2
  | .closeTo => operands.take 3
  | .standard _ | .construct _ => operands

def action (out : Register) (operation : Operation) (operands : List Operand) :
    Option Action :=
  match operation, operands with
  | .unary operator, [operand] => some (.unary out operator operand)
  | .binary operator, [left, right] => some (.binary out operator left right)
  | .standard function, _ => some (.standard out function operands)
  | .closeTo, [left, right, precision] => some (.closeTo out left right precision)
  | .convert target, [operand] => some (.convert out operand (.ok target))
  | .construct target, _ => some (.construct out (.ok target) operands)
  | _, _ => none

def parameters (types : List TypeDescriptor) : List Parameter :=
  types.zipIdx.map fun (type, index) => ⟨"a" ++ toString index, type⟩

/-- The function that applies an operation to the parameters it takes and gives back the
result. An operation that does not accept them is said to give an `f32`; it is refused when
the function is recorded. -/
def function (id : FunctionId) (name : String) (operation : Operation)
    (types : List TypeDescriptor) : Except SchemaError ShaderFunction := do
  let operands := (List.range types.length).map fun index =>
    Operand.register (.ofParameter index)
  let result := (operation.resultType (operation.taken types)).getD .f32
  let signature ← Signature.plain name (parameters types) (some result)
  let body := (operation.action "result" (operation.taken operands)).toList
  .ok ⟨id, signature, .script (.ofList body) (some (.register "result"))⟩

end Operation

end ShaderKit
