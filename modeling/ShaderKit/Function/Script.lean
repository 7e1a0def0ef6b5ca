import ShaderKit.Binding
import ShaderKit.Function.Operator
import ShaderKit.Function.Signature
import ShaderKit.Function.Standard
import ShaderKit.Value

/-!
# Function bodies as scripts

A shader function says how its body is recorded by a script: a list of actions on a
recorder. The results of actions are kept in registers. The parameters are found in the
registers `$0`, `$1` and so on.
-/

namespace ShaderKit

/-- The name of a place that holds a recorded node. Registers are not scoped. -/
abbrev Register := String

def Register.ofParameter (index : Nat) : Register :=
  "$" ++ toString index

/-- What an action works on: a recorded node, or a value that becomes a literal when the
action uses it. -/
inductive Operand where
  | register (register : Register)
  | literal (value : Scalar)
deriving DecidableEq, Repr

/-- A type that a script names, or the reason why it cannot be built. -/
abbrev NamedType := Except SchemaError TypeDescriptor

mutual
/-- One step of a script. Where an action has a result, it is kept in the register
`out`. -/
inductive Action where
  | literal (out : Register) (value : Scalar)
  | constant (out : Register) (label : Option String) (type : NamedType)
      (value : HostValue)
  | zero (out : Register) (type : NamedType)
  | construct (out : Register) (type : NamedType) (arguments : List Operand)
  | convert (out : Register) (source : Operand) (type : NamedType)
  | declare (out : Register) (name : Option String) (value : Operand)
  | declareZero (out : Register) (type : NamedType)
  | load (out : Register) (source : Register)
  | store (target : Register) (value : Operand)
  | unary (out : Register) (operator : UnaryOperator) (operand : Operand)
  | binary (out : Register) (operator : BinaryOperator) (left right : Operand)
  | member (out : Register) (base : Register) (name : String)
  | index (out : Register) (base : Register) (position : Operand)
  | swizzle (out : Register) (base : Register) (pattern : String)
  | call (out : Register) (callee : FunctionId) (arguments : List Operand)
  | callVoid (callee : FunctionId) (arguments : List Operand)
  | standard (out : Register) (function : StandardFunction) (arguments : List Operand)
  | closeTo (out : Register) (left right precision : Operand)
  | bind (out : Register) (entry : BindingEntry)
  | branch (condition : Operand) (accept reject : Script)
  | loop (body : Script)
  | range (counter : Register) (first last : Operand) (body : Script)
  | leaveLoop
  | nextRound
  | giveBack (value : Option Operand)
  | discard
  /-- Run a script up to its first failure, note how it ended, and go on. -/
  | attempt (body : Script)
  | noteType (source : Register)
  | publish (name : String) (source : Register)
  /-- Take a published node and run a script with it; do nothing if there is none. -/
  | adopt (name : String) (out : Register) (body : Script)

inductive Script where
  | done
  | step (action : Action) (rest : Script)
end

def Script.ofList : List Action → Script
  | [] => .done
  | action :: rest => .step action (ofList rest)

/-- How a function is implemented. The names in a raw text stand for other functions. -/
inductive Implementation where
  | script (body : Script) (result : Option Operand)
  | raw (text : String) (references : List (String × FunctionId))

structure ShaderFunction where
  id : FunctionId
  signature : Signature
  implementation : Implementation

structure Program where
  functions : List ShaderFunction := []

def Program.find? (program : Program) (id : FunctionId) : Option ShaderFunction :=
  program.functions.find? fun function => function.id = id

end ShaderKit
