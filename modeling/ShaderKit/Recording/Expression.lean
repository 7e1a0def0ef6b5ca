import ShaderKit.Function.Script

/-!
# Recorded functions

Recording a function gives a list of typed expressions and a tree of statements that
refer to them. A node is the place of an expression in the list, together with the
function that it was recorded for.
-/

namespace ShaderKit

structure Node where
  owner : FunctionId
  index : Nat
deriving DecidableEq, Repr

inductive Expression where
  | parameter (index : Nat)
  | literal (value : Scalar)
  /-- A module constant, by its number in the trace context. -/
  | constant (number : Nat)
  | binding (slot : Slot)
  | localVariable (index : Nat)
  | load (source : Node)
  | compose (arguments : List Node)
  | zero
  | unary (operator : UnaryOperator) (operand : Node)
  | binary (operator : BinaryOperator) (left right : Node)
  | member (base : Node) (position : Nat)
  | index (base position : Node)
  | swizzle (source : Node) (components : List Nat)
  | call (callee : FunctionId) (arguments : List Node)
  | standard (function : StandardFunction) (arguments : List Node)
  | helper (helper : Helper) (arguments : List Node)
  | convert (source : Node)
deriving DecidableEq, Repr

inductive ReferenceAccess where
  | read
  | readWrite
deriving DecidableEq, Repr

inductive ReferenceRoot where
  | localVariable
  | binding
deriving DecidableEq, Repr

/-- What is known of a reference besides the type stored there. -/
structure Reference where
  access : ReferenceAccess
  root : ReferenceRoot
deriving DecidableEq, Repr

def BindingAccess.referenceAccess : BindingAccess → ReferenceAccess
  | .storage true => .readWrite
  | _ => .read

/-- An expression with its type, which for a reference is the type stored there. The scope
is the block in which the expression was recorded, or zero if it is visible everywhere. -/
structure ExpressionEntry where
  expression : Expression
  type : TypeDescriptor
  reference : Option Reference
  scope : Nat
deriving DecidableEq, Repr

namespace Expression

/-- Expressions that are spelled where they are used instead of being bound to a name. -/
def isInlined (expression : Expression) (reference : Option Reference) : Bool :=
  match expression with
  | .parameter _ | .literal _ | .constant _ | .binding _ | .localVariable _ => true
  | .member .. | .index .. | .swizzle .. => reference.isSome
  | _ => false

def isGlobal : Expression → Bool
  | .parameter _ | .literal _ | .constant _ | .binding _ => true
  | _ => false

end Expression

def ExpressionEntry.isInlined (entry : ExpressionEntry) : Bool :=
  entry.expression.isInlined entry.reference

structure LocalVariable where
  name : Option String
  type : TypeDescriptor
deriving DecidableEq, Repr

/-- A recorded statement. `range` runs its body with the counter going from `first` up to,
not including, `last`. -/
inductive Statement where
  /-- Bind the value of an expression that is not inlined. -/
  | emit (node : Node)
  | declare (index : Nat) (value : Option Node)
  | store (target value : Node)
  | callVoid (callee : FunctionId) (arguments : List Node)
  | branch (condition : Node) (accept reject : List Statement)
  | loop (body : List Statement)
  | range (counter : Nat) (first last : Node) (body : List Statement)
  | leaveLoop
  | nextRound
  | giveBack (value : Option Node)
  | discard
deriving Repr

abbrev Block := List Statement

inductive RecordedBody where
  | statements (block : Block)
  | raw (text : String)
deriving Repr

/-- Everything recorded for one function. Callees stand in the order of their first
call. -/
structure RecordedFunction where
  function : ShaderFunction
  expressions : Array ExpressionEntry := #[]
  locals : Array LocalVariable := #[]
  body : RecordedBody
  callees : List FunctionId := []
  constants : List Nat := []
  bindings : List BindingEntry := []
  helpers : List Helper := []

namespace RecordedFunction

def id (recorded : RecordedFunction) : FunctionId :=
  recorded.function.id

def signature (recorded : RecordedFunction) : Signature :=
  recorded.function.signature

def entry? (recorded : RecordedFunction) (node : Node) : Option ExpressionEntry :=
  recorded.expressions[node.index]?

/-- Every type that the function mentions: in its signature, its variables and its
expressions. -/
def mentionedTypes (recorded : RecordedFunction) : List TypeDescriptor :=
  recorded.signature.parameters.map Parameter.type ++ recorded.signature.result.toList ++
    recorded.locals.toList.map LocalVariable.type ++
    recorded.expressions.toList.map ExpressionEntry.type

end RecordedFunction

end ShaderKit
