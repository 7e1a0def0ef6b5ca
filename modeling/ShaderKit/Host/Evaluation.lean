import ShaderKit.Host.Compose
import ShaderKit.Host.Place
import ShaderKit.Host.Standard
import ShaderKit.Recording.Trace

/-!
# Evaluation on the host

A recorded function is run statement by statement over host values. Unconditional loops
may run forever, so every loop and every chain of calls is cut off after a number of
steps; being cut off is not a failure of the function, and a larger number never changes
an answer that was reached.
-/

namespace ShaderKit

/-- What a node stands for while its function runs. -/
inductive Meaning where
  | value (value : HostValue)
  | place (index : Nat) (path : ValuePath)
deriving Repr

/-- The state of one run of a function: a cell for the value of each variable, and the
meanings of the nodes that were bound so far. -/
structure Frame where
  cells : Array HostValue
  meanings : Array (Option Meaning)
deriving Repr

inductive Interruption where
  | failed (error : ShaderError)
  | outOfFuel
deriving DecidableEq, Repr

abbrev Evaluation := Except Interruption

inductive Flow where
  | next
  | leaveLoop
  | nextRound
  | giveBack (value : Option HostValue)
deriving Repr

abbrev Callee := FunctionId → List HostValue → Evaluation (Option HostValue)

/-- What stays the same during one run of a function. -/
structure Activation where
  context : TraceContext
  recorded : RecordedFunction
  arguments : List HostValue

namespace Activation

def refuse {α : Type} (activation : Activation) (fault : HostFault) : Evaluation α :=
  .error (.failed (.unsupported activation.recorded.signature.name (.host fault)))

def require {α : Type} (activation : Activation) (fault : HostFault) :
    Option α → Evaluation α
  | some answer => .ok answer
  | none => activation.refuse fault

variable (activation : Activation) (frame : Frame)

def valueOf : Meaning → Evaluation HostValue
  | .value value => .ok value
  | .place index path =>
      activation.require .readPath (frame.cells[index]?.bind fun whole => whole.at? path)

def positionOf (value : HostValue) : Evaluation Nat :=
  match value with
  | .scalar (.u32 number) => .ok number.toNat
  | .scalar (.i32 number) =>
      if number < 0 then activation.refuse (.negativeIndex (.i32 number))
      else .ok number.toInt.toNat
  | .scalar other => activation.refuse (.negativeIndex other)
  | _ => activation.refuse .notScalar

def project (segment : PathSegment) : Meaning → Evaluation Meaning
  | .place index path => .ok (.place index (path ++ [segment]))
  | .value value => do
      let part ← activation.require .outOfBounds (value.at? [segment])
      .ok (.value part)

def memberName? (base : Node) (position : Nat) : Option String := do
  let entry ← activation.recorded.entry? base
  let member ← entry.type.members.toList[position]?
  some member.name

def pick (components : List Nat) : HostValue → Option HostValue
  | .vector values => (components.mapM fun position => values[position]?).map HostValue.vector
  | _ => none

def convert (type : TypeDescriptor) (value : HostValue) : Option HostValue := do
  let kind ← type.scalarKind?
  value.mapComponents fun component => some (component.convert kind)

/-- What an expression stands for, given what its operands stand for. -/
def meaningOf (operand : Node → Evaluation Meaning) (call : Callee)
    (entry : ExpressionEntry) : Evaluation Meaning :=
  let value (node : Node) : Evaluation HostValue := do
    activation.valueOf frame (← operand node)
  let answer (fault : HostFault) (result : Option HostValue) : Evaluation Meaning :=
    (activation.require fault result).map Meaning.value
  match entry.expression with
  | .parameter index => answer .notComputed activation.arguments[index]?
  | .literal scalar => .ok (.value (.scalar scalar))
  | .constant number =>
      answer .unknownConstant
        ((activation.context.constant? number).map ModuleConstant.value)
  | .binding slot => activation.refuse (.binding slot)
  | .localVariable index => .ok (.place index [])
  | .load source => do
      .ok (.value (← value source))
  | .compose arguments => do
      answer .construction (entry.type.compose (← arguments.mapM value))
  | .zero => .ok (.value entry.type.zero)
  | .unary operator source => do
      answer (.unary operator) ((← value source).applyUnary operator)
  | .binary operator left right => do
      let left ← value left
      let right ← value right
      answer (.binary operator) (left.applyBinary operator right)
  | .member base position => do
      let name ← activation.require .memberAccess (activation.memberName? base position)
      activation.project (.member name) (← operand base)
  | .index base position => do
      let position ← activation.positionOf (← value position)
      activation.project (.index position) (← operand base)
  | .swizzle source [component] => do
      activation.project (.index component) (← operand source)
  | .swizzle source components => do
      answer .swizzle (pick components (← value source))
  | .call callee arguments => do
      answer .callResult (← call callee (← arguments.mapM value))
  | .standard function arguments =>
      if function = .arrayLength then activation.refuse .arrayLength
      else do answer (.standard function) (function.apply (← arguments.mapM value))
  | .helper helper arguments => do
      answer (.helper helper) (helper.apply (← arguments.mapM value))
  | .convert source => do
      answer .conversion (convert entry.type (← value source))

/-- What a node stands for: what was bound to it, or, if it is inlined, what its expression
stands for now. Operands come before their expressions, so the index of a node bounds the
number of expressions below it. -/
def meaningWithin : (depth : Nat) → Node → Evaluation Meaning
  | 0, _ => activation.refuse .notComputed
  | depth + 1, node =>
      match frame.meanings[node.index]?.join with
      | some meaning => .ok meaning
      | none =>
          match activation.recorded.entry? node with
          | none => activation.refuse .notComputed
          | some entry =>
              if entry.isInlined then
                activation.meaningOf frame (meaningWithin depth)
                  (fun _ _ => activation.refuse .notComputed) entry
              else activation.refuse .notComputed

def meaning (node : Node) : Evaluation Meaning :=
  activation.meaningWithin frame (node.index + 1) node

def value (node : Node) : Evaluation HostValue := do
  activation.valueOf frame (← activation.meaning frame node)

def scalar (node : Node) : Evaluation Scalar := do
  activation.require .notScalar (← activation.value frame node).scalar?

def truth (node : Node) : Evaluation Bool := do
  match (← activation.scalar frame node) with
  | .bool truth => .ok truth
  | _ => activation.refuse .notBool

/-! ## Statements -/

def bind (call : Callee) (node : Node) : Evaluation Frame := do
  let entry ← activation.require .notComputed (activation.recorded.entry? node)
  let meaning ← activation.meaningOf frame (activation.meaning frame) call entry
  .ok { frame with meanings := frame.meanings.setIfInBounds node.index (some meaning) }

def setVariable (frame : Frame) (index : Nat) (value : HostValue) : Frame :=
  { frame with cells := frame.cells.setIfInBounds index value }

def initialValue (index : Nat) : Option Node → Evaluation HostValue
  | some node => activation.value frame node
  | none =>
      activation.require .notComputed
        (activation.recorded.locals[index]?.map fun declared => declared.type.zero)

def store (target : Node) (new : HostValue) : Evaluation Frame := do
  match (← activation.meaning frame target) with
  | .value _ => activation.refuse .storeIntoValue
  | .place index path =>
      let whole ← activation.require .storePath frame.cells[index]?
      let replaced ← activation.require .storePath (HostValue.setAt? new whole path)
      .ok (setVariable frame index replaced)

/-- Whether a loop goes on after a round, and otherwise how it ends. -/
def afterRound : Flow → Option Flow
  | .next | .nextRound => none
  | .leaveLoop => some .next
  | .giveBack value => some (.giveBack value)

def repeatRounds (round : Frame → Evaluation (Frame × Flow)) :
    (rounds : Nat) → Frame → Evaluation (Frame × Flow)
  | 0, _ => .error .outOfFuel
  | rounds + 1, frame => do
      let (frame, flow) ← round frame
      match afterRound flow with
      | some ending => .ok (frame, ending)
      | none => repeatRounds round rounds frame

def countRounds (round : Frame → Evaluation (Frame × Flow)) (counter : Nat) (bound : Scalar) :
    (rounds : Nat) → Scalar → Frame → Evaluation (Frame × Flow)
  | 0, _, _ => .error .outOfFuel
  | rounds + 1, current, frame => do
      let frame := setVariable frame counter (.scalar current)
      if Scalar.applyBinary .less current bound ≠ some (.bool true) then .ok (frame, .next)
      else
        let (frame, flow) ← round frame
        match afterRound flow with
        | some ending => .ok (frame, ending)
        | none =>
            let next ← activation.require .loopIncrement
              (Scalar.applyBinary .add current ((Scalar.u32 1).convert current.kind))
            countRounds round counter bound rounds next frame

end Activation

mutual
/-- Run one statement. Loops are cut off after the given number of rounds. -/
def Statement.run (activation : Activation) (call : Callee) (rounds : Nat) (frame : Frame) :
    Statement → Evaluation (Frame × Flow)
  | .emit node => do
      .ok (← activation.bind frame call node, .next)
  | .declare index initial => do
      let value ← activation.initialValue frame index initial
      .ok (Activation.setVariable frame index value, .next)
  | .store target source => do
      let value ← activation.value frame source
      .ok (← activation.store frame target value, .next)
  | .callVoid callee arguments => do
      let values ← arguments.mapM (activation.value frame)
      discard (call callee values)
      .ok (frame, .next)
  | .branch condition accept reject => do
      if (← activation.truth frame condition) then
        runBlock activation call rounds frame accept
      else runBlock activation call rounds frame reject
  | .loop body =>
      Activation.repeatRounds
        (fun frame => runBlock activation call rounds frame body) rounds frame
  | .range counter first last body => do
      let bound ← activation.scalar frame last
      let start ← activation.scalar frame first
      activation.countRounds
        (fun frame => runBlock activation call rounds frame body) counter bound rounds start
        frame
  | .leaveLoop => .ok (frame, .leaveLoop)
  | .nextRound => .ok (frame, .nextRound)
  | .giveBack none => .ok (frame, .giveBack none)
  | .giveBack (some node) => do
      .ok (frame, .giveBack (some (← activation.value frame node)))
  | .discard => activation.refuse .discard

def runBlock (activation : Activation) (call : Callee) (rounds : Nat) (frame : Frame) :
    List Statement → Evaluation (Frame × Flow)
  | [] => .ok (frame, .next)
  | statement :: rest => do
      let (frame, flow) ← statement.run activation call rounds frame
      match flow with
      | .next => runBlock activation call rounds frame rest
      | other => .ok (frame, other)
end

/-! ## Functions -/

/-- The value in the form in which it is decoded from its bytes. -/
def HostValue.canonical (value : HostValue) (type : TypeDescriptor) :
    Except ShaderError HostValue :=
  match encodeNew value type with
  | .error error => .error (.encode error)
  | .ok bytes =>
      match decode bytes type 0 with
      | .error error => .error (.decode error)
      | .ok canonical => .ok canonical

def canonicalArguments : List HostValue → List Parameter → Except ShaderError (List HostValue)
  | argument :: arguments, parameter :: parameters => do
      let first ← argument.canonical parameter.type
      let rest ← canonicalArguments arguments parameters
      .ok (first :: rest)
  | _, _ => .ok []

namespace RecordedFunction

def accept (recorded : RecordedFunction) (arguments : List HostValue) :
    Except ShaderError (Block × List HostValue) :=
  let signature := recorded.signature
  match recorded.body with
  | .raw _ => .error (.unsupported signature.name (.host .rawBody))
  | .statements block =>
      if arguments.length ≠ signature.parameters.length then
        .error (.graph (.argumentCount signature.name signature.parameters.length
          arguments.length))
      else do
        let values ← canonicalArguments arguments signature.parameters
        .ok (block, values)

def frame (recorded : RecordedFunction) : Frame :=
  { cells := recorded.locals.map fun declared => declared.type.zero
    meanings := Array.replicate recorded.expressions.size none }

def resultOf : Flow → Option HostValue
  | .giveBack value => value
  | _ => none

/-- Run a function with the recordings and constants of a context. `fuel` bounds the rounds
of each loop and the depth of calls. -/
def evaluate (context : TraceContext) : (fuel : Nat) → RecordedFunction → List HostValue →
    Evaluation (Option HostValue)
  | 0, _, _ => .error .outOfFuel
  | fuel + 1, recorded, arguments => do
      let (block, values) ← (recorded.accept arguments).mapError Interruption.failed
      let activation : Activation := ⟨context, recorded, values⟩
      let call : Callee := fun callee values =>
        match context.find? callee with
        | none => activation.refuse .unknownCallee
        | some recorded => evaluate context fuel recorded values
      let (_, flow) ← runBlock activation call fuel recorded.frame block
      .ok (resultOf flow)

end RecordedFunction

/-- Trace a function in a context of its own and run it. What its scripts note is added to
the journal. -/
def Program.evaluate (program : Program) (fuel : Nat) (function : ShaderFunction)
    (arguments : List HostValue) (journal : Journal) :
    Evaluation (Option HostValue) × Journal :=
  match (program.trace function).alone journal with
  | .error error journal => (.error (.failed error), journal)
  | .ok (recorded, context) journal => (recorded.evaluate context fuel arguments, journal)

end ShaderKit
