import Mathlib.Logic.Relation
import ShaderKit.Host.Evaluation
import ShaderKit.Proofs.Recording.Typing
import ShaderKit.Proofs.Value.Paths

/-!
# Moments of an evaluation

An evaluation passes through moments: a frame of one function, and the statements of a
block that are still to be run. A moment leads to the moments that are next in its block,
inside a block of its first statement, or in a function that this statement calls. What is
said of every moment so holds at every point of an evaluation, also of one that never ends.
-/

namespace ShaderKit

namespace Activation

def failure (activation : Activation) (fault : HostFault) : ShaderError :=
  .unsupported activation.recorded.signature.name (.host fault)

def callee (activation : Activation) (fuel : Nat) : Callee := fun callee values =>
  match activation.context.find? callee with
  | none => activation.refuse .unknownCallee
  | some recorded => recorded.evaluate activation.context fuel values

end Activation

/-- The statements of one function that are still to be run, and the state before them. -/
structure Moment where
  activation : Activation
  frame : Frame
  block : Block

namespace Moment

def run (moment : Moment) (fuel : Nat) : Evaluation (Frame × Flow) :=
  runBlock moment.activation (moment.activation.callee fuel) fuel moment.frame moment.block

end Moment

def RecordedFunction.Begins (recorded : RecordedFunction) (context : TraceContext)
    (arguments : List HostValue) (moment : Moment) : Prop :=
  ∃ block values, recorded.accept arguments = .ok (block, values) ∧
    moment = ⟨⟨context, recorded, values⟩, recorded.frame, block⟩

theorem RecordedFunction.evaluate_succ (context : TraceContext) (fuel : Nat)
    (recorded : RecordedFunction) (arguments : List HostValue) :
    recorded.evaluate context (fuel + 1) arguments = (do
      let (block, values) ← (recorded.accept arguments).mapError Interruption.failed
      let (_, flow) ← Moment.run ⟨⟨context, recorded, values⟩, recorded.frame, block⟩ fuel
      .ok (resultOf flow)) :=
  rfl

namespace Moment

/-! ## From one moment to the next -/

inductive Calls : Moment → RecordedFunction → List HostValue → Prop where
  | value {activation : Activation} {frame : Frame} {node : Node} {rest : Block}
      {entry : ExpressionEntry} {callee : FunctionId} {arguments : List Node}
      {recorded : RecordedFunction} {values : List HostValue}
      (found : activation.recorded.entry? node = some entry)
      (same : entry.expression = .call callee arguments)
      (known : activation.context.find? callee = some recorded)
      (given : arguments.mapM (activation.value frame) = .ok values) :
      Calls ⟨activation, frame, .emit node :: rest⟩ recorded values
  | void {activation : Activation} {frame : Frame} {rest : Block} {callee : FunctionId}
      {arguments : List Node} {recorded : RecordedFunction} {values : List HostValue}
      (known : activation.context.find? callee = some recorded)
      (given : arguments.mapM (activation.value frame) = .ok values) :
      Calls ⟨activation, frame, .callVoid callee arguments :: rest⟩ recorded values

inductive Counts (activation : Activation) (counter : Nat) (bound : Scalar) (body : Block)
    (start : Scalar) (first : Frame) : Scalar → Frame → Prop where
  | first : Counts activation counter bound body start first start first
  | next {current following : Scalar} {before after : Frame} {flow : Flow} (fuel : Nat)
      (counts : Counts activation counter bound body start first current before)
      (less : Scalar.applyBinary .less current bound = some (.bool true))
      (ran : run ⟨activation, Activation.setVariable before counter (.scalar current), body⟩ fuel =
        .ok (after, flow))
      (again : Activation.afterRound flow = none)
      (counted : Scalar.applyBinary .add current ((Scalar.u32 1).convert current.kind) =
        some following) :
      Counts activation counter bound body start first following after

/-- One moment comes right after another, or begins a block or a call that the first
statement of the other contains. -/
inductive Leads : Moment → Moment → Prop where
  | next {activation : Activation} {frame after : Frame} {statement : Statement} {rest : Block}
      (fuel : Nat)
      (ran : statement.run activation (activation.callee fuel) fuel frame =
        .ok (after, .next)) :
      Leads ⟨activation, frame, statement :: rest⟩ ⟨activation, after, rest⟩
  | accept {activation : Activation} {frame : Frame} {condition : Node}
      {accept reject rest : Block} (held : activation.truth frame condition = .ok true) :
      Leads ⟨activation, frame, .branch condition accept reject :: rest⟩
        ⟨activation, frame, accept⟩
  | reject {activation : Activation} {frame : Frame} {condition : Node}
      {accept reject rest : Block} (held : activation.truth frame condition = .ok false) :
      Leads ⟨activation, frame, .branch condition accept reject :: rest⟩
        ⟨activation, frame, reject⟩
  | loop {activation : Activation} {frame : Frame} {body rest : Block} :
      Leads ⟨activation, frame, .loop body :: rest⟩ ⟨activation, frame, body⟩
  | again {activation : Activation} {frame after : Frame} {body rest : Block} {flow : Flow}
      (fuel : Nat) (ran : run ⟨activation, frame, body⟩ fuel = .ok (after, flow))
      (again : Activation.afterRound flow = none) :
      Leads ⟨activation, frame, .loop body :: rest⟩ ⟨activation, after, .loop body :: rest⟩
  | round {activation : Activation} {frame before : Frame} {counter : Nat} {first last : Node}
      {body rest : Block} {start bound current : Scalar}
      (firstValue : activation.scalar frame first = .ok start)
      (lastValue : activation.scalar frame last = .ok bound)
      (counts : Counts activation counter bound body start frame current before)
      (less : Scalar.applyBinary .less current bound = some (.bool true)) :
      Leads ⟨activation, frame, .range counter first last body :: rest⟩
        ⟨activation, Activation.setVariable before counter (.scalar current), body⟩
  | call {moment next : Moment} {recorded : RecordedFunction} {values : List HostValue}
      (calls : moment.Calls recorded values)
      (begins : recorded.Begins moment.activation.context values next) : Leads moment next

/-- A moment comes after another, in any number of steps. -/
abbrev Passes : Moment → Moment → Prop :=
  Relation.ReflTransGen Leads

end Moment

/-- The moments of the evaluation of a function, those of its callees included. -/
def RecordedFunction.Reaches (recorded : RecordedFunction) (context : TraceContext)
    (arguments : List HostValue) (moment : Moment) : Prop :=
  ∃ first, recorded.Begins context arguments first ∧ first.Passes moment

/-! ## Why an evaluation may fail -/

/-- What keeps an expression from having a value: an access to a binding, the length of an
array, an index that is negative or out of range, or an operand that is spelled out in it. -/
inductive Obstacle (activation : Activation) (frame : Frame) : Expression → HostFault → Prop where
  | binding (slot : Slot) : Obstacle activation frame (.binding slot) (.binding slot)
  | arrayLength (arguments : List Node) :
      Obstacle activation frame (.standard .arrayLength arguments) .arrayLength
  | negative {base position : Node} {number : Int32}
      (given : activation.value frame position = .ok (.scalar (.i32 number)))
      (negative : number < 0) :
      Obstacle activation frame (.index base position) (.negativeIndex (.i32 number))
  | outside {base position : Node} {whole index : HostValue} {number : Nat}
      (baseValue : activation.value frame base = .ok whole)
      (given : activation.value frame position = .ok index)
      (numbered : activation.positionOf index = .ok number)
      (outside : whole.extent ≤ number) :
      Obstacle activation frame (.index base position) .outOfBounds
  | unreadable {source : Node} {index : Nat} {path : ValuePath} {whole : HostValue}
      (place : activation.meaning frame source = .ok (.place index path))
      (cell : frame.cells[index]? = some whole) (outside : ¬ whole.PathInRange path) :
      Obstacle activation frame (.load source) .readPath
  | operand {expression : Expression} {operand : Node} {entry : ExpressionEntry}
      {fault : HostFault} (member : operand ∈ expression.operands)
      (found : activation.recorded.entry? operand = some entry)
      (inlined : entry.isInlined = true)
      (obstacle : Obstacle activation frame entry.expression fault) :
      Obstacle activation frame expression fault

def Statement.operands : Statement → List Node
  | .declare _ initial => initial.toList
  | .store target source => [target, source]
  | .callVoid _ arguments => arguments
  | .branch condition _ _ => [condition]
  | .range _ first last _ => [first, last]
  | .giveBack result => result.toList
  | _ => []

/-- The first statement of a moment fails, for a reason that lies in the function and in
what it was given. -/
inductive Moment.Stops : Moment → ShaderError → Prop where
  | emit {activation : Activation} {frame : Frame} {node : Node} {rest : Block}
      {entry : ExpressionEntry} {fault : HostFault}
      (found : activation.recorded.entry? node = some entry)
      (obstacle : Obstacle activation frame entry.expression fault) :
      Stops ⟨activation, frame, .emit node :: rest⟩ (activation.failure fault)
  | operand {activation : Activation} {frame : Frame} {statement : Statement} {rest : Block}
      {node : Node} {entry : ExpressionEntry} {fault : HostFault}
      (member : node ∈ statement.operands)
      (found : activation.recorded.entry? node = some entry)
      (inlined : entry.isInlined = true)
      (obstacle : Obstacle activation frame entry.expression fault) :
      Stops ⟨activation, frame, statement :: rest⟩ (activation.failure fault)
  | unwritable {activation : Activation} {frame : Frame} {target source : Node} {rest : Block}
      {index : Nat} {path : ValuePath} {whole : HostValue}
      (place : activation.meaning frame target = .ok (.place index path))
      (cell : frame.cells[index]? = some whole) (outside : ¬ whole.PathInRange path) :
      Stops ⟨activation, frame, .store target source :: rest⟩ (activation.failure .storePath)
  | discard {activation : Activation} {frame : Frame} {rest : Block} :
      Stops ⟨activation, frame, .discard :: rest⟩ (activation.failure .discard)
  | raw {moment : Moment} {recorded : RecordedFunction} {values : List HostValue}
      {text : String} (calls : moment.Calls recorded values)
      (body : recorded.body = .raw text) :
      Stops moment (.unsupported recorded.signature.name (.host .rawBody))

/-- Why the evaluation of a function may fail: its body is a raw text, or the error comes
from one of its moments. -/
def RecordedFunction.Fails (recorded : RecordedFunction) (context : TraceContext)
    (arguments : List HostValue) (error : ShaderError) : Prop :=
  (∃ text, recorded.body = .raw text ∧
    error = .unsupported recorded.signature.name (.host .rawBody)) ∨
  ∃ moment, recorded.Reaches context arguments moment ∧ moment.Stops error

/-! ## What holds at a moment -/

/-- What a node stands for fits its entry: a value has the type of the entry, and a place
whose indices are in range leads to a value of the type that is stored there. -/
def Frame.Holds (frame : Frame) (entry : ExpressionEntry) : Meaning → Prop
  | .value value => entry.reference = none ∧ HasType entry.type value
  | .place index path =>
      (∃ reference, entry.reference = some reference ∧ reference.root = .localVariable) ∧
      ∃ whole, frame.cells[index]? = some whole ∧
        (whole.PathInRange path → ∃ part, whole.at? path = some part ∧ HasType entry.type part)

/-- A function with a result answers with a value of its type, and others with none. -/
def Signature.Answers (signature : Signature) (answer : Option HostValue) : Prop :=
  match signature.result, answer with
  | none, none => True
  | some type, some value => HasType type value
  | _, _ => False

/-- All that is known at a moment has its type: nodes, variables, and the value that the
function gives back from there. -/
structure Moment.Typed (moment : Moment) : Prop where
  nodes (node : Node) (entry : ExpressionEntry) (meaning : Meaning) :
    moment.activation.recorded.entry? node = some entry →
      moment.activation.meaning moment.frame node = .ok meaning →
        moment.frame.Holds entry meaning
  cells (index : Nat) (declared : LocalVariable) :
    moment.activation.recorded.locals[index]? = some declared →
      ∃ value, moment.frame.cells[index]? = some value ∧ HasType declared.type value
  answer (fuel : Nat) (after : Frame) (value : Option HostValue) :
    moment.run fuel = .ok (after, .giveBack value) →
      moment.activation.recorded.signature.Answers value

end ShaderKit
