import ShaderKit.Recording.Perform

/-!
# Tracing

Tracing a function records it and everything that it calls. In one context a function is
recorded once, and its callees before it. A function that is called while it is being
recorded calls itself, directly or through others; that is refused.

The functions being recorded are different functions of one program, so their number
bounds how deep tracing goes.
-/

namespace ShaderKit

namespace Tracing

def log (text : String) : Tracing Unit :=
  modify fun session => { session with journal := session.journal.log .trace text }

/-- Put a function on the stack while it is being recorded. -/
def onStack {α : Type} (function : ShaderFunction) (work : Tracing α) : Tracing α :=
  fun session =>
    let leave (session : Session) : Session :=
      { session with
        context := { session.context with stack := session.context.stack.tail } }
    let entered := { session with
      context := { session.context with stack := function :: session.context.stack } }
    match work entered with
    | .ok result session => .ok result (leave session)
    | .error error session => .error error (leave session)

def keep (recorded : RecordedFunction) : Tracing Unit :=
  modify fun session =>
    { session with
      context := { session.context with
        finished := session.context.finished ++ [recorded] } }

/-- Record a function unless its recording has begun before. A finished recording is the
answer again; an unfinished one shows a recursive call. -/
def once (function : ShaderFunction) (record : Tracing RecordedFunction) :
    Tracing RecordedFunction := do
  let session ← get
  match session.context.find? function.id with
  | some recorded => return recorded
  | none =>
      match session.context.chainFrom function.id with
      | [] =>
          let name := function.signature.name
          log s!"tracing shader function `{name}`"
          let recorded ← onStack function record
          log (s!"traced `{name}`: {recorded.expressions.size} expressions, " ++
            s!"{recorded.callees.length} callees")
          keep recorded
          return recorded
      | chain =>
          let names := (chain ++ [function]).map fun link => link.signature.name
          throw (.graph (.recursiveCall names))

def refuse {α : Type} (function : ShaderFunction) (fault : RecordingFault) : Tracing α :=
  throw (.unsupported function.signature.name (.recording fault))

def recording {α : Type} (work : Recording α) : Tracing α := fun session =>
  match work { session := session } with
  | .ok result recorder => .ok result recorder.session
  | .error error recorder => .error error recorder.session

def addParameters (function : ShaderFunction) (index : Nat) :
    List Parameter → Recording Unit
  | [] => return ()
  | parameter :: rest => do
      let node ← Recording.addValue function (.parameter index) parameter.type
      Recording.assign (.ofParameter index) node
      addParameters function (index + 1) rest

def recordScript (around : Surroundings) (body : Script) (result : Option Operand) :
    Tracing RecordedFunction :=
  recording do
    addParameters around.function 0 around.function.signature.parameters
    body.perform around
    let result ← Recording.operand? around.function result
    Recording.finish around.function result

/-- Record the functions that a raw text refers to, in order, and give their identities,
each once. -/
def recordReferences (around : Surroundings) (known : List FunctionId) :
    List (String × FunctionId) → Tracing (List FunctionId)
  | [] => return known
  | (_, id) :: rest => do
      match around.program.find? id with
      | none => refuse around.function .unknownFunction
      | some callee =>
          discard (around.trace callee)
          recordReferences around (Recorder.addNew known id) rest

def record (around : Surroundings) : Tracing RecordedFunction :=
  match around.function.implementation with
  | .script body result => recordScript around body result
  | .raw text references => do
      let callees ← recordReferences around [] references
      return { function := around.function, body := .raw text, callees := callees }

/-- Work in a new context. The answer comes with that context, and the journal is kept
also when the work fails. -/
def alone {α : Type} (work : Tracing α) : EStateM ShaderError Journal (α × TraceContext) :=
  fun journal =>
    match work { journal := journal } with
    | .ok result session => .ok (result, session.context) session.journal
    | .error error session => .error error session.journal

end Tracing

/-- Trace a function whose callees are at most `depth` calls away from it. -/
def Program.traceWithin (program : Program) :
    (depth : Nat) → ShaderFunction → Tracing RecordedFunction
  | 0, function => Tracing.once function (Tracing.refuse function .nestedTooDeep)
  | depth + 1, function =>
      Tracing.once function (Tracing.record ⟨program, program.traceWithin depth, function⟩)

/-- Trace a function and everything that it calls. -/
def Program.trace (program : Program) (function : ShaderFunction) :
    Tracing RecordedFunction :=
  program.traceWithin (program.functions.length + 1) function

end ShaderKit
