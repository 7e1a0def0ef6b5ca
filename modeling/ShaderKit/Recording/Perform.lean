import ShaderKit.Recording.Recorder

/-!
# Performing scripts

A script drives a recorder action by action. Where an action takes nodes, the literals
among its operands are recorded first, from left to right; a type that cannot be built
fails before that.
-/

namespace ShaderKit

/-- What a script needs besides a recorder: the function that is recorded, the functions
that it may call, and the way in which those are recorded. -/
structure Surroundings where
  program : Program
  trace : ShaderFunction → Tracing RecordedFunction
  function : ShaderFunction

namespace Recording

def keep (out : Register) (operation : Recording Node) : Recording Unit := do
  let node ← operation
  assign out node

def named (type : NamedType) : Recording TypeDescriptor :=
  match type with
  | .ok type => return type
  | .error error => throw (.schema error)

def addNote (note : Note) : Recording Unit :=
  inSession (modify fun session => { session with journal := session.journal.note note })

/-- Record up to the first failure and note how it ended. -/
def attempt (work : Recording Unit) : Recording Unit := fun recorder =>
  match work recorder with
  | .ok () recorder => addNote (.attempted none) recorder
  | .error error recorder => addNote (.attempted (some error)) recorder

variable (function : ShaderFunction)

def operands (sources : List Operand) : Recording (List Node) :=
  sources.mapM (operand function)

def operand? : Option Operand → Recording (Option Node)
  | none => return none
  | some source => do
      let node ← operand function source
      return some node

def callee (program : Program) (id : FunctionId) : Recording ShaderFunction :=
  match program.find? id with
  | some callee => return callee
  | none => refuse function .unknownFunction

def noteType (source : Register) : Recording Unit := do
  let node ← register function source
  let type ← typeOf function node
  addNote (.nodeType function.signature.name type)

def publish (name : String) (source : Register) : Recording Unit := do
  let node ← register function source
  inSession (modify fun session =>
    { session with journal := session.journal.publish name node })

/-- Take a published node and go on with it; do nothing if there is none. -/
def adopt (name : String) (out : Register) (body : Recording Unit) : Recording Unit := do
  let recorder ← get
  match recorder.session.journal.published? name with
  | none => pure ()
  | some node =>
      assign out node
      body

end Recording

open Recording

mutual
def Action.perform (around : Surroundings) : Action → Recording Unit
  | .literal out value => keep out (Recording.literal around.function value)
  | .constant out label type value => do
      let type ← named type
      keep out (Recording.constant around.function label type value)
  | .zero out type => do
      let type ← named type
      keep out (Recording.zero around.function type)
  | .construct out type arguments => do
      let type ← named type
      let nodes ← operands around.function arguments
      keep out (Recording.construct around.function type nodes)
  | .convert out source type => do
      let type ← named type
      let node ← operand around.function source
      keep out (Recording.convert around.function node type)
  | .declare out name value => keep out (declareWith around.function name value)
  | .declareZero out type => do
      let type ← named type
      keep out (Recording.declare around.function none type none)
  | .load out source => do
      let node ← register around.function source
      keep out (Recording.load around.function node)
  | .store target value => do
      let node ← register around.function target
      Recording.store around.function node value
  | .unary out operator source => keep out (Recording.unary around.function operator source)
  | .binary out operator left right =>
      keep out (Recording.binary around.function operator left right)
  | .member out base name => do
      let node ← register around.function base
      keep out (Recording.member around.function node name)
  | .index out base position => do
      let node ← register around.function base
      keep out (Recording.index around.function node position)
  | .swizzle out base pattern => do
      let node ← register around.function base
      keep out (Recording.swizzle around.function node pattern)
  | .call out id arguments => do
      let callee ← callee around.function around.program id
      let nodes ← operands around.function arguments
      keep out (Recording.call around.function around.trace callee nodes)
  | .callVoid id arguments => do
      let callee ← callee around.function around.program id
      let nodes ← operands around.function arguments
      Recording.callVoid around.function around.trace callee nodes
  | .standard out function arguments => do
      let nodes ← operands around.function arguments
      keep out (Recording.standard around.function function nodes)
  | .closeTo out left right precision =>
      keep out (Recording.closeTo around.function left right precision)
  | .bind out entry => keep out (Recording.bind around.function entry)
  | .branch condition accept reject =>
      Recording.branch around.function condition (accept.perform around)
        (reject.perform around)
  | .loop body => Recording.loop (body.perform around)
  | .range counter first last body =>
      Recording.range around.function first last fun node => do
        assign counter node
        body.perform around
  | .leaveLoop => Recording.leaveLoop around.function
  | .nextRound => Recording.nextRound around.function
  | .giveBack value => do
      let node ← operand? around.function value
      Recording.giveBack around.function node
  | .discard => discardFragment around.function
  | .attempt body => Recording.attempt (body.perform around)
  | .noteType source => Recording.noteType around.function source
  | .publish name source => Recording.publish around.function name source
  | .adopt name out body => Recording.adopt name out (body.perform around)

def Script.perform (around : Surroundings) : Script → Recording Unit
  | .done => return ()
  | .step action rest => do
      action.perform around
      rest.perform around
end

end ShaderKit
