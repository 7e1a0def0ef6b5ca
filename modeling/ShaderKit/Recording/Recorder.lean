import ShaderKit.Recording.Context

/-!
# Recording a function body

A recorder takes the operations of one body in order, checks their types and adds
expressions and statements. An expression that is not inlined is bound in the block that
is open at that moment, so its node may only be used in that block and in blocks inside
it. An operation that fails keeps what it recorded before it failed.
-/

namespace ShaderKit

/-- The state of a recording. The innermost open block and its scope stand first. -/
structure Recorder where
  session : Session
  expressions : Array ExpressionEntry := #[]
  locals : Array LocalVariable := #[]
  blocks : List Block := [[]]
  scopes : List Nat := [1]
  scopeCounter : Nat := 1
  loopDepth : Nat := 0
  callees : List FunctionId := []
  constants : List Nat := []
  bindings : List BindingEntry := []
  helpers : List Helper := []
  registers : List (Register × Node) := []

abbrev Recording := EStateM ShaderError Recorder

/-- The scope of expressions that are visible in every block. -/
def globalScope : Nat := 0

namespace Recorder

def currentScope (recorder : Recorder) : Nat :=
  recorder.scopes.head?.getD globalScope

def addStatement (recorder : Recorder) (statement : Statement) : Recorder :=
  match recorder.blocks with
  | [] => recorder
  | block :: outer => { recorder with blocks := (block ++ [statement]) :: outer }

def addNew {α : Type} [DecidableEq α] (items : List α) (item : α) : List α :=
  if items.contains item then items else items ++ [item]

def register? (recorder : Recorder) (register : Register) : Option Node :=
  (recorder.registers.find? fun entry => entry.1 = register).map Prod.snd

end Recorder

namespace Recording

def refuse {α : Type} (function : ShaderFunction) (fault : RecordingFault) :
    Recording α :=
  throw (.unsupported function.signature.name (.recording fault))

def addStatement (statement : Statement) : Recording Unit :=
  modify fun recorder => recorder.addStatement statement

def assign (register : Register) (node : Node) : Recording Unit :=
  modify fun recorder =>
    { recorder with registers := (register, node) :: recorder.registers }

variable (function : ShaderFunction)

/-- Add an expression, and bind it in the open block unless it is inlined. -/
def addExpression (expression : Expression) (type : TypeDescriptor)
    (reference : Option Reference) : Recording Node := do
  let recorder ← get
  let node : Node := ⟨function.id, recorder.expressions.size⟩
  let scope := if expression.isGlobal then globalScope else recorder.currentScope
  set { recorder with
        expressions := recorder.expressions.push ⟨expression, type, reference, scope⟩ }
  if !expression.isInlined reference then addStatement (.emit node)
  return node

def addValue (expression : Expression) (type : TypeDescriptor) : Recording Node :=
  addExpression function expression type none

/-- The entry of a node, if it belongs to this function and is visible from the open
block. -/
def entry (node : Node) : Recording ExpressionEntry := do
  if node.owner ≠ function.id then refuse function .foreignNode
  else
    let recorder ← get
    match recorder.expressions[node.index]? with
    | none => refuse function .unknownNode
    | some entry =>
        if entry.scope ≠ globalScope ∧ !recorder.scopes.contains entry.scope then
          refuse function .hiddenNode
        else return entry

def typeOf (node : Node) : Recording TypeDescriptor := do
  return (← entry function node).type

def typesOf (nodes : List Node) : Recording (List TypeDescriptor) :=
  nodes.mapM (typeOf function)

def value (node : Node) : Recording Node := do
  let entry ← entry function node
  if entry.reference.isNone then return node
  else if !entry.type.isSized then refuse function (.loadUnsized entry.type)
  else if !entry.type.isConstructible then refuse function (.loadOf entry.type)
  else addValue function (.load node) entry.type

/-- Record a literal. It must be finite, because others have no spelling. -/
def literal (scalar : Scalar) : Recording Node := do
  if !scalar.isFinite then refuse function (.nonFiniteLiteral scalar)
  else addValue function (.literal scalar) (.scalar scalar.kind)

def register (register : Register) : Recording Node := do
  match (← get).register? register with
  | some node => return node
  | none => refuse function .unknownNode

def operand : Operand → Recording Node
  | .register source => register function source
  | .literal scalar => literal function scalar

def operandValue (source : Operand) : Recording Node := do
  value function (← operand function source)

/-! ## Values -/

def constant (label : Option String) (type : TypeDescriptor) (value : HostValue) :
    Recording Node := do
  if !type.isConstructible then refuse function (.constantType type)
  else if !value.isFinite then refuse function .nonFiniteConstant
  else
    let recorder ← get
    match recorder.session.context.internConstant label type value with
    | .error error context =>
        set { recorder with session := { recorder.session with context := context } }
        throw error
    | .ok number context =>
        set { recorder with
              session := { recorder.session with context := context }
              constants := Recorder.addNew recorder.constants number }
        addValue function (.constant number) type

def zero (type : TypeDescriptor) : Recording Node := do
  if !type.isConstructible then refuse function (.zeroOf type)
  else addValue function .zero type

def convertible : TypeDescriptor → TypeDescriptor → Bool
  | .scalar _, .scalar _ => true
  | .vector _ width, .vector _ target => width == target
  | _, _ => false

/-- Record a conversion of a value. A conversion to its own type records nothing. -/
def convert (source : Node) (type : TypeDescriptor) : Recording Node := do
  let source ← value function source
  let sourceType ← typeOf function source
  if !convertible sourceType type then refuse function (.conversion sourceType type)
  else if sourceType = type then return source
  else addValue function (.convert source) type

def componentCount? (kind : ScalarKind) : TypeDescriptor → Option Nat
  | .scalar other => if other = kind then some 1 else none
  | .vector other width => if other = kind then some width.count else none
  | _ => none

def componentTotal? (kind : ScalarKind) : List TypeDescriptor → Option Nat
  | [] => some 0
  | type :: rest => do
      let first ← componentCount? kind type
      let others ← componentTotal? kind rest
      some (first + others)

/-- Whether arguments make up a vector: they fill it, or one component fills it all. -/
def fillsVector (kind : ScalarKind) (width : VectorWidth)
    (arguments : List TypeDescriptor) : Bool :=
  match componentTotal? kind arguments with
  | some total => total == width.count || (arguments.length == 1 && total == 1)
  | none => false

def constructs (type : TypeDescriptor) (arguments : List TypeDescriptor) : Bool :=
  match type with
  | .scalar _ | .atomic _ => false
  | .vector kind width => fillsVector kind width arguments
  | .matrix kind columns rows =>
      (arguments.length == columns.count &&
        arguments.all (fun argument => argument = .vector kind rows)) ||
      (arguments.length == columns.count * rows.count &&
        arguments.all (fun argument => argument = .scalar kind))
  | .array element length =>
      length == .fixed arguments.length &&
        arguments.all (fun argument => argument = element)
  | .struct _ members =>
      members.toList.map Member.type = arguments

/-- Record a value constructor. Without arguments it gives the zero value, and a scalar
constructor is a conversion. -/
def construct (type : TypeDescriptor) (arguments : List Node) : Recording Node := do
  if arguments.isEmpty then zero function type
  else
    let values ← arguments.mapM (value function)
    let types ← typesOf function values
    match type, values with
    | .scalar _, [source] => convert function source type
    | _, _ =>
        if constructs type types && type.isConstructible then
          addValue function (.compose values) type
        else refuse function (.construction type types)

/-! ## Variables and references -/

def declare (name : Option String) (type : TypeDescriptor) (initial : Option Node) :
    Recording Node := do
  if !type.isConstructible then refuse function (.variableOf type)
  else
    let recorder ← get
    let index := recorder.locals.size
    set { recorder with locals := recorder.locals.push ⟨name, type⟩ }
    addStatement (.declare index initial)
    addExpression function (.localVariable index) type (some ⟨.readWrite, .localVariable⟩)

def declareWith (name : Option String) (initial : Operand) : Recording Node := do
  let initial ← operandValue function initial
  let type ← typeOf function initial
  declare function name type (some initial)

def load (source : Node) : Recording Node := do
  let entry ← entry function source
  if entry.reference.isNone then refuse function (.loadFromValue entry.type)
  else value function source

def checkStore (entry : ExpressionEntry) : Recording Unit :=
  match entry.reference with
  | none => refuse function (.storeIntoValue entry.type)
  | some reference =>
      if reference.access ≠ .readWrite then refuse function (.storeReadOnly entry.type)
      else if !entry.type.isConstructible then refuse function (.storeInto entry.type)
      else return ()

def store (target : Node) (source : Operand) : Recording Unit := do
  let entry ← entry function target
  checkStore function entry
  let stored ← operandValue function source
  let type ← typeOf function stored
  if type ≠ entry.type then refuse function (.storeOf type entry.type)
  else addStatement (.store target stored)

/-! ## Operators -/

def unary (operator : UnaryOperator) (source : Operand) : Recording Node := do
  let source ← operandValue function source
  let type ← typeOf function source
  match operator.resultType type with
  | none => refuse function (.unary operator type)
  | some result => addValue function (.unary operator source) result

def binary (operator : BinaryOperator) (left right : Operand) : Recording Node := do
  let left ← operandValue function left
  let right ← operandValue function right
  let leftType ← typeOf function left
  let rightType ← typeOf function right
  match operator.resultType leftType rightType with
  | none => refuse function (.binary operator leftType rightType)
  | some result => addValue function (.binary operator left right) result

/-! ## Access to parts -/

def lettersIn? (set : List Char) (width : Nat) : List Char → Option (List Nat)
  | [] => some []
  | letter :: rest => do
      let position ← set.idxOf? letter
      if position < width then
        let others ← lettersIn? set width rest
        some (position :: others)
      else none

/-- The components that a swizzle names with letters of `xyzw` or of `rgba`. -/
def swizzleComponents? (pattern : String) (width : Nat) : Option (List Nat) :=
  let letters := pattern.toList
  if letters.isEmpty || pattern.utf8ByteSize > 4 then none
  else
    match lettersIn? ['x', 'y', 'z', 'w'] width letters with
    | some components => some components
    | none => lettersIn? ['r', 'g', 'b', 'a'] width letters

/-- Record a swizzle. One component of a reference stays a reference; several components
are a value. -/
def swizzle (base : Node) (pattern : String) : Recording Node := do
  let entry ← entry function base
  match entry.type with
  | .vector kind width =>
      match swizzleComponents? pattern width.count with
      | none => refuse function (.swizzle entry.type pattern)
      | some components =>
          match VectorWidth.ofCount? components.length with
          | none =>
              addExpression function (.swizzle base components) (.scalar kind)
                entry.reference
          | some result =>
              let source ← value function base
              addValue function (.swizzle source components) (.vector kind result)
  | other => refuse function (.swizzle other pattern)

/-- Record an access to a structure member. On vectors the name is read as a swizzle. -/
def member (base : Node) (name : String) : Recording Node := do
  let entry ← entry function base
  match entry.type with
  | .vector .. => swizzle function base name
  | other =>
      match other.members.find? name with
      | none => refuse function (.member other name)
      | some (position, member) =>
          addExpression function (.member base position) member.type entry.reference

/-- What indexing into a type gives: the type of an element, the number of elements if it
is fixed, and whether a value may be indexed by a number that is not known. -/
structure Indexing where
  element : TypeDescriptor
  bound : Option Nat
  dynamicOk : Bool

def indexing? : TypeDescriptor → Option Indexing
  | .vector kind width => some ⟨.scalar kind, some width.count, true⟩
  | .matrix kind columns rows => some ⟨.vector kind rows, some columns.count, false⟩
  | .array element (.fixed count) => some ⟨element, some count, false⟩
  | .array element .runtime => some ⟨element, none, false⟩
  | _ => none

def literalIndex? : Expression → Option Int
  | .literal (.u32 value) => some value.toNat
  | .literal (.i32 value) => some value.toInt
  | _ => none

def outside (position : Option Int) (bound : Option Nat) : Option Int :=
  match position, bound with
  | some position, some bound =>
      if position < 0 ∨ (bound : Int) ≤ position then some position else none
  | _, _ => none

def isIndexType : TypeDescriptor → Bool
  | .scalar kind => kind.isInteger
  | _ => false

/-- Record an element access. Array and matrix values take literal indices only;
references and vectors take any integer. -/
def index (base : Node) (position : Operand) : Recording Node := do
  let position ← operandValue function position
  let positionEntry ← entry function position
  let known := literalIndex? positionEntry.expression
  if !isIndexType positionEntry.type then refuse function (.indexType positionEntry.type)
  else
    let entry ← entry function base
    match indexing? entry.type with
    | none => refuse function (.indexing entry.type)
    | some indexing =>
        match outside known indexing.bound with
        | some position => refuse function (.indexBounds position entry.type)
        | none =>
            if entry.reference.isNone && !indexing.dynamicOk && known.isNone then
              refuse function (.dynamicIndex entry.type)
            else
              addExpression function (.index base position) indexing.element
                entry.reference

/-! ## Calls -/

/-- Check arguments against parameters in order and give their values. -/
def arguments (callee : ShaderFunction) : List Node → List Parameter → Recording (List Node)
  | node :: nodes, parameter :: parameters => do
      let argument ← value function node
      let type ← typeOf function argument
      if type ≠ parameter.type then
        throw (.graph (.argumentType callee.signature.name parameter.name parameter.type
          type))
      else
        let rest ← arguments callee nodes parameters
        return argument :: rest
  | _, _ => return []

def inSession {α : Type} (work : Tracing α) : Recording α := fun recorder =>
  match work recorder.session with
  | .ok result session => .ok result { recorder with session := session }
  | .error error session => .error error { recorder with session := session }

/-- Check a call, record the callee and give the values of the arguments. `trace` records a
function in the session. -/
def prepareCall (trace : ShaderFunction → Tracing RecordedFunction)
    (callee : ShaderFunction) (nodes : List Node) : Recording (List Node) := do
  let signature := callee.signature
  if signature.stage.isSome then refuse function (.entryPointCall signature.name)
  else if nodes.length ≠ signature.parameters.length then
    throw (.graph (.argumentCount signature.name signature.parameters.length nodes.length))
  else
    let values ← arguments function callee nodes signature.parameters
    discard (inSession (trace callee))
    modify fun recorder =>
      { recorder with callees := Recorder.addNew recorder.callees callee.id }
    return values

def call (trace : ShaderFunction → Tracing RecordedFunction) (callee : ShaderFunction)
    (nodes : List Node) : Recording Node := do
  let values ← prepareCall function trace callee nodes
  match callee.signature.result with
  | none => refuse function (.missingResult callee.signature.name)
  | some type => addValue function (.call callee.id values) type

def callVoid (trace : ShaderFunction → Tracing RecordedFunction) (callee : ShaderFunction)
    (nodes : List Node) : Recording Unit := do
  let values ← prepareCall function trace callee nodes
  addStatement (.callVoid callee.id values)

/-- The argument of a standard function. The length of an array is asked of a
reference. -/
def standardArgument (standard : StandardFunction) (node : Node) : Recording Node := do
  if standard = .arrayLength then
    let entry ← entry function node
    if entry.reference.isNone then refuse function .arrayLengthOfValue
    else return node
  else value function node

def standard (standard : StandardFunction) (nodes : List Node) : Recording Node := do
  let values ← nodes.mapM (standardArgument function standard)
  let types ← typesOf function values
  match standard.resultType types with
  | none => refuse function (.standard standard types)
  | some type => addValue function (.standard standard values) type

def comparesClosely (type : TypeDescriptor) : Bool :=
  type.scalarKind?.any ScalarKind.isFloat && !type.isMatrix

def closeTo (left right precision : Operand) : Recording Node := do
  let left ← operandValue function left
  let right ← operandValue function right
  let precision ← operandValue function precision
  let type ← typeOf function left
  let rightType ← typeOf function right
  let precisionType ← typeOf function precision
  let types := [type, rightType, precisionType]
  let helper := Helper.isCloseTo type
  if !comparesClosely type || helper.parameterTypes ≠ types then
    refuse function (.closeTo types)
  else
    modify fun recorder =>
      { recorder with helpers := Recorder.addNew recorder.helpers helper }
    addValue function (.helper helper [left, right, precision]) .bool

def bind (entry : BindingEntry) : Recording Node := do
  modify fun recorder =>
    { recorder with bindings := Recorder.addNew recorder.bindings entry }
  addExpression function (.binding entry.slot) entry.type
    (some ⟨entry.access.referenceAccess, .binding⟩)

/-! ## Control flow -/

/-- Open a block, record into it and close it again, whether recording succeeds or not.
The answer is the block. -/
def inBlock (body : Recording Unit) : Recording Block := fun recorder =>
  let scope := recorder.scopeCounter + 1
  let opened := { recorder with
    scopeCounter := scope
    scopes := scope :: recorder.scopes
    blocks := [] :: recorder.blocks }
  let close (recorder : Recorder) : Recorder := { recorder with
    scopes := recorder.scopes.tail
    blocks := recorder.blocks.tail }
  match body opened with
  | .ok () recorder => .ok (recorder.blocks.head?.getD []) (close recorder)
  | .error error recorder => .error error (close recorder)

def looped (body : Recording Unit) : Recording Block := fun recorder =>
  let leave (recorder : Recorder) : Recorder :=
    { recorder with loopDepth := recorder.loopDepth - 1 }
  match inBlock body { recorder with loopDepth := recorder.loopDepth + 1 } with
  | .ok block recorder => .ok block (leave recorder)
  | .error error recorder => .error error (leave recorder)

def condition (source : Operand) : Recording Node := do
  let source ← operandValue function source
  let type ← typeOf function source
  if type ≠ .bool then refuse function (.condition type) else return source

def branch (test : Operand) (accept reject : Recording Unit) : Recording Unit := do
  let test ← condition function test
  let accept ← inBlock accept
  let reject ← inBlock reject
  addStatement (.branch test accept reject)

/-- Record a loop that only its body leaves. -/
def loop (body : Recording Unit) : Recording Unit := do
  let body ← looped body
  addStatement (.loop body)

def counterValue (counter : Nat) (type : TypeDescriptor) : Recording Node := do
  let reference ← addExpression function (.localVariable counter) type
    (some ⟨.read, .localVariable⟩)
  value function reference

/-- Record a loop over the integers from the first up to, not including, the last. The
body is given the current value of the counter. -/
def range (first last : Operand) (body : Node → Recording Unit) : Recording Unit := do
  let first ← operandValue function first
  let last ← operandValue function last
  let type ← typeOf function first
  let lastType ← typeOf function last
  if type ≠ lastType || !isIndexType type then refuse function (.range type lastType)
  else
    let recorder ← get
    let counter := recorder.locals.size
    set { recorder with locals := recorder.locals.push ⟨none, type⟩ }
    let body ← looped do body (← counterValue function counter type)
    addStatement (.range counter first last body)

def leaveLoop : Recording Unit := do
  if (← get).loopDepth = 0 then refuse function .leaveLoopOutside
  else addStatement .leaveLoop

def nextRound : Recording Unit := do
  if (← get).loopDepth = 0 then refuse function .nextRoundOutside
  else addStatement .nextRound

def refuseResult {α : Type} (found : Option TypeDescriptor) : Recording α :=
  throw (.graph (.returnType function.signature.name function.signature.result found))

def giveBack (result : Option Node) : Recording Unit := do
  match result with
  | none =>
      if function.signature.result.isSome then refuseResult function none
      else addStatement (.giveBack none)
  | some node =>
      let node ← value function node
      let type ← typeOf function node
      if function.signature.result ≠ some type then refuseResult function (some type)
      else addStatement (.giveBack (some node))

def discardFragment : Recording Unit := do
  if function.signature.stage ≠ some .fragment then refuse function .discardOutside
  else addStatement .discard

end Recording

/-! ## The end of a recording -/

mutual
/-- Whether a statement leaves the loop around it. Statements inside an inner loop leave
that loop instead. -/
def Statement.leavesLoop : Statement → Bool
  | .leaveLoop => true
  | .branch _ accept reject => leaveLoopIn accept || leaveLoopIn reject
  | _ => false

def leaveLoopIn : List Statement → Bool
  | [] => false
  | statement :: rest => statement.leavesLoop || leaveLoopIn rest
end

mutual
/-- Whether every way through a statement returns. A loop that is never left ends only by
a return. -/
def Statement.returns : Statement → Bool
  | .giveBack _ => true
  | .branch _ accept reject => blockReturns accept && blockReturns reject
  | .loop body => !leaveLoopIn body
  | _ => false

/-- Whether every way through a block returns, by its last statement. -/
def blockReturns : List Statement → Bool
  | [] => false
  | [statement] => statement.returns
  | _ :: rest => blockReturns rest
end

/-- Close the outermost block. A function with a result must return on every way through
it. -/
def Recording.finish (function : ShaderFunction) (result : Option Node) :
    Recording RecordedFunction := do
  match result with
  | some node => giveBack function (some node)
  | none => pure ()
  let recorder ← get
  let body := recorder.blocks.head?.getD []
  if function.signature.result.isSome && !blockReturns body then
    refuseResult function none
  else
    return {
      function := function
      expressions := recorder.expressions
      locals := recorder.locals
      body := .statements body
      callees := recorder.callees
      constants := recorder.constants
      bindings := recorder.bindings
      helpers := recorder.helpers }

end ShaderKit
