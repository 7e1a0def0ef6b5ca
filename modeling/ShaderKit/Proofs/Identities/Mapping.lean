import Mathlib.Data.List.Basic
import ShaderKit.Recording.Trace

/-!
# Other identities for functions

Functions are told apart by their identities. A map of identities that keeps them apart carries
over everything that mentions functions: bodies, programs, recordings, contexts and recorders.
-/

namespace ShaderKit

/-- A way to give functions other identities, different ones to different functions. -/
structure FunctionIdMap where
  toFun : FunctionId → FunctionId
  injective : Function.Injective toFun

instance : CoeFun FunctionIdMap fun _ => FunctionId → FunctionId :=
  ⟨FunctionIdMap.toFun⟩

/-! ## Functions -/

section

variable (ids : FunctionId → FunctionId)

mutual
def Action.mapIds : Action → Action
  | .call out callee arguments => .call out (ids callee) arguments
  | .callVoid callee arguments => .callVoid (ids callee) arguments
  | .branch condition accept reject => .branch condition accept.mapIds reject.mapIds
  | .loop body => .loop body.mapIds
  | .range counter first last body => .range counter first last body.mapIds
  | .attempt body => .attempt body.mapIds
  | .adopt name out body => .adopt name out body.mapIds
  | action => action

def Script.mapIds : Script → Script
  | .done => .done
  | .step action rest => .step action.mapIds rest.mapIds
end

def Implementation.mapIds : Implementation → Implementation
  | .script body result => .script (body.mapIds ids) result
  | .raw text references => .raw text (references.map fun entry => (entry.1, ids entry.2))

def ShaderFunction.mapIds (function : ShaderFunction) : ShaderFunction where
  id := ids function.id
  signature := function.signature
  implementation := function.implementation.mapIds ids

def Program.mapIds (program : Program) : Program where
  functions := program.functions.map (ShaderFunction.mapIds ids)

/-! ## Recordings -/

def Node.mapIds (node : Node) : Node :=
  ⟨ids node.owner, node.index⟩

def Expression.mapIds : Expression → Expression
  | .load source => .load (source.mapIds ids)
  | .compose arguments => .compose (arguments.map (Node.mapIds ids))
  | .unary operator operand => .unary operator (operand.mapIds ids)
  | .binary operator left right => .binary operator (left.mapIds ids) (right.mapIds ids)
  | .member base position => .member (base.mapIds ids) position
  | .index base position => .index (base.mapIds ids) (position.mapIds ids)
  | .swizzle source components => .swizzle (source.mapIds ids) components
  | .call callee arguments => .call (ids callee) (arguments.map (Node.mapIds ids))
  | .standard function arguments => .standard function (arguments.map (Node.mapIds ids))
  | .helper used arguments => .helper used (arguments.map (Node.mapIds ids))
  | .convert source => .convert (source.mapIds ids)
  | expression => expression

def ExpressionEntry.mapIds (entry : ExpressionEntry) : ExpressionEntry :=
  { entry with expression := entry.expression.mapIds ids }

mutual
def Statement.mapIds : Statement → Statement
  | .emit node => .emit (node.mapIds ids)
  | .declare index value => .declare index (value.map (Node.mapIds ids))
  | .store target value => .store (target.mapIds ids) (value.mapIds ids)
  | .callVoid callee arguments => .callVoid (ids callee) (arguments.map (Node.mapIds ids))
  | .branch condition accept reject =>
      .branch (condition.mapIds ids) (mapBlockIds accept) (mapBlockIds reject)
  | .loop body => .loop (mapBlockIds body)
  | .range counter first last body =>
      .range counter (first.mapIds ids) (last.mapIds ids) (mapBlockIds body)
  | .giveBack value => .giveBack (value.map (Node.mapIds ids))
  | statement => statement

def mapBlockIds : List Statement → List Statement
  | [] => []
  | statement :: rest => statement.mapIds :: mapBlockIds rest
end

def RecordedBody.mapIds : RecordedBody → RecordedBody
  | .statements block => .statements (mapBlockIds ids block)
  | .raw text => .raw text

def RecordedFunction.mapIds (recorded : RecordedFunction) : RecordedFunction :=
  { recorded with
    function := recorded.function.mapIds ids
    expressions := recorded.expressions.map (ExpressionEntry.mapIds ids)
    body := recorded.body.mapIds ids
    callees := recorded.callees.map ids }

/-! ## Contexts and recorders -/

def TraceContext.mapIds (context : TraceContext) : TraceContext :=
  { context with
    finished := context.finished.map (RecordedFunction.mapIds ids)
    stack := context.stack.map (ShaderFunction.mapIds ids) }

def Journal.mapIds (journal : Journal) : Journal :=
  { journal with
    published := journal.published.map fun entry => (entry.1, entry.2.mapIds ids) }

def Session.mapIds (session : Session) : Session where
  context := session.context.mapIds ids
  journal := session.journal.mapIds ids

def Recorder.mapIds (recorder : Recorder) : Recorder :=
  { recorder with
    session := recorder.session.mapIds ids
    expressions := recorder.expressions.map (ExpressionEntry.mapIds ids)
    blocks := recorder.blocks.map (mapBlockIds ids)
    callees := recorder.callees.map ids
    registers := recorder.registers.map fun entry => (entry.1, entry.2.mapIds ids) }

end

/-! ## Lists by identities -/

variable {ids : FunctionIdMap}

namespace Program

theorem find?_mapIds (program : Program) (id : FunctionId) :
    (program.mapIds ids).find? (ids id) = (program.find? id).map (ShaderFunction.mapIds ids) := by
  rw [find?, find?, mapIds, List.find?_map]
  congr 2
  funext function
  exact decide_eq_decide.mpr ids.injective.eq_iff

end Program

namespace TraceContext

theorem find?_mapIds (context : TraceContext) (id : FunctionId) :
    (context.mapIds ids).find? (ids id) =
      (context.find? id).map (RecordedFunction.mapIds ids) := by
  rw [find?, find?, mapIds, List.find?_map]
  congr 2
  funext recorded
  exact decide_eq_decide.mpr ids.injective.eq_iff

theorem chainFrom_mapIds (context : TraceContext) (id : FunctionId) :
    (context.mapIds ids).chainFrom (ids id) =
      (context.chainFrom id).map (ShaderFunction.mapIds ids) := by
  rw [chainFrom, chainFrom, mapIds, ← List.map_reverse, List.dropWhile_map]
  congr 2
  funext function
  exact decide_eq_decide.mpr ids.injective.ne_iff

end TraceContext

section

variable {α β : Type} [DecidableEq α] [DecidableEq β] {f : α → β}
  (injective : Function.Injective f) (items : List α) (item : α)

include injective

theorem contains_map : (items.map f).contains (f item) = items.contains item := by
  rw [Bool.eq_iff_iff, List.contains_iff_mem, List.contains_iff_mem,
    List.mem_map_of_injective injective]

theorem Recorder.addNew_map :
    addNew (items.map f) (f item) = (addNew items item).map f := by
  unfold addNew
  rw [contains_map injective]
  split
  next => rfl
  next => rw [List.map_append, List.map_singleton]

end

theorem Recorder.register?_mapIds (recorder : Recorder) (register : Register) :
    (recorder.mapIds ids).register? register =
      (recorder.register? register).map (Node.mapIds ids) := by
  rw [register?, register?, mapIds, List.find?_map, Option.map_map, Option.map_map]
  rfl

theorem Journal.published?_mapIds (journal : Journal) (name : String) :
    (journal.mapIds ids).published? name = (journal.published? name).map (Node.mapIds ids) := by
  rw [published?, published?, mapIds, List.find?_map, Option.map_map, Option.map_map]
  rfl

/-! ## Expressions and statements -/

theorem Expression.isInlined_mapIds (expression : Expression) (reference : Option Reference) :
    (expression.mapIds ids).isInlined reference = expression.isInlined reference := by
  cases expression <;> rfl

theorem Expression.isGlobal_mapIds (expression : Expression) :
    (expression.mapIds ids).isGlobal = expression.isGlobal := by
  cases expression <;> rfl

theorem Recording.literalIndex?_mapIds (expression : Expression) :
    literalIndex? (expression.mapIds ids) = literalIndex? expression := by
  cases expression <;> rfl

theorem mapBlockIds_eq_map : ∀ block : Block,
    mapBlockIds ids block = block.map (Statement.mapIds ids)
  | [] => rfl
  | statement :: rest => by rw [mapBlockIds, mapBlockIds_eq_map rest, List.map_cons]

mutual
theorem Statement.leavesLoop_mapIds : ∀ statement : Statement,
    (statement.mapIds ids).leavesLoop = statement.leavesLoop
  | .branch _ accept reject => by
      rw [Statement.mapIds, Statement.leavesLoop, Statement.leavesLoop, leaveLoopIn_mapIds accept,
        leaveLoopIn_mapIds reject]
  | .emit _ | .declare _ _ | .store _ _ | .callVoid _ _ | .loop _ | .range _ _ _ _
  | .leaveLoop | .nextRound | .giveBack _ | .discard => rfl

theorem leaveLoopIn_mapIds : ∀ block : Block,
    leaveLoopIn (mapBlockIds ids block) = leaveLoopIn block
  | [] => rfl
  | statement :: rest => by
      rw [mapBlockIds, leaveLoopIn, leaveLoopIn, statement.leavesLoop_mapIds,
        leaveLoopIn_mapIds rest]
end

mutual
theorem Statement.returns_mapIds : ∀ statement : Statement,
    (statement.mapIds ids).returns = statement.returns
  | .branch _ accept reject => by
      rw [Statement.mapIds, Statement.returns, Statement.returns, blockReturns_mapIds accept,
        blockReturns_mapIds reject]
  | .loop body => by
      rw [Statement.mapIds, Statement.returns, Statement.returns, leaveLoopIn_mapIds]
  | .emit _ | .declare _ _ | .store _ _ | .callVoid _ _ | .range _ _ _ _
  | .leaveLoop | .nextRound | .giveBack _ | .discard => rfl

theorem blockReturns_mapIds : ∀ block : Block,
    blockReturns (mapBlockIds ids block) = blockReturns block
  | [] => rfl
  | [statement] => statement.returns_mapIds
  | _ :: statement :: rest => by
      exact blockReturns_mapIds (statement :: rest)
end

end ShaderKit
