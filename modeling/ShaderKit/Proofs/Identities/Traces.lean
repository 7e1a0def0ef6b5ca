import ShaderKit.Proofs.Identities.Operations

/-!
# Tracing with other identities

Scripts are made of operations, and what tracing adds to them compares identities only: whether a
function is finished, and whether it is being recorded. So tracing a program with other identities
gives the same recordings with other identities, and fails where and as the program does.
-/

namespace ShaderKit

open Recording

variable (ids : FunctionIdMap)

/-- The surroundings of a recording with other identities, in which callees are recorded in the
given way. -/
def Surroundings.mapIds (around : Surroundings)
    (trace : ShaderFunction → Tracing RecordedFunction) : Surroundings where
  program := around.program.mapIds ids
  trace := trace
  function := around.function.mapIds ids

def TracesMapIds (trace other : ShaderFunction → Tracing RecordedFunction) : Prop :=
  ∀ callee, (trace callee).MapsIds ids (RecordedFunction.mapIds ids) (other (callee.mapIds ids))

/-! ## Scripts -/

theorem keep_mapIds (out : Register) {operation other : Recording Node}
    (same : MapsIds ids (Node.mapIds ids) operation other) :
    MapsIds ids id (keep out operation) (keep out other) :=
  .bind same fun node => assign_mapIds ids out node

theorem named_mapIds (type : NamedType) : MapsIds ids id (named type) (named type) := by
  cases type with
  | ok type => exact .pure type
  | error error => exact .throw _

section

variable {ids} {around : Surroundings} {trace : ShaderFunction → Tracing RecordedFunction}

mutual
theorem Action.perform_mapIds (traces : TracesMapIds ids around.trace trace) : ∀ action : Action,
    MapsIds ids id (action.perform around)
      ((action.mapIds ids).perform (around.mapIds ids trace)) := by
  intro action
  cases action with
  | literal out value => exact keep_mapIds ids out (literal_mapIds ids _ value)
  | constant out label type value =>
      apply Commutes.bind (named_mapIds ids type)
      intro type
      exact keep_mapIds ids out (constant_mapIds ids _ label type value)
  | zero out type =>
      apply Commutes.bind (named_mapIds ids type)
      intro type
      exact keep_mapIds ids out (zero_mapIds ids _ type)
  | construct out type arguments =>
      apply Commutes.bind (named_mapIds ids type)
      intro type
      apply Commutes.bind (operands_mapIds ids _ arguments)
      intro nodes
      exact keep_mapIds ids out (construct_mapIds ids _ type nodes)
  | convert out source type =>
      apply Commutes.bind (named_mapIds ids type)
      intro type
      apply Commutes.bind (operand_mapIds ids _ source)
      intro node
      exact keep_mapIds ids out (convert_mapIds ids _ node type)
  | declare out name value => exact keep_mapIds ids out (declareWith_mapIds ids _ name value)
  | declareZero out type =>
      apply Commutes.bind (named_mapIds ids type)
      intro type
      exact keep_mapIds ids out (declare_mapIds ids _ none type none)
  | load out source =>
      apply Commutes.bind (register_mapIds ids _ source)
      intro node
      exact keep_mapIds ids out (load_mapIds ids _ node)
  | store target value =>
      apply Commutes.bind (register_mapIds ids _ target)
      intro node
      exact store_mapIds ids _ node value
  | unary out operator source => exact keep_mapIds ids out (unary_mapIds ids _ operator source)
  | binary out operator left right =>
      exact keep_mapIds ids out (binary_mapIds ids _ operator left right)
  | member out base name =>
      apply Commutes.bind (register_mapIds ids _ base)
      intro node
      exact keep_mapIds ids out (member_mapIds ids _ node name)
  | index out base position =>
      apply Commutes.bind (register_mapIds ids _ base)
      intro node
      exact keep_mapIds ids out (index_mapIds ids _ node position)
  | swizzle out base pattern =>
      apply Commutes.bind (register_mapIds ids _ base)
      intro node
      exact keep_mapIds ids out (swizzle_mapIds ids _ node pattern)
  | call out id arguments =>
      apply Commutes.bind (callee_mapIds ids _ around.program id)
      intro callee
      apply Commutes.bind (operands_mapIds ids _ arguments)
      intro nodes
      exact keep_mapIds ids out (call_mapIds ids _ traces callee nodes)
  | callVoid id arguments =>
      apply Commutes.bind (callee_mapIds ids _ around.program id)
      intro callee
      apply Commutes.bind (operands_mapIds ids _ arguments)
      intro nodes
      exact callVoid_mapIds ids _ traces callee nodes
  | standard out called arguments =>
      apply Commutes.bind (operands_mapIds ids _ arguments)
      intro nodes
      exact keep_mapIds ids out (standard_mapIds ids _ called nodes)
  | closeTo out left right precision =>
      exact keep_mapIds ids out (closeTo_mapIds ids _ left right precision)
  | bind out entry => exact keep_mapIds ids out (bind_mapIds ids _ entry)
  | branch condition accept reject =>
      exact branch_mapIds ids _ condition (Script.perform_mapIds traces accept)
        (Script.perform_mapIds traces reject)
  | loop body => exact loop_mapIds ids (Script.perform_mapIds traces body)
  | range counter first last body =>
      exact range_mapIds ids _ first last fun node =>
        .bind (assign_mapIds ids counter node) fun _ => Script.perform_mapIds traces body
  | leaveLoop => exact leaveLoop_mapIds ids _
  | nextRound => exact nextRound_mapIds ids _
  | giveBack value =>
      apply Commutes.bind (operand?_mapIds ids _ value)
      intro node
      exact giveBack_mapIds ids _ node
  | discard => exact discardFragment_mapIds ids _
  | attempt body => exact attempt_mapIds ids (Script.perform_mapIds traces body)
  | noteType source => exact noteType_mapIds ids _ source
  | publish name source => exact publish_mapIds ids _ name source
  | adopt name out body => exact adopt_mapIds ids name out (Script.perform_mapIds traces body)

theorem Script.perform_mapIds (traces : TracesMapIds ids around.trace trace) : ∀ script : Script,
    MapsIds ids id (script.perform around)
      ((script.mapIds ids).perform (around.mapIds ids trace)) := by
  intro script
  cases script with
  | done => exact .pure ()
  | step action rest =>
      exact .bind (Action.perform_mapIds traces action) fun _ => Script.perform_mapIds traces rest
end

end

/-! ## Recording one function -/

namespace Tracing

variable (function : ShaderFunction)

theorem addParameters_mapIds (index : Nat) (parameters : List Parameter) :
    Recording.MapsIds ids id (addParameters function index parameters)
      (addParameters (function.mapIds ids) index parameters) := by
  induction parameters generalizing index with
  | nil => exact .pure ()
  | cons parameter rest induction =>
      apply Commutes.bind (addValue_mapIds ids function (.parameter index) parameter.type)
      intro node
      exact .bind (assign_mapIds ids _ node) fun _ => induction (index + 1)

theorem recording_mapIds {α β : Type} {value : α → β} {work : Recording α} {other : Recording β}
    (same : Recording.MapsIds ids value work other) :
    Tracing.MapsIds ids value (recording work) (recording other) := by
  intro session
  have empty : Recorder.mapIds ids { session := session } = { session := session.mapIds ids } := by
    simp only [Recorder.mapIds, List.map_cons, List.map_nil, mapBlockIds, Array.map_empty]
  have first := same { session := session }
  unfold recording
  rw [← empty, first]
  cases work { session := session } <;> rfl

theorem log_mapIds (text : String) : Tracing.MapsIds ids id (log text) (log text) :=
  .modify fun _ => rfl

section

variable {ids} {around : Surroundings} {trace : ShaderFunction → Tracing RecordedFunction}
  (traces : TracesMapIds ids around.trace trace)

include traces

theorem recordScript_mapIds (body : Script) (result : Option Operand) :
    Tracing.MapsIds ids (RecordedFunction.mapIds ids) (recordScript around body result)
      (recordScript (around.mapIds ids trace) (body.mapIds ids) result) := by
  apply recording_mapIds
  apply Commutes.bind (addParameters_mapIds ids around.function 0
    around.function.signature.parameters)
  intro _
  apply Commutes.bind (body.perform_mapIds traces)
  intro _
  apply Commutes.bind (operand?_mapIds ids around.function result)
  intro node
  exact finish_mapIds ids around.function node

theorem recordReferences_mapIds (references : List (String × FunctionId))
    (known : List FunctionId) :
    Tracing.MapsIds ids (List.map ids) (recordReferences around known references)
      (recordReferences (around.mapIds ids trace) (known.map ids)
        (references.map fun entry => (entry.1, ids entry.2))) := by
  induction references generalizing known with
  | nil => exact .pure known
  | cons reference rest induction =>
      have found : (around.mapIds ids trace).program.find? (ids reference.2) =
          (around.program.find? reference.2).map (ShaderFunction.mapIds ids) :=
        around.program.find?_mapIds reference.2
      rw [List.map_cons, recordReferences, recordReferences, found]
      cases around.program.find? reference.2 with
      | none => exact .throw _
      | some callee =>
          apply Commutes.bind (traces callee).discard
          intro _
          rw [Recorder.addNew_map ids.injective]
          exact induction _

theorem record_mapIds :
    Tracing.MapsIds ids (RecordedFunction.mapIds ids) (record around)
      (record (around.mapIds ids trace)) := by
  have implementation : (around.mapIds ids trace).function.implementation =
      around.function.implementation.mapIds ids := rfl
  unfold record
  rw [implementation]
  cases around.function.implementation with
  | script body result => exact recordScript_mapIds traces body result
  | raw text references =>
      apply Commutes.bind (recordReferences_mapIds traces references [])
      intro callees
      have raw : RecordedFunction.mapIds ids
          { function := around.function, body := .raw text, callees := callees } =
          { function := around.function.mapIds ids
            body := .raw text
            callees := callees.map ids } := by
        simp only [RecordedFunction.mapIds, RecordedBody.mapIds, Array.map_empty]
      exact raw ▸ .pure _

end

theorem left_mapIds (session : Session) :
    (⟨(session.mapIds ids).context.left, (session.mapIds ids).journal⟩ : Session) =
      Session.mapIds ids ⟨session.context.left, session.journal⟩ := by
  simp only [Session.mapIds, TraceContext.left, TraceContext.mapIds, List.map_tail]

theorem keep_mapIds (recorded : RecordedFunction) :
    Tracing.MapsIds ids id (keep recorded) (keep (recorded.mapIds ids)) := by
  apply Commutes.modify
  intro session
  simp only [Session.mapIds, TraceContext.mapIds, List.map_append, List.map_singleton]

theorem onStack_mapIds {work other : Tracing RecordedFunction}
    (same : work.MapsIds ids (RecordedFunction.mapIds ids) other) :
    Tracing.MapsIds ids (RecordedFunction.mapIds ids) (onStack function work)
      (onStack (function.mapIds ids) other) := by
  intro session
  have first := same ⟨session.context.entered function, session.journal⟩
  change other ⟨(session.mapIds ids).context.entered (function.mapIds ids),
    (session.mapIds ids).journal⟩ = _ at first
  cases ran : work ⟨session.context.entered function, session.journal⟩ with
  | ok recorded finish =>
      rw [ran] at first
      rw [onStack_of_ok ran, onStack_of_ok first, left_mapIds]
      rfl
  | error error finish =>
      rw [ran] at first
      rw [onStack_of_error ran, onStack_of_error first, left_mapIds]
      rfl

theorem once_mapIds {work other : Tracing RecordedFunction}
    (same : work.MapsIds ids (RecordedFunction.mapIds ids) other) :
    Tracing.MapsIds ids (RecordedFunction.mapIds ids) (once function work)
      (once (function.mapIds ids) other) := by
  apply Commutes.bind .get
  intro session
  have found : (session.mapIds ids).context.find? (ids function.id) =
      (session.context.find? function.id).map (RecordedFunction.mapIds ids) :=
    session.context.find?_mapIds function.id
  have chain : (session.mapIds ids).context.chainFrom (ids function.id) =
      (session.context.chainFrom function.id).map (ShaderFunction.mapIds ids) :=
    session.context.chainFrom_mapIds function.id
  rw [show (function.mapIds ids).id = ids function.id from rfl, found, chain]
  cases session.context.find? function.id with
  | some recorded => exact .pure recorded
  | none =>
      dsimp only [Option.map_none]
      cases session.context.chainFrom function.id with
      | nil =>
          apply Commutes.bind (log_mapIds ids _)
          intro _
          apply Commutes.bind (onStack_mapIds ids function same)
          intro recorded
          have expressions : (recorded.mapIds ids).expressions.size = recorded.expressions.size :=
            Array.size_map
          have callees : (recorded.mapIds ids).callees.length = recorded.callees.length :=
            List.length_map _
          rw [expressions, callees]
          apply Commutes.bind (log_mapIds ids _)
          intro _
          exact .bind (keep_mapIds ids recorded) fun _ => .pure recorded
      | cons first rest =>
          have names : ((first :: rest).map (ShaderFunction.mapIds ids) ++
              [function.mapIds ids]).map (fun link => link.signature.name) =
              ((first :: rest) ++ [function]).map fun link => link.signature.name := by
            rw [List.map_append, List.map_append, List.map_map]
            rfl
          rw [List.map_cons] at names ⊢
          dsimp only
          rw [names]
          exact .throw _

end Tracing

/-! ## Tracing a program -/

namespace Program

variable (program : Program)

theorem traceWithin_mapIds (depth : Nat) :
    TracesMapIds ids (program.traceWithin depth) ((program.mapIds ids).traceWithin depth) := by
  induction depth with
  | zero => exact fun function => Tracing.once_mapIds ids function (.throw _)
  | succ depth induction =>
      intro function
      apply Tracing.once_mapIds
      exact @Tracing.record_mapIds ids ⟨program, program.traceWithin depth, function⟩ _ induction

theorem trace_mapIds : TracesMapIds ids program.trace (program.mapIds ids).trace := by
  intro function
  rw [trace, trace, mapIds, List.length_map]
  exact program.traceWithin_mapIds ids _ function

end Program

end ShaderKit
