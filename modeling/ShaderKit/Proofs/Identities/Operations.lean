import ShaderKit.Proofs.Identities.Mapping
import ShaderKit.Proofs.Recording.Proceeding

/-!
# Recording with other identities

No operation looks at an identity except to compare it with another one. So from a recorder with
other identities, an operation on the same things with other identities gives the same, again
with other identities, or the same failure.
-/

namespace ShaderKit

/-! ## Work that commutes with a map -/

section

variable {ε σ τ α β γ δ : Type}

def mapOutcome (state : σ → τ) (value : α → β) : EStateM.Result ε σ α → EStateM.Result ε τ β
  | .ok result finish => .ok (value result) (state finish)
  | .error error finish => .error error (state finish)

/-- Work whose outcome from a mapped state is the mapped outcome of other work. -/
def Commutes (state : σ → τ) (value : α → β) (work : EStateM ε σ α) (other : EStateM ε τ β) :
    Prop :=
  ∀ start, other (state start) = mapOutcome state value (work start)

namespace Commutes

variable {state : σ → τ} {value : α → β} {middle : γ → δ} {work : EStateM ε σ γ}
  {other : EStateM ε τ δ}

theorem pure (result : α) :
    Commutes state value (pure result : EStateM ε σ α) (pure (value result) : EStateM ε τ β) :=
  fun _ => rfl

theorem throw (error : ε) :
    Commutes state value (throw error : EStateM ε σ α) (throw error : EStateM ε τ β) :=
  fun _ => rfl

theorem get : Commutes state state (get : EStateM ε σ σ) (get : EStateM ε τ τ) :=
  fun _ => rfl

theorem set (finish : σ) :
    Commutes state id (set finish : EStateM ε σ PUnit) (set (state finish) : EStateM ε τ PUnit) :=
  fun _ => rfl

theorem modify {update : σ → σ} {updateOther : τ → τ}
    (same : ∀ start, updateOther (state start) = state (update start)) :
    Commutes state id (modify update : EStateM ε σ PUnit)
      (modify updateOther : EStateM ε τ PUnit) :=
  fun start => congrArg (EStateM.Result.ok PUnit.unit) (same start)

theorem bind {next : γ → EStateM ε σ α} {following : δ → EStateM ε τ β}
    (begun : Commutes state middle work other)
    (rest : ∀ result, Commutes state value (next result) (following (middle result))) :
    Commutes state value (work >>= next) (other >>= following) := by
  intro start
  have first := begun start
  cases ran : work start with
  | ok result finish =>
      rw [ran] at first
      rw [bind_of_ok ran, bind_of_ok first]
      exact rest result finish
  | error error finish =>
      rw [ran] at first
      rw [bind_of_error ran, bind_of_error first]
      rfl

theorem discard (commutes : Commutes state middle work other) :
    Commutes state id (discard work) (discard other) := by
  intro start
  have first := commutes start
  cases ran : work start with
  | ok result finish =>
      rw [ran] at first
      rw [discard_ran_ok.mpr ⟨_, ran⟩]
      exact discard_ran_ok.mpr ⟨_, first⟩
  | error error finish =>
      rw [ran] at first
      rw [discard_ran_error.mpr ran]
      exact discard_ran_error.mpr first

theorem ite {condition otherCondition : Prop} [Decidable condition] [Decidable otherCondition]
    {accept reject : EStateM ε σ γ} {otherAccept otherReject : EStateM ε τ δ}
    (same : otherCondition ↔ condition) (accepted : Commutes state middle accept otherAccept)
    (rejected : Commutes state middle reject otherReject) :
    Commutes state middle (if condition then accept else reject)
      (if otherCondition then otherAccept else otherReject) := by
  by_cases holds : condition
  · rw [if_pos holds, if_pos (same.mpr holds)]
    exact accepted
  · rw [if_neg holds, if_neg (mt same.mp holds)]
    exact rejected

theorem mapM (value : α → β) {step : α → EStateM ε σ γ} {otherStep : β → EStateM ε τ δ}
    (each : ∀ item, Commutes state middle (step item) (otherStep (value item)))
    (list : List α) :
    Commutes state (List.map middle) (list.mapM step) ((list.map value).mapM otherStep) := by
  induction list with
  | nil => exact .pure []
  | cons item rest induction =>
      rw [List.map_cons, List.mapM_cons, List.mapM_cons]
      apply bind (each item)
      intro result
      apply bind induction
      intro results
      exact .pure (result :: results)

end Commutes

end

abbrev Recording.MapsIds (ids : FunctionIdMap) {α β : Type} (value : α → β) (work : Recording α)
    (other : Recording β) : Prop :=
  Commutes (Recorder.mapIds ids) value work other

abbrev Tracing.MapsIds (ids : FunctionIdMap) {α β : Type} (value : α → β) (work : Tracing α)
    (other : Tracing β) : Prop :=
  Commutes (Session.mapIds ids) value work other

/-! ## Changes of a recorder -/

namespace Recorder

variable {ids : FunctionIdMap} (recorder : Recorder)

theorem size_mapIds : (recorder.mapIds ids).expressions.size = recorder.expressions.size :=
  Array.size_map

theorem addStatement_mapIds (statement : Statement) :
    (recorder.mapIds ids).addStatement (statement.mapIds ids) =
      (recorder.addStatement statement).mapIds ids := by
  unfold addStatement
  cases blocks : recorder.blocks with
  | nil =>
      have none : (recorder.mapIds ids).blocks = [] := by rw [mapIds, blocks, List.map_nil]
      rw [none]
  | cons block outer =>
      have same : (recorder.mapIds ids).blocks =
          mapBlockIds ids block :: outer.map (mapBlockIds ids) := by
        rw [mapIds, blocks, List.map_cons]
      rw [same]
      simp only [mapIds, List.map_cons, mapBlockIds_eq_map, List.map_append, List.map_nil]

theorem push_mapIds (entry : ExpressionEntry) :
    (recorder.mapIds ids).push (entry.mapIds ids) = (recorder.push entry).mapIds ids := by
  simp only [push, mapIds, Array.map_push]

theorem withExpression_mapIds (function : ShaderFunction) (expression : Expression)
    (type : TypeDescriptor) (reference : Option Reference) :
    (recorder.mapIds ids).withExpression (function.mapIds ids) (expression.mapIds ids) type
        reference =
      (recorder.withExpression function expression type reference).mapIds ids := by
  unfold withExpression
  rw [expression.isGlobal_mapIds, expression.isInlined_mapIds, size_mapIds]
  dsimp only
  split
  next =>
    rw [← push_mapIds]
    rfl
  next =>
    rw [← addStatement_mapIds, ← push_mapIds]
    rfl

end Recorder

namespace Recording

variable (ids : FunctionIdMap) (function : ShaderFunction) {α β : Type} {value : α → β}

theorem refuse_mapIds (fault : RecordingFault) :
    MapsIds ids value (refuse function fault) (refuse (function.mapIds ids) fault) :=
  .throw _

theorem addStatement_mapIds (statement : Statement) :
    MapsIds ids id (addStatement statement) (addStatement (statement.mapIds ids)) :=
  .modify fun recorder => recorder.addStatement_mapIds statement

theorem assign_mapIds (register : Register) (node : Node) :
    MapsIds ids id (assign register node) (assign register (node.mapIds ids)) :=
  .modify fun _ => rfl

theorem addExpression_mapIds (expression : Expression) (type : TypeDescriptor)
    (reference : Option Reference) :
    MapsIds ids (Node.mapIds ids) (addExpression function expression type reference)
      (addExpression (function.mapIds ids) (expression.mapIds ids) type reference) := by
  intro recorder
  rw [addExpression_eq, addExpression_eq, recorder.withExpression_mapIds, recorder.size_mapIds]
  rfl

theorem addValue_mapIds (expression : Expression) (type : TypeDescriptor) :
    MapsIds ids (Node.mapIds ids) (addValue function expression type)
      (addValue (function.mapIds ids) (expression.mapIds ids) type) :=
  addExpression_mapIds ids function expression type none

theorem entry_mapIds (node : Node) :
    MapsIds ids (ExpressionEntry.mapIds ids) (entry function node)
      (entry (function.mapIds ids) (node.mapIds ids)) := by
  apply Commutes.ite ids.injective.ne_iff (refuse_mapIds ids function _)
  apply Commutes.bind .get
  intro recorder
  have found : (recorder.mapIds ids).expressions[(node.mapIds ids).index]? =
      recorder.expressions[node.index]?.map (ExpressionEntry.mapIds ids) := Array.getElem?_map
  rw [found]
  cases recorder.expressions[node.index]? with
  | none => exact refuse_mapIds ids function _
  | some entry => exact .ite Iff.rfl (refuse_mapIds ids function _) (.pure entry)

theorem typeOf_mapIds (node : Node) :
    MapsIds ids id (typeOf function node) (typeOf (function.mapIds ids) (node.mapIds ids)) :=
  .bind (entry_mapIds ids function node) fun entry => .pure entry.type

theorem typesOf_mapIds (nodes : List Node) :
    MapsIds ids id (typesOf function nodes)
      (typesOf (function.mapIds ids) (nodes.map (Node.mapIds ids))) := by
  have types := Commutes.mapM (Node.mapIds ids) (fun node => typeOf_mapIds ids function node) nodes
  rw [List.map_id_fun] at types
  exact types

theorem value_mapIds (node : Node) :
    MapsIds ids (Node.mapIds ids) (Recording.value function node)
      (Recording.value (function.mapIds ids) (node.mapIds ids)) := by
  apply Commutes.bind (entry_mapIds ids function node)
  intro entry
  apply Commutes.ite Iff.rfl (.pure node)
  apply Commutes.ite Iff.rfl (refuse_mapIds ids function _)
  apply Commutes.ite Iff.rfl (refuse_mapIds ids function _)
  exact addValue_mapIds ids function (.load node) entry.type

theorem literal_mapIds (scalar : Scalar) :
    MapsIds ids (Node.mapIds ids) (literal function scalar)
      (literal (function.mapIds ids) scalar) :=
  .ite Iff.rfl (refuse_mapIds ids function _) (addValue_mapIds ids function (.literal scalar) _)

theorem register_mapIds (source : Register) :
    MapsIds ids (Node.mapIds ids) (register function source)
      (register (function.mapIds ids) source) := by
  apply Commutes.bind .get
  intro recorder
  rw [recorder.register?_mapIds]
  cases recorder.register? source with
  | none => exact refuse_mapIds ids function _
  | some node => exact .pure node

theorem operand_mapIds (source : Operand) :
    MapsIds ids (Node.mapIds ids) (operand function source)
      (operand (function.mapIds ids) source) := by
  cases source with
  | register source => exact register_mapIds ids function source
  | literal scalar => exact literal_mapIds ids function scalar

theorem operandValue_mapIds (source : Operand) :
    MapsIds ids (Node.mapIds ids) (operandValue function source)
      (operandValue (function.mapIds ids) source) :=
  .bind (operand_mapIds ids function source) (value_mapIds ids function)

theorem operands_mapIds (sources : List Operand) :
    MapsIds ids (List.map (Node.mapIds ids)) (operands function sources)
      (operands (function.mapIds ids) sources) := by
  have nodes := Commutes.mapM id
    (fun source => operand_mapIds ids function source) sources
  rw [List.map_id] at nodes
  exact nodes

theorem operand?_mapIds (source : Option Operand) :
    MapsIds ids (Option.map (Node.mapIds ids)) (operand? function source)
      (operand? (function.mapIds ids) source) := by
  cases source with
  | none => exact .pure none
  | some source => exact .bind (operand_mapIds ids function source) fun node => .pure (some node)

/-! ## Values -/

theorem internConstant_mapIds (context : TraceContext) (label : Option String)
    (type : TypeDescriptor) (value : HostValue) :
    (context.mapIds ids).internConstant label type value =
      mapOutcome (TraceContext.mapIds ids) id (context.internConstant label type value) := by
  unfold TraceContext.internConstant
  cases encodeNew value type with
  | error error => rfl
  | ok bytes =>
      have same : (context.mapIds ids).constantKeys = context.constantKeys := rfl
      dsimp only
      rw [same]
      rcases context.constantKeys.intern (type, bytes) with ⟨keys, number, _ | _⟩
      · rfl
      · cases decode bytes type 0 <;> rfl

theorem constant_mapIds (label : Option String) (type : TypeDescriptor) (value : HostValue) :
    MapsIds ids (Node.mapIds ids) (constant function label type value)
      (constant (function.mapIds ids) label type value) := by
  apply Commutes.ite Iff.rfl (refuse_mapIds ids function _)
  apply Commutes.ite Iff.rfl (refuse_mapIds ids function _)
  apply Commutes.bind .get
  intro recorder
  have interned := internConstant_mapIds ids recorder.session.context label type value
  change ((recorder.mapIds ids).session.context.internConstant label type value = _) at interned
  rw [interned]
  cases recorder.session.context.internConstant label type value with
  | error error context =>
      exact .bind (.set { recorder with session := { recorder.session with context := context } })
        fun _ => .throw error
  | ok number context =>
      exact .bind (.set { recorder with
        session := { recorder.session with context := context }
        constants := Recorder.addNew recorder.constants number })
        fun _ => addValue_mapIds ids function (.constant number) type

theorem zero_mapIds (type : TypeDescriptor) :
    MapsIds ids (Node.mapIds ids) (zero function type) (zero (function.mapIds ids) type) :=
  .ite Iff.rfl (refuse_mapIds ids function _) (addValue_mapIds ids function .zero type)

theorem convert_mapIds (source : Node) (type : TypeDescriptor) :
    MapsIds ids (Node.mapIds ids) (convert function source type)
      (convert (function.mapIds ids) (source.mapIds ids) type) := by
  apply Commutes.bind (value_mapIds ids function source)
  intro source
  apply Commutes.bind (typeOf_mapIds ids function source)
  intro sourceType
  apply Commutes.ite Iff.rfl (refuse_mapIds ids function _)
  exact .ite Iff.rfl (.pure source) (addValue_mapIds ids function (.convert source) type)

theorem construct_mapIds (type : TypeDescriptor) (arguments : List Node) :
    MapsIds ids (Node.mapIds ids) (construct function type arguments)
      (construct (function.mapIds ids) type (arguments.map (Node.mapIds ids))) := by
  apply Commutes.ite (by rw [List.isEmpty_map]) (zero_mapIds ids function type)
  apply Commutes.bind (Commutes.mapM (Node.mapIds ids) (value_mapIds ids function) arguments)
  intro values
  apply Commutes.bind (typesOf_mapIds ids function values)
  intro types
  have composed : MapsIds ids (Node.mapIds ids)
      (if constructs type types && type.isConstructible then
        addValue function (.compose values) type
      else refuse function (.construction type types))
      (if constructs type types && type.isConstructible then
        addValue (function.mapIds ids) (.compose (values.map (Node.mapIds ids))) type
      else refuse (function.mapIds ids) (.construction type types)) :=
    .ite Iff.rfl (addValue_mapIds ids function (.compose values) type)
      (refuse_mapIds ids function _)
  cases type with
  | scalar kind =>
      rcases values with _ | ⟨source, _ | _⟩
      · exact composed
      · exact convert_mapIds ids function source _
      · exact composed
  | _ => exact composed

/-! ## Variables, operators and parts -/

theorem declare_mapIds (name : Option String) (type : TypeDescriptor) (initial : Option Node) :
    MapsIds ids (Node.mapIds ids) (declare function name type initial)
      (declare (function.mapIds ids) name type (initial.map (Node.mapIds ids))) := by
  apply Commutes.ite Iff.rfl (refuse_mapIds ids function _)
  apply Commutes.bind .get
  intro recorder
  refine .bind (.set { recorder with locals := recorder.locals.push ⟨name, type⟩ }) fun _ => ?_
  apply Commutes.bind (addStatement_mapIds ids (.declare recorder.locals.size initial))
  intro _
  exact addExpression_mapIds ids function (.localVariable recorder.locals.size) type _

theorem declareWith_mapIds (name : Option String) (initial : Operand) :
    MapsIds ids (Node.mapIds ids) (declareWith function name initial)
      (declareWith (function.mapIds ids) name initial) := by
  apply Commutes.bind (operandValue_mapIds ids function initial)
  intro initial
  apply Commutes.bind (typeOf_mapIds ids function initial)
  intro type
  exact declare_mapIds ids function name type (some initial)

theorem load_mapIds (source : Node) :
    MapsIds ids (Node.mapIds ids) (load function source)
      (load (function.mapIds ids) (source.mapIds ids)) := by
  apply Commutes.bind (entry_mapIds ids function source)
  intro entry
  exact .ite Iff.rfl (refuse_mapIds ids function _) (value_mapIds ids function source)

theorem checkStore_mapIds (entry : ExpressionEntry) :
    MapsIds ids id (checkStore function entry)
      (checkStore (function.mapIds ids) (entry.mapIds ids)) := by
  rcases entry with ⟨expression, type, _ | reference, scope⟩
  · exact refuse_mapIds ids function _
  · apply Commutes.ite Iff.rfl (refuse_mapIds ids function _)
    exact .ite Iff.rfl (refuse_mapIds ids function _) (.pure ())

theorem store_mapIds (target : Node) (source : Operand) :
    MapsIds ids id (store function target source)
      (store (function.mapIds ids) (target.mapIds ids) source) := by
  apply Commutes.bind (entry_mapIds ids function target)
  intro entry
  apply Commutes.bind (checkStore_mapIds ids function entry)
  intro _
  apply Commutes.bind (operandValue_mapIds ids function source)
  intro stored
  apply Commutes.bind (typeOf_mapIds ids function stored)
  intro type
  exact .ite Iff.rfl (refuse_mapIds ids function _)
    (addStatement_mapIds ids (.store target stored))

theorem unary_mapIds (operator : UnaryOperator) (source : Operand) :
    MapsIds ids (Node.mapIds ids) (unary function operator source)
      (unary (function.mapIds ids) operator source) := by
  apply Commutes.bind (operandValue_mapIds ids function source)
  intro source
  apply Commutes.bind (typeOf_mapIds ids function source)
  intro type
  dsimp only [id]
  cases operator.resultType type with
  | none => exact refuse_mapIds ids function _
  | some result => exact addValue_mapIds ids function (.unary operator source) result

theorem binary_mapIds (operator : BinaryOperator) (left right : Operand) :
    MapsIds ids (Node.mapIds ids) (binary function operator left right)
      (binary (function.mapIds ids) operator left right) := by
  apply Commutes.bind (operandValue_mapIds ids function left)
  intro left
  apply Commutes.bind (operandValue_mapIds ids function right)
  intro right
  apply Commutes.bind (typeOf_mapIds ids function left)
  intro leftType
  apply Commutes.bind (typeOf_mapIds ids function right)
  intro rightType
  dsimp only [id]
  cases operator.resultType leftType rightType with
  | none => exact refuse_mapIds ids function _
  | some result => exact addValue_mapIds ids function (.binary operator left right) result

theorem swizzle_mapIds (base : Node) (pattern : String) :
    MapsIds ids (Node.mapIds ids) (swizzle function base pattern)
      (swizzle (function.mapIds ids) (base.mapIds ids) pattern) := by
  apply Commutes.bind (entry_mapIds ids function base)
  rintro ⟨expression, type, reference, scope⟩
  dsimp only [ExpressionEntry.mapIds]
  cases type with
  | vector kind width =>
      dsimp only
      cases swizzleComponents? pattern width.count with
      | none => exact refuse_mapIds ids function _
      | some components =>
          dsimp only
          cases VectorWidth.ofCount? components.length with
          | none => exact addExpression_mapIds ids function (.swizzle base components) _ reference
          | some result =>
              apply Commutes.bind (value_mapIds ids function base)
              intro source
              exact addValue_mapIds ids function (.swizzle source components) _
  | _ => exact refuse_mapIds ids function _

theorem member_mapIds (base : Node) (name : String) :
    MapsIds ids (Node.mapIds ids) (member function base name)
      (member (function.mapIds ids) (base.mapIds ids) name) := by
  apply Commutes.bind (entry_mapIds ids function base)
  rintro ⟨expression, type, reference, scope⟩
  dsimp only [ExpressionEntry.mapIds]
  split
  next => exact swizzle_mapIds ids function base name
  next =>
    cases type.members.find? name with
    | none => exact refuse_mapIds ids function _
    | some found =>
        exact addExpression_mapIds ids function (.member base found.1) found.2.type reference

theorem index_mapIds (base : Node) (position : Operand) :
    MapsIds ids (Node.mapIds ids) (index function base position)
      (index (function.mapIds ids) (base.mapIds ids) position) := by
  apply Commutes.bind (operandValue_mapIds ids function position)
  intro position
  apply Commutes.bind (entry_mapIds ids function position)
  intro positionEntry
  dsimp only [ExpressionEntry.mapIds]
  rw [literalIndex?_mapIds]
  apply Commutes.ite Iff.rfl (refuse_mapIds ids function _)
  apply Commutes.bind (entry_mapIds ids function base)
  rintro ⟨expression, type, reference, scope⟩
  dsimp only [ExpressionEntry.mapIds]
  cases indexing? type with
  | none => exact refuse_mapIds ids function _
  | some indexing =>
      dsimp only
      cases outside (literalIndex? positionEntry.expression) indexing.bound with
      | some position => exact refuse_mapIds ids function _
      | none =>
          exact .ite Iff.rfl (refuse_mapIds ids function _)
            (addExpression_mapIds ids function (.index base position) indexing.element reference)

/-! ## Calls -/

theorem arguments_mapIds (callee : ShaderFunction) (nodes : List Node)
    (parameters : List Parameter) :
    MapsIds ids (List.map (Node.mapIds ids)) (arguments function callee nodes parameters)
      (arguments (function.mapIds ids) (callee.mapIds ids) (nodes.map (Node.mapIds ids))
        parameters) := by
  induction nodes generalizing parameters with
  | nil => exact .pure []
  | cons node nodes induction =>
      cases parameters with
      | nil => exact .pure []
      | cons parameter parameters =>
          apply Commutes.bind (value_mapIds ids function node)
          intro argument
          apply Commutes.bind (typeOf_mapIds ids function argument)
          intro type
          apply Commutes.ite Iff.rfl (.throw _)
          apply Commutes.bind (induction parameters)
          intro rest
          exact .pure (argument :: rest)

theorem callee_mapIds (program : Program) (id : FunctionId) :
    MapsIds ids (ShaderFunction.mapIds ids) (callee function program id)
      (callee (function.mapIds ids) (program.mapIds ids) (ids id)) := by
  unfold callee
  rw [program.find?_mapIds]
  cases program.find? id with
  | none => exact refuse_mapIds ids function _
  | some callee => exact .pure callee

theorem standardArgument_mapIds (standard : StandardFunction) (node : Node) :
    MapsIds ids (Node.mapIds ids) (standardArgument function standard node)
      (standardArgument (function.mapIds ids) standard (node.mapIds ids)) := by
  apply Commutes.ite Iff.rfl _ (value_mapIds ids function node)
  apply Commutes.bind (entry_mapIds ids function node)
  intro entry
  exact .ite Iff.rfl (refuse_mapIds ids function _) (.pure node)

theorem standard_mapIds (called : StandardFunction) (nodes : List Node) :
    MapsIds ids (Node.mapIds ids) (standard function called nodes)
      (standard (function.mapIds ids) called (nodes.map (Node.mapIds ids))) := by
  apply Commutes.bind
    (Commutes.mapM (Node.mapIds ids) (standardArgument_mapIds ids function called) nodes)
  intro values
  apply Commutes.bind (typesOf_mapIds ids function values)
  intro types
  dsimp only [id]
  cases called.resultType types with
  | none => exact refuse_mapIds ids function _
  | some type => exact addValue_mapIds ids function (.standard called values) type

theorem closeTo_mapIds (left right precision : Operand) :
    MapsIds ids (Node.mapIds ids) (closeTo function left right precision)
      (closeTo (function.mapIds ids) left right precision) := by
  apply Commutes.bind (operandValue_mapIds ids function left)
  intro left
  apply Commutes.bind (operandValue_mapIds ids function right)
  intro right
  apply Commutes.bind (operandValue_mapIds ids function precision)
  intro precision
  apply Commutes.bind (typeOf_mapIds ids function left)
  intro type
  apply Commutes.bind (typeOf_mapIds ids function right)
  intro rightType
  apply Commutes.bind (typeOf_mapIds ids function precision)
  intro precisionType
  apply Commutes.ite Iff.rfl (refuse_mapIds ids function _)
  refine .bind (.modify fun _ => rfl) fun _ => ?_
  exact addValue_mapIds ids function (.helper (.isCloseTo type) [left, right, precision]) .bool

theorem bind_mapIds (entry : BindingEntry) :
    MapsIds ids (Node.mapIds ids) (Recording.bind function entry)
      (Recording.bind (function.mapIds ids) entry) := by
  refine .bind (.modify fun _ => rfl) fun _ => ?_
  exact addExpression_mapIds ids function (.binding entry.slot) entry.type _

/-! ## Control flow -/

theorem opened_mapIds (recorder : Recorder) (deeper : Nat) :
    (recorder.mapIds ids).opened deeper = (recorder.opened deeper).mapIds ids := by
  simp only [Recorder.opened, Recorder.mapIds, List.map_cons, mapBlockIds]

theorem closed_mapIds (recorder : Recorder) (deeper : Nat) :
    (recorder.mapIds ids).closed deeper = (recorder.closed deeper).mapIds ids := by
  simp only [Recorder.closed, Recorder.mapIds, List.map_tail]

theorem openBlock_mapIds (recorder : Recorder) :
    (recorder.mapIds ids).openBlock = mapBlockIds ids recorder.openBlock := by
  simp only [Recorder.openBlock, Recorder.mapIds, List.head?_map]
  cases recorder.blocks.head? <;> rfl

theorem inside_mapIds (deeper : Nat) {body other : Recording Unit}
    (same : MapsIds ids id body other) :
    MapsIds ids (mapBlockIds ids) (inside deeper body) (inside deeper other) := by
  intro recorder
  have first := same (recorder.opened deeper)
  unfold inside
  rw [opened_mapIds, first]
  cases body (recorder.opened deeper) with
  | ok result finish =>
      exact congrArg₂ EStateM.Result.ok (openBlock_mapIds ids finish)
        (closed_mapIds ids finish deeper)
  | error error finish =>
      exact congrArg (EStateM.Result.error error) (closed_mapIds ids finish deeper)

theorem condition_mapIds (source : Operand) :
    MapsIds ids (Node.mapIds ids) (condition function source)
      (condition (function.mapIds ids) source) := by
  apply Commutes.bind (operandValue_mapIds ids function source)
  intro source
  apply Commutes.bind (typeOf_mapIds ids function source)
  intro type
  exact .ite Iff.rfl (refuse_mapIds ids function _) (.pure source)

theorem branch_mapIds (test : Operand) {accept reject otherAccept otherReject : Recording Unit}
    (accepted : MapsIds ids id accept otherAccept)
    (rejected : MapsIds ids id reject otherReject) :
    MapsIds ids id (branch function test accept reject)
      (branch (function.mapIds ids) test otherAccept otherReject) := by
  apply Commutes.bind (condition_mapIds ids function test)
  intro test
  apply Commutes.bind (inside_mapIds ids 0 accepted)
  intro accept
  apply Commutes.bind (inside_mapIds ids 0 rejected)
  intro reject
  exact addStatement_mapIds ids (.branch test accept reject)

theorem loop_mapIds {body other : Recording Unit} (same : MapsIds ids id body other) :
    MapsIds ids id (loop body) (loop other) := by
  rw [loop, loop, looped_eq, looped_eq]
  apply Commutes.bind (inside_mapIds ids 1 same)
  intro body
  exact addStatement_mapIds ids (.loop body)

theorem counterValue_mapIds (counter : Nat) (type : TypeDescriptor) :
    MapsIds ids (Node.mapIds ids) (counterValue function counter type)
      (counterValue (function.mapIds ids) counter type) := by
  apply Commutes.bind (addExpression_mapIds ids function (.localVariable counter) type _)
  intro reference
  exact value_mapIds ids function reference

theorem range_mapIds (first last : Operand) {body other : Node → Recording Unit}
    (same : ∀ node, MapsIds ids id (body node) (other (node.mapIds ids))) :
    MapsIds ids id (range function first last body)
      (range (function.mapIds ids) first last other) := by
  apply Commutes.bind (operandValue_mapIds ids function first)
  intro first
  apply Commutes.bind (operandValue_mapIds ids function last)
  intro last
  apply Commutes.bind (typeOf_mapIds ids function first)
  intro type
  apply Commutes.bind (typeOf_mapIds ids function last)
  intro lastType
  apply Commutes.ite Iff.rfl (refuse_mapIds ids function _)
  apply Commutes.bind .get
  intro recorder
  refine .bind (.set { recorder with locals := recorder.locals.push ⟨none, type⟩ }) fun _ => ?_
  rw [looped_eq, looped_eq]
  have counted := counterValue_mapIds ids function recorder.locals.size type
  apply Commutes.bind (inside_mapIds ids 1 (.bind counted same))
  intro body
  exact addStatement_mapIds ids (.range recorder.locals.size first last body)

theorem leaveLoop_mapIds :
    MapsIds ids id (leaveLoop function) (leaveLoop (function.mapIds ids)) := by
  apply Commutes.bind .get
  intro recorder
  exact .ite Iff.rfl (refuse_mapIds ids function _) (addStatement_mapIds ids .leaveLoop)

theorem nextRound_mapIds :
    MapsIds ids id (nextRound function) (nextRound (function.mapIds ids)) := by
  apply Commutes.bind .get
  intro recorder
  exact .ite Iff.rfl (refuse_mapIds ids function _) (addStatement_mapIds ids .nextRound)

theorem giveBack_mapIds (result : Option Node) :
    MapsIds ids id (giveBack function result)
      (giveBack (function.mapIds ids) (result.map (Node.mapIds ids))) := by
  cases result with
  | none => exact .ite Iff.rfl (.throw _) (addStatement_mapIds ids (.giveBack none))
  | some node =>
      apply Commutes.bind (value_mapIds ids function node)
      intro node
      apply Commutes.bind (typeOf_mapIds ids function node)
      intro type
      exact .ite Iff.rfl (.throw _) (addStatement_mapIds ids (.giveBack (some node)))

theorem discardFragment_mapIds :
    MapsIds ids id (discardFragment function) (discardFragment (function.mapIds ids)) :=
  .ite Iff.rfl (refuse_mapIds ids function _) (addStatement_mapIds ids .discard)

theorem finish_mapIds (result : Option Node) :
    MapsIds ids (RecordedFunction.mapIds ids) (finish function result)
      (finish (function.mapIds ids) (result.map (Node.mapIds ids))) := by
  have ends : MapsIds ids (RecordedFunction.mapIds ids) (finish function none)
      (finish (function.mapIds ids) none) := by
    apply Commutes.bind .get
    intro recorder
    have body : (recorder.mapIds ids).blocks.head?.getD [] =
        mapBlockIds ids (recorder.blocks.head?.getD []) := openBlock_mapIds ids recorder
    dsimp only
    rw [body]
    apply Commutes.ite (by rw [blockReturns_mapIds]; rfl) (.throw _)
    exact .pure (recorder.recorded function)
  cases result with
  | none => exact ends
  | some node =>
      rw [Option.map_some, finish_some, finish_some]
      exact .bind (giveBack_mapIds ids function (some node)) fun _ => ends

/-! ## Work in the session -/

theorem inSession_mapIds {work : Tracing α} {other : Tracing β}
    (same : work.MapsIds ids value other) :
    MapsIds ids value (inSession work) (inSession other) := by
  intro recorder
  have first := same recorder.session
  change other (recorder.mapIds ids).session = _ at first
  unfold inSession
  rw [first]
  cases work recorder.session <;> rfl

theorem addNote_mapIds (note : Note) : MapsIds ids id (addNote note) (addNote note) :=
  inSession_mapIds ids (.modify fun _ => rfl)

theorem attempt_mapIds {body other : Recording Unit} (same : MapsIds ids id body other) :
    MapsIds ids id (attempt body) (attempt other) := by
  intro recorder
  unfold attempt
  rw [same recorder]
  cases body recorder with
  | ok result finish => exact addNote_mapIds ids _ finish
  | error error finish => exact addNote_mapIds ids _ finish

theorem noteType_mapIds (source : Register) :
    MapsIds ids id (noteType function source) (noteType (function.mapIds ids) source) := by
  apply Commutes.bind (register_mapIds ids function source)
  intro node
  apply Commutes.bind (typeOf_mapIds ids function node)
  intro type
  exact addNote_mapIds ids _

theorem publish_mapIds (name : String) (source : Register) :
    MapsIds ids id (publish function name source) (publish (function.mapIds ids) name source) := by
  apply Commutes.bind (register_mapIds ids function source)
  intro node
  exact inSession_mapIds ids (.modify fun _ => rfl)

theorem adopt_mapIds (name : String) (out : Register) {body other : Recording Unit}
    (same : MapsIds ids id body other) :
    MapsIds ids id (adopt name out body) (adopt name out other) := by
  apply Commutes.bind .get
  intro recorder
  have published : (recorder.mapIds ids).session.journal.published? name =
      (recorder.session.journal.published? name).map (Node.mapIds ids) :=
    recorder.session.journal.published?_mapIds name
  rw [published]
  cases recorder.session.journal.published? name with
  | none => exact .pure ()
  | some node => exact .bind (assign_mapIds ids out node) fun _ => same

section

variable {trace otherTrace : ShaderFunction → Tracing RecordedFunction}
  (traces : ∀ callee, (trace callee).MapsIds ids (RecordedFunction.mapIds ids)
    (otherTrace (callee.mapIds ids))) (callee : ShaderFunction) (nodes : List Node)

include traces

theorem prepareCall_mapIds :
    MapsIds ids (List.map (Node.mapIds ids)) (prepareCall function trace callee nodes)
      (prepareCall (function.mapIds ids) otherTrace (callee.mapIds ids)
        (nodes.map (Node.mapIds ids))) := by
  apply Commutes.ite Iff.rfl (refuse_mapIds ids function _)
  rw [List.length_map]
  apply Commutes.ite Iff.rfl (.throw _)
  apply Commutes.bind (arguments_mapIds ids function callee nodes callee.signature.parameters)
  intro values
  apply Commutes.bind (inSession_mapIds ids (traces callee)).discard
  intro _
  refine .bind (.modify fun recorder => ?_) fun _ => .pure values
  have noted := Recorder.addNew_map ids.injective recorder.callees callee.id
  exact congrArg (fun callees => { recorder.mapIds ids with callees := callees }) noted

theorem call_mapIds :
    MapsIds ids (Node.mapIds ids) (call function trace callee nodes)
      (call (function.mapIds ids) otherTrace (callee.mapIds ids)
        (nodes.map (Node.mapIds ids))) := by
  apply Commutes.bind (prepareCall_mapIds ids function traces callee nodes)
  intro values
  have kept : (callee.mapIds ids).signature.result = callee.signature.result := rfl
  rw [kept]
  cases callee.signature.result with
  | none => exact refuse_mapIds ids function _
  | some type => exact addValue_mapIds ids function (.call callee.id values) type

theorem callVoid_mapIds :
    MapsIds ids id (callVoid function trace callee nodes)
      (callVoid (function.mapIds ids) otherTrace (callee.mapIds ids)
        (nodes.map (Node.mapIds ids))) := by
  apply Commutes.bind (prepareCall_mapIds ids function traces callee nodes)
  intro values
  exact addStatement_mapIds ids (.callVoid callee.id values)

end

end Recording

end ShaderKit
