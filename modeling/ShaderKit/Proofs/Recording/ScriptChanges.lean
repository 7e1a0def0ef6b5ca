import ShaderKit.Proofs.Descriptor.Constructible
import ShaderKit.Proofs.Recording.Changes
import ShaderKit.Proofs.Recording.Scripts

/-!
# Scripts make no other changes

Every operation of a recorder, and so every script, is a sequence of the changes of
`Recorder.Becomes`, also when it fails on the way.
-/

namespace ShaderKit

namespace Recording

open Recorder

variable {around : Surroundings} {start : Recorder}

/-! ## Nodes and values -/

theorem addExpression_eq (function : ShaderFunction) (expression : Expression)
    (type : TypeDescriptor) (reference : Option Reference) (start : Recorder) :
    addExpression function expression type reference start =
      .ok ⟨function.id, start.expressions.size⟩
        (start.withExpression function expression type reference) := by
  cases inlined : expression.isInlined reference <;>
    simp only [addExpression, withExpression, inlined] <;> rfl

theorem addExpression_follows {expression : Expression} (type : TypeDescriptor)
    (reference : Option Reference) (covered : start.ledger.Covers expression)
    (admitted : start.Admits expression type reference) :
    Follows around (addExpression around.function expression type reference) start :=
  .of_ok (addExpression_eq _ _ _ _ _) (.expression type reference covered admitted)

theorem addValue_follows {expression : Expression} (type : TypeDescriptor)
    (covered : start.ledger.Covers expression) (admitted : start.Admits expression type none) :
    Follows around (addValue around.function expression type) start :=
  addExpression_follows type none covered admitted

theorem addStatement_follows {statement : Statement} (plain : statement.isPlain = true)
    (callsNothing : statement.calls = []) (permitted : start.Permits statement) :
    Follows around (addStatement statement) start := by
  have covered : ∀ callee ∈ statement.calls, callee ∈ start.callees := by
    rw [callsNothing]
    nofun
  exact .of_ok rfl (.statement plain covered permitted)

theorem assign_follows (register : Register) (node : Node) :
    Follows around (assign register node) start :=
  .of_ok rfl (.register start register node)

variable (around)

theorem entry_follows (node : Node) : Follows around (entry around.function node) start := by
  unfold entry
  split
  next => exact .refuse _ _
  next =>
    apply Follows.get_bind
    split
    next => exact .refuse _ _
    next entry _ =>
      split
      next => exact .refuse _ _
      next => exact .pure entry

theorem entry_ran_ok {function : ShaderFunction} {node : Node} {entry : ExpressionEntry}
    {finish : Recorder} (ran : Recording.entry function node start = .ok entry finish) :
    finish = start ∧ start.expressions[node.index]? = some entry := by
  unfold Recording.entry at ran
  split at ran
  next => cases ran
  next =>
    rcases bind_ran_ok.mp ran with ⟨_, _, ⟨⟩, ran⟩
    cases found : start.expressions[node.index]? with
    | none =>
        rw [found] at ran
        cases ran
    | some known =>
        rw [found] at ran
        dsimp only at ran
        split at ran
        next => cases ran
        next =>
          cases ran
          exact ⟨rfl, rfl⟩

theorem typeOf_follows (node : Node) : Follows around (typeOf around.function node) start := by
  apply Follows.bind (entry_follows around node)
  intro entry _ _
  exact .pure entry.type

theorem typeOf_ran_ok {function : ShaderFunction} {node : Node} {type : TypeDescriptor}
    {finish : Recorder} (ran : typeOf function node start = .ok type finish) :
    finish = start ∧ start.TypeAt node type := by
  rcases bind_ran_ok.mp ran with ⟨entry, middle, looked, ended⟩
  rcases entry_ran_ok looked with ⟨rfl, found⟩
  cases ended
  exact ⟨rfl, entry, found, rfl⟩

theorem typesOf_follows (nodes : List Node) :
    Follows around (typesOf around.function nodes) start :=
  .mapM fun node _ _ => typeOf_follows around node

theorem value_follows (node : Node) : Follows around (value around.function node) start := by
  apply Follows.bind (entry_follows around node)
  intro entry _ _
  split
  next => exact .pure node
  next =>
    split
    next => exact .refuse _ _
    next =>
      split
      next => exact .refuse _ _
      next constructible =>
        rw [Bool.not_eq_true, Bool.not_eq_false'] at constructible
        exact addValue_follows entry.type trivial constructible

theorem literal_follows (scalar : Scalar) :
    Follows around (literal around.function scalar) start := by
  unfold literal
  split
  next => exact .refuse _ _
  next => exact addValue_follows _ trivial rfl

theorem register_follows (source : Register) :
    Follows around (register around.function source) start := by
  apply Follows.get_bind
  split
  next node _ => exact .pure node
  next => exact .refuse _ _

theorem operand_follows (source : Operand) :
    Follows around (operand around.function source) start := by
  cases source with
  | register source => exact register_follows around source
  | literal scalar => exact literal_follows around scalar

theorem operandValue_follows (source : Operand) :
    Follows around (operandValue around.function source) start := by
  apply Follows.bind (operand_follows around source)
  intro node _ _
  exact value_follows around node

theorem constant_follows (label : Option String) (type : TypeDescriptor) (value : HostValue) :
    Follows around (constant around.function label type value) start := by
  unfold constant
  split
  next => exact .refuse _ _
  next constructible =>
    rw [Bool.not_eq_true, Bool.not_eq_false'] at constructible
    split
    next => exact .refuse _ _
    next =>
      apply Follows.get_bind
      split
      next error context failed =>
        rcases TraceContext.internConstant_error constructible failed with ⟨rfl, cause, rfl, _⟩
        apply Follows.set_bind (.refl start)
        exact .throw rfl
      next number context interned =>
        apply Follows.set_bind (.constant constructible interned)
        have ⟨bytes, _, numbers⟩ := TraceContext.numbers_of_internConstant interned
        exact addValue_follows type (mem_addNew.mpr (.inr rfl)) ⟨constructible, bytes, numbers.found⟩

theorem zero_follows (type : TypeDescriptor) :
    Follows around (zero around.function type) start := by
  unfold zero
  split
  next => exact .refuse _ _
  next constructible =>
    rw [Bool.not_eq_true, Bool.not_eq_false'] at constructible
    exact addValue_follows type trivial constructible

theorem convert_follows (source : Node) (type : TypeDescriptor) :
    Follows around (convert around.function source type) start := by
  apply Follows.bind (value_follows around source)
  intro source _ _
  apply Follows.bind (typeOf_follows around source)
  intro sourceType _ _
  split
  next => exact .refuse _ _
  next =>
    split
    next => exact .pure source
    next => exact addValue_follows type trivial trivial

theorem construct_follows (type : TypeDescriptor) (arguments : List Node) :
    Follows around (construct around.function type arguments) start := by
  unfold construct
  split
  next => exact zero_follows around type
  next =>
    apply Follows.bind (.mapM fun node _ _ => value_follows around node)
    intro values middle ran
    apply Follows.bind (typesOf_follows around values)
    intro types state typed
    split
    next source => exact convert_follows around source _
    next =>
      split
      next accepted =>
        exact addValue_follows type trivial (Bool.and_eq_true_iff.mp accepted).2
      next => exact .refuse _ _

/-! ## Variables, operators and parts -/

theorem declare_follows (name : Option String) (type : TypeDescriptor) (initial : Option Node) :
    Follows around (declare around.function name type initial) start := by
  unfold declare
  split
  next => exact .refuse _ _
  next =>
    apply Follows.get_bind
    have ran := addExpression_eq around.function (.localVariable start.locals.size) type
      (some ⟨.readWrite, .localVariable⟩)
      ((withLocal start ⟨name, type⟩).addStatement (.declare start.locals.size initial))
    exact .of_ok ran (.declared start ⟨name, type⟩ initial)

theorem declareWith_follows (name : Option String) (initial : Operand) :
    Follows around (declareWith around.function name initial) start := by
  apply Follows.bind (operandValue_follows around initial)
  intro initial _ _
  apply Follows.bind (typeOf_follows around initial)
  intro type _ _
  exact declare_follows around name type (some initial)

theorem load_follows (source : Node) : Follows around (load around.function source) start := by
  apply Follows.bind (entry_follows around source)
  intro entry _ _
  split
  next => exact .refuse _ _
  next => exact value_follows around source

theorem checkStore_follows (entry : ExpressionEntry) :
    Follows around (checkStore around.function entry) start := by
  unfold checkStore
  split
  next => exact .refuse _ _
  next =>
    split
    next => exact .refuse _ _
    next =>
      split
      next => exact .refuse _ _
      next => exact .pure ()

theorem checkStore_ran_ok {function : ShaderFunction} {entry : ExpressionEntry}
    {finish : Recorder} (ran : checkStore function entry start = .ok () finish) :
    finish = start ∧ ∃ reference, entry.reference = some reference ∧
      reference.access = .readWrite := by
  unfold checkStore at ran
  cases same : entry.reference with
  | none =>
      rw [same] at ran
      cases ran
  | some reference =>
      rw [same] at ran
      dsimp only at ran
      split at ran
      next => cases ran
      next writable =>
        split at ran
        next => cases ran
        next =>
          cases ran
          exact ⟨rfl, reference, rfl, Decidable.not_not.mp writable⟩

theorem store_follows (target : Node) (source : Operand) :
    Follows around (store around.function target source) start := by
  apply Follows.bind (entry_follows around target)
  intro entry middle found
  rcases entry_ran_ok found with ⟨rfl, found⟩
  apply Follows.bind (checkStore_follows around entry)
  intro _ middle checked
  rcases checkStore_ran_ok checked with ⟨rfl, reference, same, writable⟩
  have writable : middle.Writable target := ⟨entry, reference, found, same, writable⟩
  apply Follows.bind (operandValue_follows around source)
  intro stored recorder ran
  have becomes := (operandValue_follows around source).becomes_of_ok ran
  apply Follows.bind (typeOf_follows around stored)
  intro type state typed
  have typedBecomes := (typeOf_follows around stored).becomes_of_ok typed
  split
  next => exact .refuse _ _
  next =>
    have later := writable.later (becomes.trans typedBecomes).preserves
    exact addStatement_follows rfl rfl later

theorem unary_follows (operator : UnaryOperator) (source : Operand) :
    Follows around (unary around.function operator source) start := by
  apply Follows.bind (operandValue_follows around source)
  intro source _ _
  apply Follows.bind (typeOf_follows around source)
  intro type _ _
  split
  next => exact .refuse _ _
  next result _ => exact addValue_follows result trivial trivial

theorem binary_follows (operator : BinaryOperator) (left right : Operand) :
    Follows around (binary around.function operator left right) start := by
  apply Follows.bind (operandValue_follows around left)
  intro left _ _
  apply Follows.bind (operandValue_follows around right)
  intro right _ _
  apply Follows.bind (typeOf_follows around left)
  intro leftType _ _
  apply Follows.bind (typeOf_follows around right)
  intro rightType _ _
  split
  next => exact .refuse _ _
  next result _ => exact addValue_follows result trivial trivial

theorem swizzle_follows (base : Node) (pattern : String) :
    Follows around (swizzle around.function base pattern) start := by
  apply Follows.bind (entry_follows around base)
  intro entry _ _
  split
  next =>
    split
    next => exact .refuse _ _
    next =>
      split
      next => exact addExpression_follows _ _ trivial trivial
      next =>
        apply Follows.bind (value_follows around base)
        intro source _ _
        exact addValue_follows _ trivial trivial
  next => exact .refuse _ _

theorem member_follows (base : Node) (name : String) :
    Follows around (member around.function base name) start := by
  apply Follows.bind (entry_follows around base)
  intro entry _ _
  split
  next => exact swizzle_follows around base name
  next =>
    split
    next => exact .refuse _ _
    next => exact addExpression_follows _ _ trivial trivial

theorem index_follows (base : Node) (position : Operand) :
    Follows around (index around.function base position) start := by
  apply Follows.bind (operandValue_follows around position)
  intro position state _
  apply Follows.bind (entry_follows around position)
  intro positionEntry middle positionRan
  rcases entry_ran_ok positionRan with ⟨rfl, positionFound⟩
  dsimp only
  split
  next => exact .refuse _ _
  next =>
    apply Follows.bind (entry_follows around base)
    intro entry state baseRan
    rcases entry_ran_ok baseRan with ⟨rfl, baseFound⟩
    split
    next => exact .refuse _ _
    next indexing indexed =>
      split
      next => exact .refuse _ _
      next inside =>
        split
        next => exact .refuse _ _
        next dynamic =>
          have selects : state.Selects base position entry.reference := by
            refine ⟨entry, positionEntry, indexing, baseFound, positionFound, indexed, inside, ?_⟩
            intro isValue
            simpa [isValue, Decidable.or_iff_not_imp_left, Option.isSome_iff_ne_none] using dynamic
          exact addExpression_follows _ _ trivial selects

/-! ## Calls -/

theorem arguments_follows (callee : ShaderFunction) (nodes : List Node)
    (parameters : List Parameter) :
    Follows around (arguments around.function callee nodes parameters) start := by
  induction nodes generalizing parameters start with
  | nil => exact .pure []
  | cons node nodes induction =>
      cases parameters with
      | nil => exact .pure []
      | cons parameter parameters =>
          apply Follows.bind (value_follows around node)
          intro argument _ _
          apply Follows.bind (typeOf_follows around argument)
          intro type _ _
          split
          next => exact .throw rfl
          next =>
            apply Follows.bind (induction parameters)
            intro rest _ _
            exact .pure (argument :: rest)

def noteCallee (trace : ShaderFunction → Tracing RecordedFunction) (callee : ShaderFunction) :
    Recording Unit := do
  discard (inSession (trace callee))
  modify fun recorder =>
    { recorder with callees := Recorder.addNew recorder.callees callee.id }

variable {around}

theorem noteCallee_of_ok {trace : ShaderFunction → Tracing RecordedFunction}
    {callee : ShaderFunction} {recorded : RecordedFunction} {session : Session}
    (ran : trace callee start.session = .ok recorded session) :
    noteCallee trace callee start = .ok () (start.withCallee callee.id session) := by
  have traced : inSession (trace callee) start =
      .ok recorded { start with session := session } := by
    rw [inSession, ran]
  rw [noteCallee, bind_of_ok (discard_ran_ok.mpr ⟨recorded, traced⟩)]
  rfl

theorem noteCallee_of_error {trace : ShaderFunction → Tracing RecordedFunction}
    {callee : ShaderFunction} {error : ShaderError} {session : Session}
    (ran : trace callee start.session = .error error session) :
    noteCallee trace callee start = .error error (start.inSession session) := by
  have failed : inSession (trace callee) start =
      .error error (start.inSession session) := by
    rw [inSession, ran]
    rfl
  exact bind_of_error (discard_ran_error.mpr failed)

theorem noteCallee_follows {callee : ShaderFunction}
    (known : around.program.find? callee.id = some callee)
    (callable : callee.signature.stage = none) :
    Follows around (noteCallee around.trace callee) start := by
  cases ran : around.trace callee start.session with
  | ok recorded session => exact .of_ok (noteCallee_of_ok ran) (.traced known callable ran)
  | error error session =>
      have failed := noteCallee_of_error ran
      exact .of_error failed (.untraced known callable ran)
        (.of_error failed fun _ => ⟨callee, start.session, session, ran⟩)

theorem mem_callees_of_noteCallee {trace : ShaderFunction → Tracing RecordedFunction}
    {callee : ShaderFunction} {finish : Recorder}
    (ran : noteCallee trace callee start = .ok () finish) : callee.id ∈ finish.callees := by
  cases traced : trace callee start.session with
  | ok recorded session =>
      rw [noteCallee_of_ok traced] at ran
      cases ran
      exact mem_addNew.mpr (.inr rfl)
  | error error session =>
      rw [noteCallee_of_error traced] at ran
      cases ran

variable (around)

def checkCall (function callee : ShaderFunction) (nodes : List Node) : Recording (List Node) :=
  if callee.signature.stage.isSome then
    refuse function (.entryPointCall callee.signature.name)
  else if nodes.length ≠ callee.signature.parameters.length then
    throw (.graph (.argumentCount callee.signature.name
      callee.signature.parameters.length nodes.length))
  else arguments function callee nodes callee.signature.parameters

theorem checkCall_follows (callee : ShaderFunction) (nodes : List Node) :
    Follows around (checkCall around.function callee nodes) start := by
  unfold checkCall
  split
  next => exact .refuse _ _
  next =>
    split
    next => exact .throw rfl
    next => exact arguments_follows around callee nodes _

theorem stage_of_checkCall {function callee : ShaderFunction} {nodes values : List Node}
    {finish : Recorder} (ran : checkCall function callee nodes start = .ok values finish) :
    callee.signature.stage = none := by
  unfold checkCall at ran
  split at ran
  next => cases ran
  next plain => exact Option.not_isSome_iff_eq_none.mp plain

theorem prepareCall_eq (function : ShaderFunction)
    (trace : ShaderFunction → Tracing RecordedFunction) (callee : ShaderFunction)
    (nodes : List Node) : prepareCall function trace callee nodes = (do
      let values ← checkCall function callee nodes
      noteCallee trace callee
      return values) := by
  unfold prepareCall checkCall noteCallee
  dsimp only
  split
  next => rfl
  next =>
    split
    next => rfl
    next => simp only [bind_assoc]

theorem prepareCall_follows {callee : ShaderFunction}
    (known : around.program.find? callee.id = some callee) (nodes : List Node) :
    Follows around (prepareCall around.function around.trace callee nodes) start := by
  rw [prepareCall_eq]
  apply Follows.bind (checkCall_follows around callee nodes)
  intro values _ ran
  apply Follows.bind (noteCallee_follows known (stage_of_checkCall ran))
  intro _ _ _
  exact .pure values

theorem mem_callees_of_prepareCall {function : ShaderFunction}
    {trace : ShaderFunction → Tracing RecordedFunction} {callee : ShaderFunction}
    {nodes values : List Node} {finish : Recorder}
    (ran : prepareCall function trace callee nodes start = .ok values finish) :
    callee.id ∈ finish.callees := by
  rw [prepareCall_eq] at ran
  rcases bind_ran_ok.mp ran with ⟨_, _, _, ran⟩
  rcases bind_ran_ok.mp ran with ⟨_, middle, noted, ran⟩
  cases ran
  exact mem_callees_of_noteCallee noted

theorem call_follows {callee : ShaderFunction}
    (known : around.program.find? callee.id = some callee) (nodes : List Node) :
    Follows around (call around.function around.trace callee nodes) start := by
  apply Follows.bind (prepareCall_follows around known nodes)
  intro values middle ran
  split
  next => exact .refuse _ _
  next type _ => exact addValue_follows type (mem_callees_of_prepareCall ran) trivial

theorem callVoid_follows {callee : ShaderFunction}
    (known : around.program.find? callee.id = some callee) (nodes : List Node) :
    Follows around (callVoid around.function around.trace callee nodes) start := by
  apply Follows.bind (prepareCall_follows around known nodes)
  intro values middle ran
  have covered : ∀ called ∈ (Statement.callVoid callee.id values).calls,
      called ∈ middle.callees := by
    intro called member
    rw [Statement.calls, List.mem_singleton] at member
    rw [member]
    exact mem_callees_of_prepareCall ran
  exact .of_ok rfl (.statement rfl covered trivial)

theorem standardArgument_follows (standard : StandardFunction) (node : Node) :
    Follows around (standardArgument around.function standard node) start := by
  unfold standardArgument
  split
  next =>
    apply Follows.bind (entry_follows around node)
    intro entry _ _
    split
    next => exact .refuse _ _
    next => exact .pure node
  next => exact value_follows around node

theorem standard_follows (function : StandardFunction) (nodes : List Node) :
    Follows around (standard around.function function nodes) start := by
  apply Follows.bind (.mapM fun node _ _ => standardArgument_follows around function node)
  intro values _ _
  apply Follows.bind (typesOf_follows around values)
  intro types _ _
  split
  next => exact .refuse _ _
  next type accepted =>
    exact addValue_follows type trivial
      (StandardFunction.isConstructible_of_resultType accepted)

theorem closeTo_follows (left right precision : Operand) :
    Follows around (closeTo around.function left right precision) start := by
  apply Follows.bind (operandValue_follows around left)
  intro left _ _
  apply Follows.bind (operandValue_follows around right)
  intro right _ _
  apply Follows.bind (operandValue_follows around precision)
  intro precision _ _
  apply Follows.bind (typeOf_follows around left)
  intro type _ leftRan
  apply Follows.bind (typeOf_follows around right)
  intro rightType _ rightRan
  apply Follows.bind (typeOf_follows around precision)
  intro precisionType recorder precisionRan
  rcases typeOf_ran_ok leftRan with ⟨rfl, leftAt⟩
  rcases typeOf_ran_ok rightRan with ⟨rfl, rightAt⟩
  rcases typeOf_ran_ok precisionRan with ⟨rfl, precisionAt⟩
  dsimp only
  split
  next => exact .refuse _ _
  next accepted =>
    let helper := Helper.isCloseTo type
    have given : ∀ type ∈ helper.parameterTypes, ∃ node, recorder.TypeAt node type := by
      have same : helper.parameterTypes = [type, rightType, precisionType] := by
        rw [Bool.not_eq_true, Bool.or_eq_false_iff, decide_eq_false_iff_not] at accepted
        exact of_not_not accepted.2
      rw [same]
      simp only [List.forall_mem_cons]
      exact ⟨⟨left, leftAt⟩, ⟨right, rightAt⟩, ⟨precision, precisionAt⟩, List.forall_mem_nil _⟩
    have covered : (recorder.withHelper helper).ledger.Covers
        (.helper helper [left, right, precision]) := mem_addNew.mpr (.inr rfl)
    exact .changed (.helper given) rfl (addValue_follows .bool covered trivial)

theorem bind_follows (entry : BindingEntry) :
    Follows around (bind around.function entry) start := by
  have covered : (start.withBinding entry).ledger.Covers (.binding entry.slot) :=
    ⟨entry, mem_addNew.mpr (.inr rfl), rfl⟩
  have admitted : (start.withBinding entry).Admits (.binding entry.slot) entry.type
      (some ⟨entry.access.referenceAccess, .binding⟩) :=
    ⟨entry, mem_addNew.mpr (.inr rfl), rfl, rfl, rfl⟩
  exact .changed (.binding start entry) rfl (addExpression_follows entry.type _ covered admitted)

/-! ## Blocks -/

theorem inside_of_ok {deeper : Nat} {body : Recording Unit} {finish : Recorder}
    (ran : body (start.opened deeper) = .ok () finish) :
    inside deeper body start = .ok finish.openBlock (finish.closed deeper) := by
  rw [inside, ran]

theorem inside_of_error {deeper : Nat} {body : Recording Unit} {error : ShaderError}
    {finish : Recorder} (ran : body (start.opened deeper) = .error error finish) :
    inside deeper body start = .error error (finish.closed deeper) := by
  rw [inside, ran]

variable {around}

theorem inside_blames {deeper : Nat} {body : Recording Unit}
    (blames : Blames around body (start.opened deeper)) :
    Blames around (inside deeper body) start := by
  cases ran : body (start.opened deeper) with
  | ok result finish => exact .of_ok (inside_of_ok ran)
  | error error finish =>
      exact .of_error (inside_of_error ran) fun recursion => blames error finish ran recursion

theorem inside_bind_becomes {α : Type} {before : Recorder} {deeper : Nat}
    {body : Recording Unit} {next : Block → Recording α}
    (dropped : before.Becomes around ((finishOf body (start.opened deeper)).closed deeper))
    (rest : ∀ finish, body (start.opened deeper) = .ok () finish →
      before.Becomes around (finishOf (next finish.openBlock) (finish.closed deeper))) :
    before.Becomes around (finishOf (inside deeper body >>= next) start) := by
  cases ran : body (start.opened deeper) with
  | ok result finish =>
      have same : finishOf (inside deeper body >>= next) start =
          finishOf (next finish.openBlock) (finish.closed deeper) := by
        simp only [finishOf, Bind.bind, EStateM.bind, inside_of_ok ran]
      rw [same]
      exact rest finish ran
  | error error finish =>
      rw [finishOf_of_error ran] at dropped
      rw [finishOf_of_error (bind_of_error (inside_of_error ran))]
      exact dropped

theorem inside_bind_follows {α : Type} {deeper : Nat} {body : Recording Unit}
    {next : Block → Recording α} (follows : Follows around body (start.opened deeper))
    (rest : ∀ finish, (start.opened deeper).Becomes around finish →
      start.Becomes around (finishOf (next finish.openBlock) (finish.closed deeper)))
    (blames : ∀ block state, Blames around (next block) state) :
    Follows around (inside deeper body >>= next) start where
  becomes := inside_bind_becomes (.dropped deeper follows.becomes)
    fun finish ran => rest finish (follows.becomes_of_ok ran)
  blames := (inside_blames follows.blames).bind fun block state _ => blames block state

variable (around)

theorem condition_follows (source : Operand) :
    Follows around (condition around.function source) start := by
  apply Follows.bind (operandValue_follows around source)
  intro source _ _
  apply Follows.bind (typeOf_follows around source)
  intro type _ _
  split
  next => exact .refuse _ _
  next => exact .pure source

theorem branch_follows {accept reject : Recording Unit}
    (acceptFollows : ∀ state, Follows around accept state)
    (rejectFollows : ∀ state, Follows around reject state) (test : Operand) :
    Follows around (branch around.function test accept reject) start := by
  apply Follows.bind (condition_follows around test)
  intro test middle _
  rw [inBlock_eq, inBlock_eq]
  have rejectBlames (block : Block) (state : Recorder) : Blames around (do
      let reject ← inside 0 reject
      addStatement (.branch test block reject)) state :=
    (inside_blames (rejectFollows _).blames).bind fun _ _ _ => .of_ok rfl
  apply inside_bind_follows (acceptFollows _) _ rejectBlames
  intro accepted acceptBecomes
  cases ran : reject ((accepted.closed 0).opened 0) with
  | ok result rejected =>
      have rejectBecomes := (rejectFollows _).becomes_of_ok ran
      have same : finishOf (inside 0 reject >>= fun reject =>
          addStatement (.branch test accepted.openBlock reject)) (accepted.closed 0) =
            (rejected.closed 0).addStatement
              (.branch test accepted.openBlock rejected.openBlock) := by
        simp only [finishOf, Bind.bind, EStateM.bind, inside_of_ok ran]
        rfl
      rw [same]
      exact .branch test acceptBecomes rejectBecomes
  | error error rejected =>
      have rejectBecomes := (rejectFollows _).becomes_of_error ran
      have same : finishOf (inside 0 reject >>= fun reject =>
          addStatement (.branch test accepted.openBlock reject)) (accepted.closed 0) =
            rejected.closed 0 := by
        simp only [finishOf, Bind.bind, EStateM.bind, inside_of_error ran]
      rw [same]
      exact .trans (.dropped 0 acceptBecomes) (.dropped 0 rejectBecomes)

theorem loop_follows {body : Recording Unit} (follows : ∀ state, Follows around body state) :
    Follows around (loop body) start := by
  rw [loop, looped_eq]
  apply inside_bind_follows (follows _) _ fun _ _ => .of_ok rfl
  intro finish becomes
  exact .loop becomes

theorem counterValue_bind_eq (start : Recorder) (function : ShaderFunction)
    (type : TypeDescriptor) (body : Node → Recording α) :
    (counterValue function start.locals.size type >>= body)
        ((withLocal start ⟨none, type⟩).opened 1) =
      (value function ⟨function.id, start.expressions.size⟩ >>= body)
        (start.counting function type) := by
  rw [counterValue, bind_assoc, bind_of_ok (addExpression_eq _ _ _ _ _)]
  rfl

theorem counterValue_becomes {type : TypeDescriptor} {node : Node} {finish : Recorder}
    (ran : counterValue around.function start.locals.size type
      ((withLocal start ⟨none, type⟩).opened 1) = .ok node finish) :
    (start.counting around.function type).Becomes around finish := by
  have same := counterValue_bind_eq start around.function type pure
  rw [bind_pure, bind_pure] at same
  exact (value_follows around _).becomes_of_ok (same.symm.trans ran)

structure RangeHead where
  first : Node
  last : Node
  type : TypeDescriptor
  counter : Nat

def rangeHead (function : ShaderFunction) (first last : Operand) : Recording RangeHead := do
  let first ← operandValue function first
  let last ← operandValue function last
  let type ← typeOf function first
  let lastType ← typeOf function last
  if type ≠ lastType || !isIndexType type then refuse function (.range type lastType)
  else
    let recorder ← get
    set (withLocal recorder ⟨none, type⟩)
    return ⟨first, last, type, recorder.locals.size⟩

theorem range_eq (function : ShaderFunction) (first last : Operand)
    (body : Node → Recording Unit) : range function first last body = (do
      let head ← rangeHead function first last
      let block ← inside 1 (do
        let node ← counterValue function head.counter head.type
        body node)
      addStatement (.range head.counter head.first head.last block)) := by
  unfold range rangeHead
  simp only [bind_assoc, looped_eq]
  congr
  funext first
  congr
  funext last
  congr
  funext type
  congr
  funext lastType
  split <;> rfl

theorem rangeHead_follows (first last : Operand) :
    Follows around (rangeHead around.function first last) start := by
  apply Follows.bind (operandValue_follows around first)
  intro first _ _
  apply Follows.bind (operandValue_follows around last)
  intro last _ _
  apply Follows.bind (typeOf_follows around first)
  intro type _ _
  apply Follows.bind (typeOf_follows around last)
  intro lastType state _
  split
  next => exact .refuse _ _
  next =>
    apply Follows.get_bind
    apply Follows.set_bind (.localVariable state ⟨none, type⟩)
    exact .pure _

theorem rangeHead_ran_ok {first last : Operand} {head : RangeHead} {middle : Recorder}
    (ran : rangeHead around.function first last start = .ok head middle) :
    ∃ state, start.Becomes around state ∧ middle = withLocal state ⟨none, head.type⟩ ∧
      head.counter = state.locals.size := by
  rcases bind_ran_ok.mp ran with ⟨first, second, firstRan, ran⟩
  rcases bind_ran_ok.mp ran with ⟨last, third, lastRan, ran⟩
  rcases bind_ran_ok.mp ran with ⟨type, fourth, typed, ran⟩
  rcases bind_ran_ok.mp ran with ⟨lastType, state, lastTyped, ran⟩
  have becomes : start.Becomes around state :=
    .trans ((operandValue_follows around _).becomes_of_ok firstRan)
      (.trans ((operandValue_follows around _).becomes_of_ok lastRan)
        (.trans ((typeOf_follows around _).becomes_of_ok typed)
          ((typeOf_follows around _).becomes_of_ok lastTyped)))
  split at ran
  next => cases ran
  next =>
    cases ran
    exact ⟨state, becomes, rfl, rfl⟩

theorem range_follows {body : Node → Recording Unit}
    (follows : ∀ node state, Follows around (body node) state) (first last : Operand) :
    Follows around (range around.function first last body) start := by
  rw [range_eq]
  apply (rangeHead_follows around first last).bind_from
  intro head middle ran
  rcases rangeHead_ran_ok around ran with ⟨state, becomes, rfl, counter⟩
  rw [counter]
  have inner : Follows around
      (value around.function ⟨around.function.id, state.expressions.size⟩ >>= body)
      (state.counting around.function head.type) := by
    apply Follows.bind (value_follows around _)
    intro node middle _
    exact follows node middle
  have same := counterValue_bind_eq state around.function head.type body
  constructor
  · apply Becomes.trans becomes
    apply inside_bind_becomes
    · rw [finishOf, same]
      exact .droppedRange inner.becomes
    · intro finish ran
      exact .range _ _ (inner.becomes_of_ok (same.symm.trans ran))
  · have blames : Blames around _ ((withLocal state ⟨none, head.type⟩).opened 1) :=
      fun error finish failure => inner.blames error finish (same.symm.trans failure)
    exact (inside_blames blames).bind fun _ _ _ => .of_ok rfl

/-! ## Leaving -/

theorem leaveLoop_follows : Follows around (leaveLoop around.function) start := by
  apply Follows.get_bind
  split
  next => exact .refuse _ _
  next => exact addStatement_follows rfl rfl trivial

theorem nextRound_follows : Follows around (nextRound around.function) start := by
  apply Follows.get_bind
  split
  next => exact .refuse _ _
  next => exact addStatement_follows rfl rfl trivial

theorem giveBack_follows (result : Option Node) :
    Follows around (giveBack around.function result) start := by
  unfold giveBack
  split
  next =>
    split
    next => exact .throw rfl
    next => exact addStatement_follows rfl rfl trivial
  next node =>
    apply Follows.bind (value_follows around node)
    intro node _ _
    apply Follows.bind (typeOf_follows around node)
    intro type _ _
    split
    next => exact .throw rfl
    next => exact addStatement_follows rfl rfl trivial

theorem discardFragment_follows : Follows around (discardFragment around.function) start := by
  unfold discardFragment
  split
  next => exact .refuse _ _
  next => exact addStatement_follows rfl rfl trivial

theorem finish_follows (result : Option Node) :
    Follows around (finish around.function result) start := by
  have ends (state : Recorder) : Follows around (finish around.function none) state := by
    apply Follows.get_bind
    dsimp only
    split
    next => exact .throw rfl
    next => exact .pure _
  cases result with
  | none => exact ends start
  | some node =>
      rw [finish_some]
      apply Follows.bind (giveBack_follows around (some node))
      intro _ state _
      exact ends state

/-- A recording that has ended holds what the recorder holds. -/
theorem finish_recorded {function : ShaderFunction} {result : Option Node}
    {recorded : RecordedFunction} {final : Recorder}
    (ran : finish function result start = .ok recorded final) :
    recorded = final.recorded function := by
  have ends {state : Recorder} (ran : finish function none state = .ok recorded final) :
      recorded = final.recorded function := by
    unfold finish at ran
    change (if _ then _ else _ : Recording RecordedFunction) state = _ at ran
    split at ran
    next => cases ran
    next =>
      cases ran
      rfl
  cases result with
  | none => exact ends ran
  | some node =>
      rw [finish_some] at ran
      rcases bind_ran_ok.mp ran with ⟨_, state, _, ran⟩
      exact ends ran

/-! ## Scripts -/

variable {around}

theorem keep_follows {operation : Recording Node} (follows : Follows around operation start)
    (out : Register) : Follows around (keep out operation) start := by
  apply Follows.bind follows
  intro node _ _
  exact assign_follows out node

variable (around)

theorem named_follows (type : NamedType) : Follows around (named type) start := by
  cases type with
  | ok type => exact .pure type
  | error error => exact .throw rfl

theorem operands_follows (sources : List Operand) :
    Follows around (operands around.function sources) start :=
  .mapM fun source _ _ => operand_follows around source

theorem operand?_follows (source : Option Operand) :
    Follows around (operand? around.function source) start := by
  cases source with
  | none => exact .pure none
  | some source =>
      apply Follows.bind (operand_follows around source)
      intro node _ _
      exact .pure (some node)

theorem callee_follows (id : FunctionId) :
    Follows around (callee around.function around.program id) start := by
  unfold callee
  split
  next callee _ => exact .pure callee
  next => exact .refuse _ _

theorem find?_of_callee {function : ShaderFunction} {program : Program} {id : FunctionId}
    {found : ShaderFunction} {finish : Recorder}
    (ran : callee function program id start = .ok found finish) :
    program.find? found.id = some found := by
  cases known : program.find? id with
  | none =>
      rw [callee, known] at ran
      cases ran
  | some callee =>
      rw [Recording.callee, known] at ran
      cases ran
      exact Program.find?_id known ▸ known

theorem addNote_follows (note : Note) : Follows around (addNote note) start :=
  .of_ok rfl (.journal start _)

theorem attempt_follows {work : Recording Unit} (follows : Follows around work start) :
    Follows around (attempt work) start := by
  cases ran : work start with
  | ok result middle =>
      have same : attempt work start = addNote (.attempted none) middle := by
        rw [attempt, ran]
      exact .changed (follows.becomes_of_ok ran) same (addNote_follows around _)
  | error error middle =>
      have same : attempt work start = addNote (.attempted (some error)) middle := by
        rw [attempt, ran]
      exact .changed (follows.becomes_of_error ran) same (addNote_follows around _)

theorem noteType_follows (source : Register) :
    Follows around (noteType around.function source) start := by
  apply Follows.bind (register_follows around source)
  intro node _ _
  apply Follows.bind (typeOf_follows around node)
  intro type _ _
  exact addNote_follows around _

theorem publish_follows (name : String) (source : Register) :
    Follows around (publish around.function name source) start := by
  apply Follows.bind (register_follows around source)
  intro node state _
  exact .of_ok rfl (.journal state _)

theorem adopt_follows {body : Recording Unit} (follows : ∀ state, Follows around body state)
    (name : String) (out : Register) : Follows around (adopt name out body) start := by
  apply Follows.get_bind
  split
  next => exact .pure ()
  next node _ =>
    apply Follows.bind (assign_follows out node)
    intro _ state _
    exact follows state

end Recording

open Recording

mutual
theorem Action.perform_follows (around : Surroundings) : ∀ (action : Action) (start : Recorder),
    Follows around (action.perform around) start := by
  intro action start
  cases action with
  | literal out value => exact keep_follows (literal_follows around value) out
  | constant out label type value =>
      apply Follows.bind (named_follows around type)
      intro type _ _
      exact keep_follows (constant_follows around label type value) out
  | zero out type =>
      apply Follows.bind (named_follows around type)
      intro type _ _
      exact keep_follows (zero_follows around type) out
  | construct out type arguments =>
      apply Follows.bind (named_follows around type)
      intro type _ _
      apply Follows.bind (operands_follows around arguments)
      intro nodes _ _
      exact keep_follows (construct_follows around type nodes) out
  | convert out source type =>
      apply Follows.bind (named_follows around type)
      intro type _ _
      apply Follows.bind (operand_follows around source)
      intro node _ _
      exact keep_follows (convert_follows around node type) out
  | declare out name value => exact keep_follows (declareWith_follows around name value) out
  | declareZero out type =>
      apply Follows.bind (named_follows around type)
      intro type _ _
      exact keep_follows (declare_follows around none type none) out
  | load out source =>
      apply Follows.bind (register_follows around source)
      intro node _ _
      exact keep_follows (load_follows around node) out
  | store target value =>
      apply Follows.bind (register_follows around target)
      intro node _ _
      exact store_follows around node value
  | unary out operator source => exact keep_follows (unary_follows around operator source) out
  | binary out operator left right =>
      exact keep_follows (binary_follows around operator left right) out
  | member out base name =>
      apply Follows.bind (register_follows around base)
      intro node _ _
      exact keep_follows (member_follows around node name) out
  | index out base position =>
      apply Follows.bind (register_follows around base)
      intro node _ _
      exact keep_follows (index_follows around node position) out
  | swizzle out base pattern =>
      apply Follows.bind (register_follows around base)
      intro node _ _
      exact keep_follows (swizzle_follows around node pattern) out
  | call out id arguments =>
      apply Follows.bind (callee_follows around id)
      intro callee _ found
      apply Follows.bind (operands_follows around arguments)
      intro nodes _ _
      exact keep_follows (call_follows around (find?_of_callee found) nodes) out
  | callVoid id arguments =>
      apply Follows.bind (callee_follows around id)
      intro callee _ found
      apply Follows.bind (operands_follows around arguments)
      intro nodes _ _
      exact callVoid_follows around (find?_of_callee found) nodes
  | standard out function arguments =>
      apply Follows.bind (operands_follows around arguments)
      intro nodes _ _
      exact keep_follows (standard_follows around function nodes) out
  | closeTo out left right precision =>
      exact keep_follows (closeTo_follows around left right precision) out
  | bind out entry => exact keep_follows (bind_follows around entry) out
  | branch condition accept reject =>
      exact branch_follows around (accept.perform_follows around)
        (reject.perform_follows around) condition
  | loop body => exact loop_follows around (body.perform_follows around)
  | range counter first last body =>
      apply range_follows around _ first last
      intro node start
      apply Follows.bind (assign_follows counter node)
      intro _ state _
      exact body.perform_follows around state
  | leaveLoop => exact leaveLoop_follows around
  | nextRound => exact nextRound_follows around
  | giveBack value =>
      apply Follows.bind (operand?_follows around value)
      intro node _ _
      exact giveBack_follows around node
  | discard => exact discardFragment_follows around
  | attempt body => exact attempt_follows around (body.perform_follows around start)
  | noteType source => exact noteType_follows around source
  | publish name source => exact publish_follows around name source
  | adopt name out body => exact adopt_follows around (body.perform_follows around) name out

theorem Script.perform_follows (around : Surroundings) : ∀ (script : Script) (start : Recorder),
    Follows around (script.perform around) start := by
  intro script start
  cases script with
  | done => exact .pure ()
  | step action rest =>
      apply Follows.bind (action.perform_follows around start)
      intro _ state _
      exact rest.perform_follows around state
end

end ShaderKit
