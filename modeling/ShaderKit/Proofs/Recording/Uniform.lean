import ShaderKit.Proofs.Recording.Alike

/-!
# Operations from recorders that are alike

No operation but the numbering of a constant looks at the numbers of constants, and none but a
call changes the context. So each of the others gives the same from recorders that are alike,
and whole actions that are made of them do so too.
-/

namespace ShaderKit

namespace Recording

open Recorder

variable {same : Nat → Nat → Prop} {first second : Recorder} (function : ShaderFunction)

/-! ## Statements, expressions and nodes -/

theorem addStatement_uniform (statement : Statement) (alike : first.Alike same second) :
    Uniform same (addStatement statement) first second :=
  .ok rfl (alike.addStatement statement) (congrArg Session.context (session_addStatement _ _))
    (congrArg Session.context (session_addStatement _ _))

theorem assign_uniform (register : Register) (node : Node) (alike : first.Alike same second) :
    Uniform same (assign register node) first second := by
  refine .ok rfl ⟨alike.entries, alike.numbers, ?_⟩ rfl rfl
  rw [alike.rest]

theorem addExpression_twins {expression other : Expression} (type : TypeDescriptor)
    (reference : Option Reference) (equal : expression.Alike same other)
    (alike : first.Alike same second) :
    Twins same Eq (addExpression function expression type reference)
      (addExpression function other type reference) first second := by
  rw [Twins, addExpression_eq, addExpression_eq, alike.size_expressions]
  exact .ok rfl (alike.withExpression equal function type reference)
    (congrArg Session.context (session_withExpression _ _ _ _ _))
    (congrArg Session.context (session_withExpression _ _ _ _ _))

theorem addExpression_uniform {expression : Expression} (type : TypeDescriptor)
    (reference : Option Reference) (plain : ∀ number, expression ≠ .constant number)
    (alike : first.Alike same second) :
    Uniform same (addExpression function expression type reference) first second :=
  addExpression_twins function type reference (.equal plain) alike

theorem addValue_uniform {expression : Expression} (type : TypeDescriptor)
    (plain : ∀ number, expression ≠ .constant number) (alike : first.Alike same second) :
    Uniform same (addValue function expression type) first second :=
  addExpression_uniform function type none plain alike

theorem exists_alike_entry (alike : first.Alike same second) (index : Nat) :
    (first.expressions[index]? = none ∧ second.expressions[index]? = none) ∨
      ∃ entry other, first.expressions[index]? = some entry ∧
        second.expressions[index]? = some other ∧ entry.Alike same other := by
  simp only [← Array.getElem?_toList]
  cases known : first.expressions.toList[index]? with
  | none =>
      refine .inl ⟨rfl, ?_⟩
      rw [List.getElem?_eq_none_iff] at known ⊢
      exact alike.entries.length_eq ▸ known
  | some entry =>
      have ⟨other, found, equal⟩ := getElem?_of_forall₂ alike.entries known
      exact .inr ⟨entry, other, rfl, found, equal⟩

theorem entry_twins (node : Node) (alike : first.Alike same second) :
    Twins same (ExpressionEntry.Alike same) (entry function node) (entry function node)
      first second := by
  have scopes : second.scopes = first.scopes := by rw [alike.rest]
  unfold entry
  split
  next => exact .error alike rfl rfl
  next =>
    apply Twins.get_bind
    rcases exists_alike_entry alike node.index with ⟨unknown, unknownToo⟩ |
      ⟨entry, other, known, knownToo, equal⟩
    · rw [unknown, unknownToo]
      exact .error alike rfl rfl
    · rw [known, knownToo, scopes]
      cases equal with
      | intro equal =>
          dsimp only
          split
          next => exact .error alike rfl rfl
          next => exact .ok (.intro equal) alike rfl rfl

theorem entry_bind {α : Type} {next : ExpressionEntry → Recording α} {node : Node}
    (blind : ∀ entry expression, next { entry with expression := expression } = next entry)
    (rest : ∀ entry finish final, finish.Alike same final →
      Uniform same (next entry) finish final) (alike : first.Alike same second) :
    Uniform same (entry function node >>= next) first second := by
  apply Twins.bind (entry_twins function node alike)
  intro entry other finish final equal later
  cases equal with
  | @intro expression equal =>
      rw [blind entry expression]
      exact rest entry finish final later

theorem typeOf_uniform (node : Node) (alike : first.Alike same second) :
    Uniform same (typeOf function node) first second := by
  apply entry_bind function (fun _ _ => rfl) _ alike
  intro entry _ _ later
  exact .pure entry.type later

theorem typesOf_uniform (nodes : List Node) (alike : first.Alike same second) :
    Uniform same (typesOf function nodes) first second :=
  .mapM (fun node _ _ => typeOf_uniform function node) alike

theorem value_uniform (node : Node) (alike : first.Alike same second) :
    Uniform same (value function node) first second := by
  apply entry_bind function (fun _ _ => rfl) _ alike
  intro entry _ _ later
  split
  next => exact .pure node later
  next =>
    split
    next => exact .refuse _ _ later
    next =>
      split
      next => exact .refuse _ _ later
      next => exact addValue_uniform function entry.type nofun later

theorem literal_uniform (scalar : Scalar) (alike : first.Alike same second) :
    Uniform same (literal function scalar) first second := by
  unfold literal
  split
  next => exact .refuse _ _ alike
  next => exact addValue_uniform function _ nofun alike

theorem register_uniform (source : Register) (alike : first.Alike same second) :
    Uniform same (register function source) first second := by
  have registers : second.register? source = first.register? source := by
    rw [alike.rest]
    rfl
  apply Twins.get_bind
  rw [registers]
  split
  next node _ => exact Uniform.pure node alike
  next => exact Uniform.refuse _ _ alike

theorem operand_uniform (source : Operand) (alike : first.Alike same second) :
    Uniform same (operand function source) first second := by
  cases source with
  | register source => exact register_uniform function source alike
  | literal scalar => exact literal_uniform function scalar alike

theorem operandValue_uniform (source : Operand) (alike : first.Alike same second) :
    Uniform same (operandValue function source) first second := by
  apply Uniform.bind (operand_uniform function source alike)
  intro node _ _ later
  exact value_uniform function node later

theorem operands_uniform (sources : List Operand) (alike : first.Alike same second) :
    Uniform same (operands function sources) first second :=
  .mapM (fun source _ _ => operand_uniform function source) alike

theorem operand?_uniform (source : Option Operand) (alike : first.Alike same second) :
    Uniform same (operand? function source) first second := by
  cases source with
  | none => exact .pure none alike
  | some source =>
      apply Uniform.bind (operand_uniform function source alike)
      intro node _ _ later
      exact .pure (some node) later

/-! ## Values -/

theorem zero_uniform (type : TypeDescriptor) (alike : first.Alike same second) :
    Uniform same (zero function type) first second := by
  unfold zero
  split
  next => exact .refuse _ _ alike
  next => exact addValue_uniform function type nofun alike

theorem convert_uniform (source : Node) (type : TypeDescriptor)
    (alike : first.Alike same second) : Uniform same (convert function source type) first second := by
  apply Uniform.bind (value_uniform function source alike)
  intro source _ _ later
  apply Uniform.bind (typeOf_uniform function source later)
  intro sourceType _ _ last
  split
  next => exact .refuse _ _ last
  next =>
    split
    next => exact .pure source last
    next => exact addValue_uniform function type nofun last

theorem construct_uniform (type : TypeDescriptor) (arguments : List Node)
    (alike : first.Alike same second) :
    Uniform same (construct function type arguments) first second := by
  unfold construct
  split
  next => exact zero_uniform function type alike
  next =>
    apply Uniform.bind (.mapM (fun node _ _ => value_uniform function node) alike)
    intro values _ _ later
    apply Uniform.bind (typesOf_uniform function values later)
    intro types _ _ last
    split
    next source => exact convert_uniform function source _ last
    next =>
      split
      next => exact addValue_uniform function type nofun last
      next => exact .refuse _ _ last

/-! ## Variables, operators and parts -/

theorem alike_withLocal (alike : first.Alike same second) (declared : LocalVariable) :
    (withLocal first declared).Alike same (withLocal second declared) := by
  refine ⟨alike.entries, alike.numbers, ?_⟩
  rw [withLocal, alike.rest]
  rfl

theorem declare_uniform (name : Option String) (type : TypeDescriptor) (initial : Option Node)
    (alike : first.Alike same second) :
    Uniform same (declare function name type initial) first second := by
  have count : second.locals.size = first.locals.size := by rw [alike.rest]
  unfold declare
  split
  next => exact .refuse _ _ alike
  next =>
    have declared : Uniform same (do
        addStatement (.declare first.locals.size initial)
        addExpression function (.localVariable first.locals.size) type
          (some ⟨.readWrite, .localVariable⟩))
        (withLocal first ⟨name, type⟩) (withLocal second ⟨name, type⟩) := by
      apply Uniform.bind (addStatement_uniform _ (alike_withLocal alike _))
      intro _ _ _ later
      exact addExpression_uniform function type _ nofun later
    apply Twins.get_bind
    rw [count]
    exact Ends.after declared rfl rfl

theorem declareWith_uniform (name : Option String) (initial : Operand)
    (alike : first.Alike same second) :
    Uniform same (declareWith function name initial) first second := by
  apply Uniform.bind (operandValue_uniform function initial alike)
  intro initial _ _ later
  apply Uniform.bind (typeOf_uniform function initial later)
  intro type _ _ last
  exact declare_uniform function name type (some initial) last

theorem load_uniform (source : Node) (alike : first.Alike same second) :
    Uniform same (load function source) first second := by
  apply entry_bind function (fun _ _ => rfl) _ alike
  intro entry _ _ later
  split
  next => exact .refuse _ _ later
  next => exact value_uniform function source later

theorem checkStore_uniform (entry : ExpressionEntry) (alike : first.Alike same second) :
    Uniform same (checkStore function entry) first second := by
  unfold checkStore
  split
  next => exact .refuse _ _ alike
  next =>
    split
    next => exact .refuse _ _ alike
    next =>
      split
      next => exact .refuse _ _ alike
      next => exact .pure () alike

theorem store_uniform (target : Node) (source : Operand) (alike : first.Alike same second) :
    Uniform same (store function target source) first second := by
  apply entry_bind function (fun _ _ => rfl) _ alike
  intro entry _ _ entered
  apply Uniform.bind (checkStore_uniform function entry entered)
  intro _ _ _ checked
  apply Uniform.bind (operandValue_uniform function source checked)
  intro stored _ _ later
  apply Uniform.bind (typeOf_uniform function stored later)
  intro type _ _ last
  split
  next => exact .refuse _ _ last
  next => exact addStatement_uniform _ last

theorem unary_uniform (operator : UnaryOperator) (source : Operand)
    (alike : first.Alike same second) :
    Uniform same (unary function operator source) first second := by
  apply Uniform.bind (operandValue_uniform function source alike)
  intro source _ _ later
  apply Uniform.bind (typeOf_uniform function source later)
  intro type _ _ last
  split
  next => exact .refuse _ _ last
  next result _ => exact addValue_uniform function result nofun last

theorem binary_uniform (operator : BinaryOperator) (left right : Operand)
    (alike : first.Alike same second) :
    Uniform same (binary function operator left right) first second := by
  apply Uniform.bind (operandValue_uniform function left alike)
  intro left _ _ leftAlike
  apply Uniform.bind (operandValue_uniform function right leftAlike)
  intro right _ _ rightAlike
  apply Uniform.bind (typeOf_uniform function left rightAlike)
  intro leftType _ _ later
  apply Uniform.bind (typeOf_uniform function right later)
  intro rightType _ _ last
  split
  next => exact .refuse _ _ last
  next result _ => exact addValue_uniform function result nofun last

theorem swizzle_uniform (base : Node) (pattern : String) (alike : first.Alike same second) :
    Uniform same (swizzle function base pattern) first second := by
  apply entry_bind function (fun _ _ => rfl) _ alike
  intro entry _ _ later
  split
  next =>
    split
    next => exact .refuse _ _ later
    next =>
      split
      next => exact addExpression_uniform function _ _ nofun later
      next =>
        apply Uniform.bind (value_uniform function base later)
        intro source _ _ last
        exact addValue_uniform function _ nofun last
  next => exact .refuse _ _ later

theorem member_uniform (base : Node) (name : String) (alike : first.Alike same second) :
    Uniform same (member function base name) first second := by
  apply entry_bind function (fun _ _ => rfl) _ alike
  intro entry _ _ later
  split
  next => exact swizzle_uniform function base name later
  next =>
    split
    next => exact .refuse _ _ later
    next => exact addExpression_uniform function _ _ nofun later

theorem index_uniform (base : Node) (position : Operand) (alike : first.Alike same second) :
    Uniform same (index function base position) first second := by
  apply Uniform.bind (operandValue_uniform function position alike)
  intro position _ _ positioned
  apply Twins.bind (entry_twins function position positioned)
  intro positionEntry _ _ _ equal entered
  cases equal with
  | intro equal =>
      dsimp only
      rw [equal.literalIndex?]
      split
      next => exact Uniform.refuse _ _ entered
      next =>
        apply entry_bind function (fun _ _ => rfl) _ entered
        intro entry _ _ later
        split
        next => exact .refuse _ _ later
        next =>
          split
          next => exact .refuse _ _ later
          next =>
            split
            next => exact .refuse _ _ later
            next => exact addExpression_uniform function _ _ nofun later

/-! ## Calls -/

theorem arguments_uniform (callee : ShaderFunction) (nodes : List Node)
    (parameters : List Parameter) (alike : first.Alike same second) :
    Uniform same (arguments function callee nodes parameters) first second := by
  induction nodes generalizing parameters first second with
  | nil => exact .pure [] alike
  | cons node nodes induction =>
      cases parameters with
      | nil => exact .pure [] alike
      | cons parameter parameters =>
          apply Uniform.bind (value_uniform function node alike)
          intro argument _ _ valued
          apply Uniform.bind (typeOf_uniform function argument valued)
          intro type _ _ later
          split
          next => exact .throw _ later
          next =>
            apply Uniform.bind (induction parameters later)
            intro rest _ _ last
            exact .pure (argument :: rest) last

theorem checkCall_uniform (callee : ShaderFunction) (nodes : List Node)
    (alike : first.Alike same second) :
    Uniform same (checkCall function callee nodes) first second := by
  unfold checkCall
  split
  next => exact .refuse _ _ alike
  next =>
    split
    next => exact .throw _ alike
    next => exact arguments_uniform function callee nodes _ alike

theorem callee_uniform (program : Program) (id : FunctionId) (alike : first.Alike same second) :
    Uniform same (callee function program id) first second := by
  unfold callee
  split
  next callee _ => exact .pure callee alike
  next => exact .refuse _ _ alike

theorem callResult_uniform (callee : ShaderFunction) (values : List Node)
    (alike : first.Alike same second) :
    Uniform same (callResult function callee values) first second := by
  unfold callResult
  split
  next => exact .refuse _ _ alike
  next type _ => exact addValue_uniform function type nofun alike

theorem standardArgument_uniform (standard : StandardFunction) (node : Node)
    (alike : first.Alike same second) :
    Uniform same (standardArgument function standard node) first second := by
  unfold standardArgument
  split
  next =>
    apply entry_bind function (fun _ _ => rfl) _ alike
    intro entry _ _ later
    split
    next => exact .refuse _ _ later
    next => exact .pure node later
  next => exact value_uniform function node alike

theorem standard_uniform (called : StandardFunction) (nodes : List Node)
    (alike : first.Alike same second) :
    Uniform same (standard function called nodes) first second := by
  apply Uniform.bind (.mapM (fun node _ _ => standardArgument_uniform function called node) alike)
  intro values _ _ later
  apply Uniform.bind (typesOf_uniform function values later)
  intro types _ _ last
  split
  next => exact .refuse _ _ last
  next type _ => exact addValue_uniform function type nofun last

theorem closeTo_uniform (left right precision : Operand) (alike : first.Alike same second) :
    Uniform same (closeTo function left right precision) first second := by
  apply Uniform.bind (operandValue_uniform function left alike)
  intro left _ _ leftAlike
  apply Uniform.bind (operandValue_uniform function right leftAlike)
  intro right _ _ rightAlike
  apply Uniform.bind (operandValue_uniform function precision rightAlike)
  intro precision _ _ precisionAlike
  apply Uniform.bind (typeOf_uniform function left precisionAlike)
  intro type _ _ leftTyped
  apply Uniform.bind (typeOf_uniform function right leftTyped)
  intro rightType _ _ rightTyped
  apply Uniform.bind (typeOf_uniform function precision rightTyped)
  intro precisionType finish final typed
  dsimp only
  split
  next => exact .refuse _ _ typed
  next =>
    have noted : (finish.withHelper (.isCloseTo type)).Alike same
        (final.withHelper (.isCloseTo type)) := by
      refine ⟨typed.entries, typed.numbers, ?_⟩
      rw [withHelper, typed.rest]
      rfl
    have added : Uniform same (addValue function
        (.helper (.isCloseTo type) [left, right, precision]) .bool) _ _ :=
      addValue_uniform function .bool nofun noted
    exact Ends.after added rfl rfl

theorem bind_uniform (entry : BindingEntry) (alike : first.Alike same second) :
    Uniform same (Recording.bind function entry) first second := by
  have noted : (first.withBinding entry).Alike same (second.withBinding entry) := by
    refine ⟨alike.entries, alike.numbers, ?_⟩
    rw [withBinding, alike.rest]
    rfl
  have added : Uniform same (addExpression function (.binding entry.slot) entry.type
      (some ⟨entry.access.referenceAccess, .binding⟩)) _ _ :=
    addExpression_uniform function entry.type _ nofun noted
  exact Ends.after added rfl rfl

/-! ## Control flow -/

theorem alike_opened (alike : first.Alike same second) (deeper : Nat) :
    (first.opened deeper).Alike same (second.opened deeper) := by
  refine ⟨alike.entries, alike.numbers, ?_⟩
  rw [opened, alike.rest]
  rfl

theorem alike_closed (alike : first.Alike same second) (deeper : Nat) :
    (first.closed deeper).Alike same (second.closed deeper) := by
  refine ⟨alike.entries, alike.numbers, ?_⟩
  rw [closed, alike.rest]
  rfl

theorem openBlock_of_alike (alike : first.Alike same second) :
    second.openBlock = first.openBlock := by
  rw [alike.rest]
  rfl

theorem condition_uniform (source : Operand) (alike : first.Alike same second) :
    Uniform same (condition function source) first second := by
  apply Uniform.bind (operandValue_uniform function source alike)
  intro source _ _ later
  apply Uniform.bind (typeOf_uniform function source later)
  intro type _ _ last
  split
  next => exact .refuse _ _ last
  next => exact .pure source last

theorem counterValue_uniform (counter : Nat) (type : TypeDescriptor)
    (alike : first.Alike same second) :
    Uniform same (counterValue function counter type) first second := by
  have plain : ∀ number, Expression.localVariable counter ≠ .constant number := nofun
  apply Uniform.bind (addExpression_uniform function type _ plain alike)
  intro reference _ _ later
  exact value_uniform function reference later

theorem rangeHead_uniform (start stop : Operand) (alike : first.Alike same second) :
    Uniform same (rangeHead function start stop) first second := by
  apply Uniform.bind (operandValue_uniform function start alike)
  intro start _ _ startAlike
  apply Uniform.bind (operandValue_uniform function stop startAlike)
  intro stop _ _ stopAlike
  apply Uniform.bind (typeOf_uniform function start stopAlike)
  intro type _ _ typed
  apply Uniform.bind (typeOf_uniform function stop typed)
  intro stopType finish final last
  split
  next => exact .refuse _ _ last
  next =>
    have count : final.locals.size = finish.locals.size := by rw [last.rest]
    have headed : Uniform same (Pure.pure (⟨start, stop, type, finish.locals.size⟩ : RangeHead))
        (withLocal finish ⟨none, type⟩) (withLocal final ⟨none, type⟩) :=
      .pure _ (alike_withLocal last _)
    apply Twins.get_bind
    rw [count]
    exact Ends.after headed rfl rfl

theorem leaveLoop_uniform (alike : first.Alike same second) :
    Uniform same (leaveLoop function) first second := by
  have depth : second.loopDepth = first.loopDepth := by rw [alike.rest]
  apply Twins.get_bind
  rw [depth]
  split
  next => exact Uniform.refuse _ _ alike
  next => exact addStatement_uniform _ alike

theorem nextRound_uniform (alike : first.Alike same second) :
    Uniform same (nextRound function) first second := by
  have depth : second.loopDepth = first.loopDepth := by rw [alike.rest]
  apply Twins.get_bind
  rw [depth]
  split
  next => exact Uniform.refuse _ _ alike
  next => exact addStatement_uniform _ alike

theorem giveBack_uniform (result : Option Node) (alike : first.Alike same second) :
    Uniform same (giveBack function result) first second := by
  unfold giveBack
  split
  next =>
    split
    next => exact .throw _ alike
    next => exact addStatement_uniform _ alike
  next node =>
    apply Uniform.bind (value_uniform function node alike)
    intro node _ _ later
    apply Uniform.bind (typeOf_uniform function node later)
    intro type _ _ last
    split
    next => exact .throw _ last
    next => exact addStatement_uniform _ last

theorem discardFragment_uniform (alike : first.Alike same second) :
    Uniform same (discardFragment function) first second := by
  unfold discardFragment
  split
  next => exact .refuse _ _ alike
  next => exact addStatement_uniform _ alike

/-! ## Scripts without calls and constants -/

theorem keep_twins {operation other : Recording Node} (out : Register)
    (ends : Twins same Eq operation other first second) :
    Twins same Eq (keep out operation) (keep out other) first second := by
  apply Twins.bind ends
  intro node _ _ _ equal later
  cases equal
  exact assign_uniform out node later

theorem named_uniform (type : NamedType) (alike : first.Alike same second) :
    Uniform same (named type) first second := by
  cases type with
  | ok type => exact .pure type alike
  | error error => exact .throw _ alike

theorem addNote_uniform (note : Note) (alike : first.Alike same second) :
    Uniform same (addNote note) first second := by
  refine .ok rfl ⟨alike.entries, alike.numbers, ?_⟩ rfl rfl
  rw [alike.rest]

theorem noteType_uniform (source : Register) (alike : first.Alike same second) :
    Uniform same (noteType function source) first second := by
  apply Uniform.bind (register_uniform function source alike)
  intro node _ _ later
  apply Uniform.bind (typeOf_uniform function node later)
  intro type _ _ last
  exact addNote_uniform _ last

theorem publish_uniform (name : String) (source : Register) (alike : first.Alike same second) :
    Uniform same (publish function name source) first second := by
  apply Uniform.bind (register_uniform function source alike)
  intro node _ _ later
  refine .ok rfl ⟨later.entries, later.numbers, ?_⟩ rfl rfl
  rw [later.rest]

theorem addParameters_uniform (index : Nat) (parameters : List Parameter)
    (alike : first.Alike same second) :
    Uniform same (Tracing.addParameters function index parameters) first second := by
  induction parameters generalizing index first second with
  | nil => exact .pure () alike
  | cons parameter rest induction =>
      have plain : ∀ number, Expression.parameter index ≠ .constant number := nofun
      apply Uniform.bind (addValue_uniform function parameter.type plain alike)
      intro node _ _ later
      apply Uniform.bind (assign_uniform _ node later)
      intro _ _ _ last
      exact induction (index + 1) last

theorem finish_twins (result : Option Node) (alike : first.Alike same second) :
    Twins same (RecordedFunction.Alike same) (finish function result) (finish function result)
      first second := by
  have ends {first second : Recorder} (alike : first.Alike same second) :
      Twins same (RecordedFunction.Alike same) (finish function none) (finish function none)
        first second := by
    have body : second.openBlock = first.openBlock := openBlock_of_alike alike
    apply Twins.get_bind
    change Twins same _ (if function.signature.result.isSome && !blockReturns first.openBlock
      then _ else pure (first.recorded function)) (if function.signature.result.isSome &&
      !blockReturns second.openBlock then _ else pure (second.recorded function)) first second
    rw [body]
    split
    next => exact .error alike rfl rfl
    next => exact .pure alike (alike.recorded function)
  cases result with
  | none => exact ends alike
  | some node =>
      rw [finish_some]
      apply Twins.bind (giveBack_uniform function (some node) alike)
      intro _ _ _ _ _ later
      exact ends later

theorem called_uniform (around : Surroundings) (id : FunctionId) (sources : List Operand)
    (alike : first.Alike same second) : Uniform same (called around id sources) first second := by
  apply Uniform.bind (callee_uniform around.function around.program id alike)
  intro callee _ _ found
  apply Uniform.bind (operands_uniform around.function sources found)
  intro nodes _ _ later
  apply Uniform.bind (checkCall_uniform around.function callee nodes later)
  intro values _ _ last
  exact .pure (callee, values) last

end Recording

open Recording

def Action.isQuiet : Action → Bool
  | .constant .. | .call .. | .callVoid .. | .branch .. | .loop _ | .range .. | .attempt _
  | .adopt .. => false
  | _ => true

/-- A quiet action gives the same from recorders that are alike. -/
theorem Action.perform_uniform {same : Nat → Nat → Prop} {first second : Recorder}
    {action : Action} (around : Surroundings) (quiet : action.isQuiet = true)
    (alike : first.Alike same second) : Uniform same (action.perform around) first second := by
  cases action with
  | literal out value => exact keep_twins out (literal_uniform _ value alike)
  | zero out type =>
      apply Uniform.bind (named_uniform type alike)
      intro type _ _ later
      exact keep_twins out (zero_uniform _ type later)
  | construct out type arguments =>
      apply Uniform.bind (named_uniform type alike)
      intro type _ _ later
      apply Uniform.bind (operands_uniform _ arguments later)
      intro nodes _ _ last
      exact keep_twins out (construct_uniform _ type nodes last)
  | convert out source type =>
      apply Uniform.bind (named_uniform type alike)
      intro type _ _ later
      apply Uniform.bind (operand_uniform _ source later)
      intro node _ _ last
      exact keep_twins out (convert_uniform _ node type last)
  | declare out name value => exact keep_twins out (declareWith_uniform _ name value alike)
  | declareZero out type =>
      apply Uniform.bind (named_uniform type alike)
      intro type _ _ later
      exact keep_twins out (declare_uniform _ none type none later)
  | load out source =>
      apply Uniform.bind (register_uniform _ source alike)
      intro node _ _ later
      exact keep_twins out (load_uniform _ node later)
  | store target value =>
      apply Uniform.bind (register_uniform _ target alike)
      intro node _ _ later
      exact store_uniform _ node value later
  | unary out operator source => exact keep_twins out (unary_uniform _ operator source alike)
  | binary out operator left right =>
      exact keep_twins out (binary_uniform _ operator left right alike)
  | member out base name =>
      apply Uniform.bind (register_uniform _ base alike)
      intro node _ _ later
      exact keep_twins out (member_uniform _ node name later)
  | index out base position =>
      apply Uniform.bind (register_uniform _ base alike)
      intro node _ _ later
      exact keep_twins out (index_uniform _ node position later)
  | swizzle out base pattern =>
      apply Uniform.bind (register_uniform _ base alike)
      intro node _ _ later
      exact keep_twins out (swizzle_uniform _ node pattern later)
  | standard out called arguments =>
      apply Uniform.bind (operands_uniform _ arguments alike)
      intro nodes _ _ later
      exact keep_twins out (standard_uniform _ called nodes later)
  | closeTo out left right precision =>
      exact keep_twins out (closeTo_uniform _ left right precision alike)
  | bind out entry => exact keep_twins out (bind_uniform _ entry alike)
  | leaveLoop => exact leaveLoop_uniform _ alike
  | nextRound => exact nextRound_uniform _ alike
  | giveBack value =>
      apply Uniform.bind (operand?_uniform _ value alike)
      intro node _ _ later
      exact giveBack_uniform _ node later
  | discard => exact discardFragment_uniform _ alike
  | noteType source => exact noteType_uniform _ source alike
  | publish name source => exact publish_uniform _ name source alike
  | constant | call | callVoid | branch | loop | range | attempt | adopt => cases quiet

end ShaderKit
