import Mathlib
import ShaderKit.Proofs.Host.Operations
import ShaderKit.Proofs.Recording.Proceeding

/-!
# Recorded expressions have a spelling

Two kinds of expressions have a spelling only because the recorder refuses others: literals are
finite, and the length of an array is asked of references. Every operation of a recorder keeps
that, also when it fails; most of them add expressions of other kinds only.
-/

namespace ShaderKit

open Std.Do

set_option mvcgen.warning false

/-- A literal is finite, and the length of an array is asked of references among the entries. -/
def Expression.Spellable (entries : Array ExpressionEntry) : Expression → Prop
  | .literal value => value.isFinite = true
  | .standard function arguments => function = .arrayLength → ∀ argument ∈ arguments,
      ∃ entry, entries[argument.index]? = some entry ∧ entry.reference.isSome = true
  | _ => True

def Expression.spellsAlways : Expression → Bool
  | .literal value => value.isFinite
  | .standard function _ => function != .arrayLength
  | _ => true

def Recorder.Spellable (recorder : Recorder) : Prop :=
  ∀ entry ∈ recorder.expressions, entry.expression.Spellable recorder.expressions

theorem Expression.Spellable.push {entries : Array ExpressionEntry} {expression : Expression}
    (spellable : expression.Spellable entries) (last : ExpressionEntry) :
    expression.Spellable (entries.push last) := by
  cases expression with
  | standard function arguments =>
      intro length argument member
      rcases spellable length argument member with ⟨entry, found, reference⟩
      have below := (Array.getElem?_eq_some_iff.mp found).1
      refine ⟨entry, ?_, reference⟩
      rw [Array.getElem?_push, if_neg (Nat.ne_of_lt below)]
      exact found
  | _ => exact spellable

theorem Expression.spellable_of_spellsAlways {expression : Expression}
    (always : expression.spellsAlways = true) (entries : Array ExpressionEntry) :
    expression.Spellable entries := by
  cases expression with
  | literal value => exact always
  | standard function arguments =>
      rintro rfl
      cases always
  | _ => trivial

theorem Recorder.Spellable.withExpression {recorder : Recorder} {expression : Expression}
    (all : recorder.Spellable) (function : ShaderFunction) (type : TypeDescriptor)
    (reference : Option Reference) (spellable : expression.Spellable recorder.expressions) :
    (recorder.withExpression function expression type reference).Spellable := by
  intro entry member
  rw [expressions_withExpression] at member ⊢
  rcases Array.mem_push.mp member with old | rfl
  · exact (all entry old).push _
  · exact spellable.push _

namespace Recording

abbrev KeepsSpellable {α : Type} (work : Recording α) : Prop :=
  ⦃fun recorder => ⌜recorder.Spellable⌝⦄ work
  ⦃post⟨fun _ recorder => ⌜recorder.Spellable⌝, fun _ recorder => ⌜recorder.Spellable⌝⟩⦄

variable {α β : Type}

theorem keepsSpellable_iff {work : Recording α} :
    KeepsSpellable work ↔
      ∀ start : Recorder, start.Spellable → (finishOf work start).Spellable := by
  constructor
  · intro keeps start spellable
    have ended := keeps start spellable
    unfold finishOf
    cases ran : work start with
    | ok | error =>
        simp only [WP.wp, PredTrans.apply, EStateM.run, ran] at ended
        exact ended
  · intro keeps start spellable
    have ended := keeps start spellable
    unfold finishOf at ended
    cases ran : work start with
    | ok | error =>
        rw [ran] at ended
        simp only [WP.wp, PredTrans.apply, EStateM.run, ran]
        exact ended

theorem keepsSpellable_of_same {work : Recording α}
    (same : ∀ start, (finishOf work start).expressions = start.expressions) :
    KeepsSpellable work := by
  refine keepsSpellable_iff.mpr fun start all => ?_
  unfold Recorder.Spellable
  rw [same]
  exact all

@[spec]
theorem mapM_keepsSpellable {work : α → Recording β} {items : List α}
    (each : ∀ item, KeepsSpellable (work item)) : KeepsSpellable (items.mapM work) := by
  induction items with
  | nil => mvcgen [List.mapM_nil]
  | cons item rest induction =>
      rw [List.mapM_cons]
      mvcgen [each, induction]

/-! ## Expressions and statements -/

variable (function : ShaderFunction)

@[spec]
theorem addExpression_keepsSpellable {expression : Expression} (type : TypeDescriptor)
    (reference : Option Reference) (always : expression.spellsAlways = true) :
    KeepsSpellable (addExpression function expression type reference) := by
  refine keepsSpellable_iff.mpr fun start all => ?_
  rw [finishOf_of_ok (addExpression_eq function expression type reference start)]
  exact all.withExpression function type reference (Expression.spellable_of_spellsAlways always _)

@[spec]
theorem addValue_keepsSpellable {expression : Expression} (type : TypeDescriptor)
    (always : expression.spellsAlways = true) :
    KeepsSpellable (addValue function expression type) :=
  addExpression_keepsSpellable function type none always

@[spec]
theorem addStatement_keepsSpellable (statement : Statement) :
    KeepsSpellable (addStatement statement) :=
  keepsSpellable_of_same fun start => Recorder.expressions_addStatement start statement

@[spec]
theorem assign_keepsSpellable (register : Register) (node : Node) :
    KeepsSpellable (assign register node) := by
  mvcgen [assign]

@[spec]
theorem refuse_keepsSpellable (fault : RecordingFault) :
    KeepsSpellable (refuse function fault : Recording α) := by
  mvcgen [refuse]

@[spec]
theorem entry_keepsSpellable (node : Node) : KeepsSpellable (entry function node) := by
  mvcgen [entry]

@[spec]
theorem typeOf_keepsSpellable (node : Node) : KeepsSpellable (typeOf function node) := by
  mvcgen [typeOf]

@[spec]
theorem typesOf_keepsSpellable (nodes : List Node) : KeepsSpellable (typesOf function nodes) := by
  mvcgen [typesOf]

@[spec]
theorem value_keepsSpellable (node : Node) : KeepsSpellable (value function node) := by
  mvcgen [value]
  exact fun _ _ => rfl

@[spec]
theorem literal_keepsSpellable (scalar : Scalar) : KeepsSpellable (literal function scalar) := by
  mvcgen [literal]
  rename_i finite
  rw [Bool.not_eq_true', Bool.not_eq_false] at finite
  exact fun _ _ => finite

@[spec]
theorem register_keepsSpellable (source : Register) :
    KeepsSpellable (register function source) := by
  mvcgen [register]

@[spec]
theorem operand_keepsSpellable (source : Operand) : KeepsSpellable (operand function source) := by
  cases source with
  | register source => exact register_keepsSpellable function source
  | literal scalar => exact literal_keepsSpellable function scalar

@[spec]
theorem operandValue_keepsSpellable (source : Operand) :
    KeepsSpellable (operandValue function source) := by
  mvcgen [operandValue]

/-! ## Values and references -/

@[spec]
theorem constant_keepsSpellable (label : Option String) (type : TypeDescriptor)
    (value : HostValue) : KeepsSpellable (constant function label type value) := by
  mvcgen [constant]

@[spec]
theorem zero_keepsSpellable (type : TypeDescriptor) : KeepsSpellable (zero function type) := by
  mvcgen [zero]
  exact fun _ _ => rfl

@[spec]
theorem convert_keepsSpellable (source : Node) (type : TypeDescriptor) :
    KeepsSpellable (convert function source type) := by
  mvcgen [convert]
  exact fun _ _ => rfl

@[spec]
theorem construct_keepsSpellable (type : TypeDescriptor) (arguments : List Node) :
    KeepsSpellable (construct function type arguments) := by
  mvcgen [construct]
  exact fun _ _ => rfl

@[spec]
theorem declare_keepsSpellable (name : Option String) (type : TypeDescriptor)
    (initial : Option Node) : KeepsSpellable (declare function name type initial) := by
  mvcgen [declare]
  exact fun _ _ => rfl

@[spec]
theorem declareWith_keepsSpellable (name : Option String) (initial : Operand) :
    KeepsSpellable (declareWith function name initial) := by
  mvcgen [declareWith]

@[spec]
theorem load_keepsSpellable (source : Node) : KeepsSpellable (load function source) := by
  mvcgen [load]

@[spec]
theorem checkStore_keepsSpellable (entry : ExpressionEntry) :
    KeepsSpellable (checkStore function entry) := by
  mvcgen [checkStore]

@[spec]
theorem store_keepsSpellable (target : Node) (source : Operand) :
    KeepsSpellable (store function target source) := by
  mvcgen [store]

/-! ## Operators and parts -/

@[spec]
theorem unary_keepsSpellable (operator : UnaryOperator) (source : Operand) :
    KeepsSpellable (unary function operator source) := by
  mvcgen [unary]
  exact fun _ _ => rfl

@[spec]
theorem binary_keepsSpellable (operator : BinaryOperator) (left right : Operand) :
    KeepsSpellable (binary function operator left right) := by
  mvcgen [binary]
  exact fun _ _ => rfl

@[spec]
theorem swizzle_keepsSpellable (base : Node) (pattern : String) :
    KeepsSpellable (swizzle function base pattern) := by
  mvcgen [swizzle]
  all_goals exact fun _ _ => rfl

@[spec]
theorem member_keepsSpellable (base : Node) (name : String) :
    KeepsSpellable (member function base name) := by
  mvcgen [member]
  exact fun _ _ => rfl

@[spec]
theorem index_keepsSpellable (base : Node) (position : Operand) :
    KeepsSpellable (index function base position) := by
  mvcgen [index]
  exact fun _ _ => rfl

/-! ## Calls -/

@[spec]
theorem arguments_keepsSpellable (callee : ShaderFunction) (nodes : List Node)
    (parameters : List Parameter) :
    KeepsSpellable (arguments function callee nodes parameters) := by
  induction nodes generalizing parameters with
  | nil => mvcgen [arguments]
  | cons node nodes induction =>
      cases parameters with
      | nil => mvcgen [arguments]
      | cons parameter parameters => mvcgen [arguments, induction]

@[spec]
theorem inSession_keepsSpellable (work : Tracing α) : KeepsSpellable (inSession work) := by
  refine keepsSpellable_of_same fun start => ?_
  unfold finishOf inSession
  cases work start.session <;> rfl

@[spec]
theorem discard_keepsSpellable {work : Recording α} (keeps : KeepsSpellable work) :
    KeepsSpellable (discard work) := by
  refine keepsSpellable_iff.mpr fun start all => ?_
  have ended := keepsSpellable_iff.mp keeps start all
  cases ran : work start with
  | ok value finish =>
      rw [finishOf_of_ok ran] at ended
      rw [finishOf_of_ok (discard_ran_ok.mpr ⟨value, ran⟩)]
      exact ended
  | error error finish =>
      rw [finishOf_of_error ran] at ended
      rw [finishOf_of_error (discard_ran_error.mpr ran)]
      exact ended

@[spec]
theorem prepareCall_keepsSpellable (trace : ShaderFunction → Tracing RecordedFunction)
    (callee : ShaderFunction) (nodes : List Node) :
    KeepsSpellable (prepareCall function trace callee nodes) := by
  mvcgen [prepareCall]

@[spec]
theorem call_keepsSpellable (trace : ShaderFunction → Tracing RecordedFunction)
    (callee : ShaderFunction) (nodes : List Node) :
    KeepsSpellable (call function trace callee nodes) := by
  mvcgen [call]
  exact fun _ _ => rfl

@[spec]
theorem callVoid_keepsSpellable (trace : ShaderFunction → Tracing RecordedFunction)
    (callee : ShaderFunction) (nodes : List Node) :
    KeepsSpellable (callVoid function trace callee nodes) := by
  mvcgen [callVoid]

@[spec]
theorem standardArgument_keepsSpellable (standard : StandardFunction) (node : Node) :
    KeepsSpellable (standardArgument function standard node) := by
  mvcgen [standardArgument]

theorem arrayLengthArguments_ran_ok {nodes values : List Node} {start middle : Recorder}
    (ran : nodes.mapM (standardArgument function .arrayLength) start = .ok values middle) :
    middle = start ∧ ∀ argument ∈ values,
      ∃ entry, start.expressions[argument.index]? = some entry ∧ entry.reference.isSome = true := by
  induction nodes generalizing values with
  | nil =>
      rw [List.mapM_nil] at ran
      cases ran
      exact ⟨rfl, nofun⟩
  | cons node nodes induction =>
      rw [List.mapM_cons] at ran
      rcases bind_ran_ok.mp ran with ⟨argument, state, argumentRan, ran⟩
      rcases bind_ran_ok.mp ran with ⟨others, final, othersRan, ended⟩
      cases ended
      rw [standardArgument, if_pos rfl] at argumentRan
      rcases bind_ran_ok.mp argumentRan with ⟨entry, _, found, checked⟩
      rcases entry_ran_ok found with ⟨rfl, found⟩
      split at checked
      next => cases checked
      next reference =>
        cases checked
        rcases induction othersRan with ⟨rfl, all⟩
        refine ⟨rfl, List.forall_mem_cons.mpr ⟨⟨entry, found, ?_⟩, all⟩⟩
        rw [Option.isNone_iff_eq_none] at reference
        exact Option.isSome_iff_ne_none.mpr reference

theorem arrayLength_keepsSpellable (nodes : List Node) :
    KeepsSpellable (Recording.standard function .arrayLength nodes) := by
  refine keepsSpellable_iff.mpr fun start all => ?_
  have each := standardArgument_keepsSpellable function .arrayLength
  have kept := keepsSpellable_iff.mp (@mapM_keepsSpellable _ _ _ nodes each) start all
  rw [Recording.standard]
  cases argumentsRan : nodes.mapM (standardArgument function .arrayLength) start with
  | error error middle =>
      rw [finishOf_of_error argumentsRan] at kept
      rw [finishOf_of_error (bind_of_error argumentsRan)]
      exact kept
  | ok values middle =>
      rcases arrayLengthArguments_ran_ok function argumentsRan with ⟨rfl, references⟩
      have typesKept := keepsSpellable_iff.mp (typesOf_keepsSpellable function values) middle all
      rw [finishOf, bind_of_ok argumentsRan, ← finishOf]
      cases typesRan : typesOf function values middle with
      | error error final =>
          rw [finishOf_of_error typesRan] at typesKept
          rw [finishOf_of_error (bind_of_error typesRan)]
          exact typesKept
      | ok types final =>
          rcases typesOf_ran_ok typesRan with ⟨rfl, _⟩
          rw [finishOf, bind_of_ok typesRan, ← finishOf]
          split
          next => exact all
          next type _ =>
            rw [addValue, finishOf_of_ok (addExpression_eq _ _ _ _ _)]
            exact all.withExpression function type none fun _ => references

@[spec]
theorem standard_keepsSpellable (standard : StandardFunction) (nodes : List Node) :
    KeepsSpellable (Recording.standard function standard nodes) := by
  by_cases length : standard = .arrayLength
  · rw [length]
    exact arrayLength_keepsSpellable function nodes
  · mvcgen [Recording.standard]
    exact fun _ _ => bne_iff_ne.mpr length

@[spec]
theorem closeTo_keepsSpellable (left right precision : Operand) :
    KeepsSpellable (closeTo function left right precision) := by
  mvcgen [closeTo]

@[spec]
theorem bind_keepsSpellable (entry : BindingEntry) :
    KeepsSpellable (bind function entry) := by
  mvcgen [bind]

/-! ## Blocks -/

@[spec]
theorem inside_keepsSpellable {deeper : Nat} {body : Recording Unit}
    (keeps : KeepsSpellable body) : KeepsSpellable (inside deeper body) := by
  refine keepsSpellable_iff.mpr fun start all => ?_
  have ended := keepsSpellable_iff.mp keeps (start.opened deeper) all
  cases ran : body (start.opened deeper) with
  | ok value finish =>
      rw [finishOf_of_ok ran] at ended
      rw [finishOf_of_ok (inside_of_ok ran)]
      exact ended
  | error error finish =>
      rw [finishOf_of_error ran] at ended
      rw [finishOf_of_error (inside_of_error ran)]
      exact ended

@[spec]
theorem condition_keepsSpellable (source : Operand) :
    KeepsSpellable (condition function source) := by
  mvcgen [condition]

theorem branch_keepsSpellable {accept reject : Recording Unit}
    (acceptKeeps : KeepsSpellable accept) (rejectKeeps : KeepsSpellable reject) (test : Operand) :
    KeepsSpellable (branch function test accept reject) := by
  mvcgen [branch, inBlock_eq, acceptKeeps, rejectKeeps]

theorem loop_keepsSpellable {body : Recording Unit} (keeps : KeepsSpellable body) :
    KeepsSpellable (loop body) := by
  mvcgen [loop, looped_eq, keeps]

@[spec]
theorem counterValue_keepsSpellable (counter : Nat) (type : TypeDescriptor) :
    KeepsSpellable (counterValue function counter type) := by
  mvcgen [counterValue]

theorem range_keepsSpellable {body : Node → Recording Unit}
    (keeps : ∀ node, KeepsSpellable (body node)) (first last : Operand) :
    KeepsSpellable (range function first last body) := by
  mvcgen [range, looped_eq, keeps]

/-! ## Leaving -/

@[spec]
theorem leaveLoop_keepsSpellable : KeepsSpellable (leaveLoop function) := by
  mvcgen [leaveLoop]

@[spec]
theorem nextRound_keepsSpellable : KeepsSpellable (nextRound function) := by
  mvcgen [nextRound]

@[spec]
theorem giveBack_keepsSpellable (result : Option Node) :
    KeepsSpellable (giveBack function result) := by
  mvcgen [giveBack, refuseResult]

@[spec]
theorem discardFragment_keepsSpellable : KeepsSpellable (discardFragment function) := by
  mvcgen [discardFragment]

@[spec]
theorem finish_keepsSpellable (result : Option Node) :
    KeepsSpellable (finish function result) := by
  mvcgen [finish, refuseResult]

/-! ## Scripts -/

@[spec]
theorem keep_keepsSpellable {operation : Recording Node} (keeps : KeepsSpellable operation)
    (out : Register) : KeepsSpellable (keep out operation) := by
  mvcgen [keep, keeps]

@[spec]
theorem named_keepsSpellable (type : NamedType) : KeepsSpellable (named type) := by
  mvcgen [named]

@[spec]
theorem operands_keepsSpellable (sources : List Operand) :
    KeepsSpellable (operands function sources) := by
  mvcgen [operands]

@[spec]
theorem operand?_keepsSpellable (source : Option Operand) :
    KeepsSpellable (operand? function source) := by
  cases source <;> mvcgen [operand?]

@[spec]
theorem callee_keepsSpellable (program : Program) (id : FunctionId) :
    KeepsSpellable (callee function program id) := by
  mvcgen [callee]

@[spec]
theorem addNote_keepsSpellable (note : Note) : KeepsSpellable (addNote note) := by
  mvcgen [addNote]

theorem attempt_keepsSpellable {work : Recording Unit} (keeps : KeepsSpellable work) :
    KeepsSpellable (attempt work) := by
  refine keepsSpellable_iff.mpr fun start all => ?_
  have ended := keepsSpellable_iff.mp keeps start all
  have noted : ∃ note, attempt work start = addNote note (finishOf work start) := by
    unfold attempt finishOf
    cases work start with
    | ok result middle => exact ⟨_, rfl⟩
    | error error middle => exact ⟨_, rfl⟩
  rcases noted with ⟨note, same⟩
  rw [finishOf, same]
  exact keepsSpellable_iff.mp (addNote_keepsSpellable note) _ ended

@[spec]
theorem noteType_keepsSpellable (source : Register) :
    KeepsSpellable (noteType function source) := by
  mvcgen [noteType]

@[spec]
theorem publish_keepsSpellable (name : String) (source : Register) :
    KeepsSpellable (publish function name source) := by
  mvcgen [publish]

theorem adopt_keepsSpellable {body : Recording Unit} (keeps : KeepsSpellable body)
    (name : String) (out : Register) : KeepsSpellable (adopt name out body) := by
  mvcgen [adopt, keeps]

end Recording

open Recording

mutual
theorem Action.perform_keepsSpellable (around : Surroundings) : ∀ action : Action,
    KeepsSpellable (action.perform around)
  | .branch condition accept reject =>
      branch_keepsSpellable around.function (accept.perform_keepsSpellable around)
        (reject.perform_keepsSpellable around) condition
  | .loop body => loop_keepsSpellable (body.perform_keepsSpellable around)
  | .range counter first last body => by
      apply range_keepsSpellable
      intro node
      have keeps := body.perform_keepsSpellable around
      mvcgen [keeps]
  | .attempt body => attempt_keepsSpellable (body.perform_keepsSpellable around)
  | .adopt name out body => adopt_keepsSpellable (body.perform_keepsSpellable around) name out
  | .literal .. | .constant .. | .zero .. | .construct .. | .convert .. | .declare ..
  | .declareZero .. | .load .. | .store .. | .unary .. | .binary .. | .member .. | .index ..
  | .swizzle .. | .call .. | .callVoid .. | .standard .. | .closeTo .. | .bind .. | .leaveLoop
  | .nextRound | .giveBack .. | .discard | .noteType .. | .publish .. => by
      mvcgen [Action.perform]

theorem Script.perform_keepsSpellable (around : Surroundings) : ∀ script : Script,
    KeepsSpellable (script.perform around)
  | .done => by mvcgen [Script.perform]
  | .step action rest => by
      have first := action.perform_keepsSpellable around
      have others := rest.perform_keepsSpellable around
      mvcgen [Script.perform, first, others]
end

/-! ## Finished recordings -/

namespace Tracing

theorem addParameters_keepsSpellable (function : ShaderFunction) (index : Nat)
    (parameters : List Parameter) :
    KeepsSpellable (addParameters function index parameters) := by
  induction parameters generalizing index with
  | nil => mvcgen [addParameters]
  | cons parameter rest induction => mvcgen [addParameters, induction]

theorem scriptWork_keepsSpellable (around : Surroundings) (body : Script)
    (result : Option Operand) : KeepsSpellable (scriptWork around body result) := by
  have parameters := addParameters_keepsSpellable around.function 0
    around.function.signature.parameters
  have performed := body.perform_keepsSpellable around
  mvcgen [scriptWork, parameters, performed]

end Tracing

/-- Every expression of a finished recording has a spelling. -/
theorem Program.Makes.spellable {program : Program} {function : ShaderFunction}
    {recorded : RecordedFunction} (makes : program.Makes function recorded) :
    ∀ entry ∈ recorded.expressions, entry.expression.Spellable recorded.expressions := by
  rcases makes.cases with ⟨text, _, callees, _, rfl⟩ |
    ⟨body, result, depth, session, final, _, worked⟩
  · simp
  · have empty : Recorder.Spellable { session := session } := by
      intro entry member
      simp at member
    have keeps := Tracing.scriptWork_keepsSpellable
      ⟨program, program.traceWithin depth, function⟩ body result
    have kept := keepsSpellable_iff.mp keeps _ empty
    rw [finishOf_of_ok worked] at kept
    rw [Tracing.scriptWork_recorded worked]
    exact kept

end ShaderKit
