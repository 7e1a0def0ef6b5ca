import ShaderKit.Proofs.Recording.ScriptChanges
import ShaderKit.Proofs.Value.Construct

/-!
# Accepted operations can be computed

Recording checks the types of operands, and evaluation works on values, without looking at each
other. Where the check of an operation accepts the types of its operands, the host has an answer
for all values of those types, and the answer has the type that the check gives.
-/

namespace ShaderKit

namespace Recorder

variable {recorder : Recorder} {node : Node} {type : TypeDescriptor}

def Gives (recorder : Recorder) (values : Node → HostValue) : Prop :=
  ∀ node type, recorder.TypeAt node type → HasType type (values node)

/-- A recorded node for which the host computes a value of a type, whatever values of their types
its operands have. -/
def Computes (recorder : Recorder) (node : Node) (type : TypeDescriptor) : Prop :=
  ∃ entry, recorder.expressions[node.index]? = some entry ∧ entry.type = type ∧
    ∀ (activation : Activation) frame call values, recorder.Gives values →
      ∃ value, activation.meaningOf frame (fun operand => .ok (.value (values operand))) call
        entry = .ok (.value value) ∧ HasType type value

end Recorder

namespace Recording

open Recorder

variable {function : ShaderFunction} {start finish : Recorder} {node : Node}
  {type : TypeDescriptor}

/-! ## What the recorder has checked -/

theorem typesOf_ran_ok {nodes : List Node} {types : List TypeDescriptor}
    (ran : typesOf function nodes start = .ok types finish) :
    finish = start ∧ List.Forall₂ start.TypeAt nodes types := by
  unfold typesOf at ran
  induction nodes generalizing types start finish with
  | nil =>
      cases ran
      exact ⟨rfl, .nil⟩
  | cons first rest induction =>
      rw [List.mapM_cons] at ran
      rcases bind_ran_ok.mp ran with ⟨type, middle, typed, rest⟩
      rcases bind_ran_ok.mp rest with ⟨types, last, restTyped, ended⟩
      rcases induction restTyped with ⟨rfl, restAt⟩
      rcases typeOf_ran_ok typed with ⟨rfl, firstAt⟩
      cases ended
      exact ⟨rfl, .cons firstAt restAt⟩

theorem value_ran_ok {source : Node} (ran : value function source start = .ok node finish) :
    ∃ entry, start.expressions[source.index]? = some entry ∧
      ((entry.reference = none ∧ node = source ∧ finish = start) ∨
        (entry.reference ≠ none ∧
          addValue function (.load source) entry.type start = .ok node finish)) := by
  rcases bind_ran_ok.mp ran with ⟨entry, middle, looked, valued⟩
  rcases entry_ran_ok looked with ⟨rfl, found⟩
  refine ⟨entry, found, ?_⟩
  split at valued
  next isValue =>
    cases valued
    exact .inl ⟨Option.isNone_iff_eq_none.mp isValue, rfl, rfl⟩
  next isReference =>
    have isReference : entry.reference ≠ none :=
      fun same => isReference (Option.isNone_iff_eq_none.mpr same)
    split at valued
    next => cases valued
    next =>
      split at valued
      next => cases valued
      next => exact .inr ⟨isReference, valued⟩

theorem value_again {source given : Node} {middle : Recorder}
    (first : value function source start = .ok given middle)
    (again : value function given middle = .ok node finish) :
    value function source start = .ok node finish := by
  rcases value_ran_ok first with ⟨_, found, ⟨_, rfl, rfl⟩ | ⟨_, loaded⟩⟩
  · exact again
  · rw [addValue, addExpression_eq] at loaded
    cases loaded
    rcases value_ran_ok again with ⟨entry, known, ⟨_, rfl, rfl⟩ | ⟨isReference, _⟩⟩
    · exact first
    · rw [expressions_withExpression, Array.getElem?_push_size] at known
      cases known
      exact absurd rfl isReference

/-- A node that is added computes a value if its expression does over the nodes before it. -/
theorem computes_of_addValue {expression : Expression}
    (ran : addValue function expression type start = .ok node finish)
    (computes : ∀ (activation : Activation) frame call values scope, start.Gives values →
      ∃ value, activation.meaningOf frame (fun operand => .ok (.value (values operand))) call
        ⟨expression, type, none, scope⟩ = .ok (.value value) ∧ HasType type value) :
    finish.Computes node type := by
  rw [addValue, addExpression_eq] at ran
  cases ran
  refine ⟨start.nextEntry expression type none, ?_, rfl, ?_⟩
  · rw [expressions_withExpression]
    exact Array.getElem?_push_size
  · intro activation frame call values gives
    apply computes
    rintro operand operandType ⟨entry, found, rfl⟩
    apply gives
    refine ⟨entry, ?_, rfl⟩
    have below := (Array.getElem?_eq_some_iff.mp found).1
    rw [expressions_withExpression, Array.getElem?_push, if_neg (Nat.ne_of_lt below)]
    exact found

/-! ## Operations of the recorder -/

theorem zero_computes (ran : zero function type start = .ok node finish) :
    finish.Computes node type := by
  unfold zero at ran
  split at ran
  next => cases ran
  next =>
    apply computes_of_addValue ran
    intro activation frame call values scope _
    exact ⟨type.zero, rfl, hasType_zero type⟩

theorem convert_computes {source : Node}
    (ran : convert function source type start = .ok node finish) :
    (value function source start = .ok node finish ∧ finish.TypeAt node type) ∨
      finish.Computes node type := by
  rcases bind_ran_ok.mp ran with ⟨given, middle, valued, checks⟩
  rcases bind_ran_ok.mp checks with ⟨sourceType, state, typed, checked⟩
  rcases typeOf_ran_ok typed with ⟨rfl, sourceAt⟩
  split at checked
  next => cases checked
  next convertible =>
    rw [Bool.not_eq_true, Bool.not_eq_false'] at convertible
    split at checked
    next same =>
      cases checked
      exact .inl ⟨valued, same ▸ sourceAt⟩
    next =>
      apply Or.inr
      apply computes_of_addValue checked
      intro activation frame call values scope gives
      rcases convert_yields convertible (gives given sourceType sourceAt) with
        ⟨value, converted, valueTyped⟩
      refine ⟨value, ?_, valueTyped⟩
      change (activation.require _ (Activation.convert type (values given))).map Meaning.value = _
      rw [converted]
      rfl

theorem mapM_valueOf (activation : Activation) (frame : Frame) (values : Node → HostValue)
    (nodes : List Node) :
    (nodes.mapM fun node => do
      activation.valueOf frame (← (.ok (.value (values node)) : Evaluation Meaning))) =
        .ok (nodes.map values) := by
  induction nodes with
  | nil => rfl
  | cons first rest induction =>
      rw [List.mapM_cons, induction]
      rfl

theorem compose_computes {arguments : List Node} {types : List TypeDescriptor}
    (ran : addValue function (.compose arguments) type start = .ok node finish)
    (constructs : constructs type types = true)
    (typesAt : List.Forall₂ start.TypeAt arguments types) : finish.Computes node type := by
  apply computes_of_addValue ran
  intro activation frame call values scope gives
  have typed : List.Forall₂ HasType types (arguments.map values) := by
    rw [List.forall₂_map_right_iff]
    exact typesAt.flip.imp fun type argument at_ => gives argument type at_
  rcases compose_yields constructs typed with ⟨value, composed, valueTyped⟩
  refine ⟨value, ?_, valueTyped⟩
  simp only [Activation.meaningOf, mapM_valueOf]
  change (activation.require _ (type.compose (arguments.map values))).map Meaning.value = _
  rw [composed]
  rfl

theorem mapM_single {α β : Type} {work : α → Recording β} {items : List α} {result : β}
    (ran : items.mapM work start = .ok [result] finish) :
    ∃ item, items = [item] ∧ work item start = .ok result finish := by
  match items with
  | [] => cases ran
  | [item] =>
      rw [List.mapM_cons] at ran
      rcases bind_ran_ok.mp ran with ⟨first, middle, worked, ended⟩
      cases ended
      exact ⟨item, rfl, worked⟩
  | item :: other :: rest =>
      rw [List.mapM_cons, List.mapM_cons] at ran
      rcases bind_ran_ok.mp ran with ⟨_, _, _, later⟩
      rcases bind_ran_ok.mp later with ⟨_, _, others, ended⟩
      rcases bind_ran_ok.mp others with ⟨_, _, _, last⟩
      rcases bind_ran_ok.mp last with ⟨_, _, _, same⟩
      cases same
      cases ended

theorem construct_computes {arguments : List Node}
    (ran : construct function type arguments start = .ok node finish) :
    (∃ argument, arguments = [argument] ∧ value function argument start = .ok node finish ∧
        finish.TypeAt node type) ∨ finish.Computes node type := by
  unfold construct at ran
  split at ran
  next => exact .inr (zero_computes ran)
  next =>
    rcases bind_ran_ok.mp ran with ⟨values, middle, valued, checks⟩
    rcases bind_ran_ok.mp checks with ⟨types, state, typed, checked⟩
    rcases typesOf_ran_ok typed with ⟨rfl, typesAt⟩
    split at checked
    next kind source =>
      rcases convert_computes checked with ⟨again, typeAt⟩ | computes
      · rcases mapM_single valued with ⟨argument, rfl, first⟩
        exact .inl ⟨argument, rfl, value_again first again, typeAt⟩
      · exact .inr computes
    next =>
      split at checked
      next accepted =>
        rw [Bool.and_eq_true] at accepted
        exact .inr (compose_computes checked accepted.1 typesAt)
      next => cases checked

end Recording

open Recorder

/-- Typing and evaluation agree on every operation. Where a unary operator, a binary operator or
a standard function accepts types, the host has an answer for all values of these types, and it
has exactly the type of the result; only the length of an array is not known to the host. A
conversion or construction that the recorder accepts gives a node of its type: the value of the
operand itself, or an expression that the host computes for all values of its operands. -/
theorem operations_computable :
    (∀ (operator : UnaryOperator) type result value, operator.resultType type = some result →
      HasType type value → Yields result (value.applyUnary operator)) ∧
    (∀ (operator : BinaryOperator) left right result first second,
      operator.resultType left right = some result → HasType left first → HasType right second →
        Yields result (first.applyBinary operator second)) ∧
    (∀ (function : StandardFunction) types result values, function ≠ .arrayLength →
      function.resultType types = some result → List.Forall₂ HasType types values →
        Yields result (function.apply values)) ∧
    (∀ function source type start node finish,
      Recording.convert function source type start = .ok node finish →
        (Recording.value function source start = .ok node finish ∧ finish.TypeAt node type) ∨
          finish.Computes node type) ∧
    ∀ function type arguments start node finish,
      Recording.construct function type arguments start = .ok node finish →
        (∃ argument, arguments = [argument] ∧
          Recording.value function argument start = .ok node finish ∧
            finish.TypeAt node type) ∨ finish.Computes node type :=
  ⟨fun _ _ _ _ accepted typed => UnaryOperator.apply_yields accepted typed,
    fun _ _ _ _ _ _ accepted first second => BinaryOperator.apply_yields accepted first second,
    fun _ _ _ _ known accepted typed => StandardFunction.apply_yields accepted known typed,
    fun _ _ _ _ _ _ ran => Recording.convert_computes ran,
    fun _ _ _ _ _ _ ran => Recording.construct_computes ran⟩

def exampleLiteral : Recorder where
  session := {}
  expressions := #[⟨.literal (.i32 Int32.minValue), .i32, none, globalScope⟩]

def exampleConstructing : ShaderFunction where
  id := ⟨0⟩
  signature := ⟨"constructing", [], none, none⟩
  implementation := .script .done none

/-- The least number divided by minus one, a matrix that is not square, and a vector made of its
components. -/
theorem operations_computable_examples :
    Yields .i32
      ((HostValue.scalar (.i32 Int32.minValue)).applyBinary .div (.scalar (.i32 (-1)))) ∧
    (∀ value, HasType (.matrix .f32 .two .three) value →
      Yields (.matrix .f32 .three .two) (StandardFunction.transpose.apply [value])) ∧
    ∃ finish, Recording.construct exampleConstructing (.vector .i32 .two) [⟨⟨0⟩, 0⟩, ⟨⟨0⟩, 0⟩]
      exampleLiteral = .ok ⟨⟨0⟩, 1⟩ finish ∧ finish.Computes ⟨⟨0⟩, 1⟩ (.vector .i32 .two) := by
  refine ⟨?_, ?_, ?_⟩
  · exact operations_computable.2.1 .div .i32 .i32 .i32 _ _ rfl
      (hasType_scalar.mpr ⟨_, rfl, rfl⟩) (hasType_scalar.mpr ⟨_, rfl, rfl⟩)
  · intro value typed
    exact operations_computable.2.2.1 .transpose [_] _ [value] (by decide) rfl (.cons typed .nil)
  · have ran : Recording.construct exampleConstructing (.vector .i32 .two)
        [⟨⟨0⟩, 0⟩, ⟨⟨0⟩, 0⟩] exampleLiteral = .ok ⟨⟨0⟩, 1⟩
          (exampleLiteral.withExpression exampleConstructing
            (.compose [⟨⟨0⟩, 0⟩, ⟨⟨0⟩, 0⟩]) (.vector .i32 .two) none) := rfl
    rcases operations_computable.2.2.2.2 _ _ _ _ _ _ ran with ⟨_, ⟨⟩, _⟩ | computes
    exact ⟨_, ran, computes⟩

end ShaderKit
