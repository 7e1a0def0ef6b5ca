import ShaderKit.Proofs.Recording.Requests

/-!
# Recorders that differ in the numbers of constants

What an operation records does not depend on how constants are numbered, nor on the session.
From recorders that differ in these only, an operation gives the same result or the same
failure, and unless it numbers a constant or calls a function, it leaves the contexts alone.
-/

namespace ShaderKit

/-! ## Recordings that are alike -/

/-- Expressions that differ at most in the number of a constant. -/
inductive Expression.Alike (same : Nat → Nat → Prop) : Expression → Expression → Prop where
  | constant {first second : Nat} (matched : same first second) :
      Alike same (.constant first) (.constant second)
  | equal {expression : Expression} (plain : ∀ number, expression ≠ .constant number) :
      Alike same expression expression

inductive ExpressionEntry.Alike (same : Nat → Nat → Prop) :
    ExpressionEntry → ExpressionEntry → Prop where
  | intro {entry : ExpressionEntry} {expression : Expression}
      (alike : entry.expression.Alike same expression) :
      Alike same entry { entry with expression := expression }

/-- Recordings of one function that differ in the numbers of constants only. -/
structure RecordedFunction.Alike (same : Nat → Nat → Prop) (first second : RecordedFunction) :
    Prop where
  entries : List.Forall₂ (ExpressionEntry.Alike same) first.expressions.toList
    second.expressions.toList
  numbers : List.Forall₂ same first.constants second.constants
  rest : second = { first with
    expressions := second.expressions
    constants := second.constants }

/-- Recorders that differ in the numbers of constants and in the session only. -/
structure Recorder.Alike (same : Nat → Nat → Prop) (first second : Recorder) : Prop where
  entries : List.Forall₂ (ExpressionEntry.Alike same) first.expressions.toList
    second.expressions.toList
  numbers : List.Forall₂ same first.constants second.constants
  rest : second = { first with
    session := second.session
    expressions := second.expressions
    constants := second.constants }

section

variable {same : Nat → Nat → Prop}

theorem Expression.Alike.isInlined {first second : Expression} (alike : first.Alike same second)
    (reference : Option Reference) : second.isInlined reference = first.isInlined reference := by
  cases alike <;> rfl

theorem Expression.Alike.isGlobal {first second : Expression} (alike : first.Alike same second) :
    second.isGlobal = first.isGlobal := by
  cases alike <;> rfl

theorem Expression.Alike.literalIndex? {first second : Expression}
    (alike : first.Alike same second) :
    Recording.literalIndex? second = Recording.literalIndex? first := by
  cases alike <;> rfl

theorem Expression.Alike.eq {first second : Expression} (alike : first.Alike Eq second) :
    first = second := by
  cases alike with
  | constant matched => exact congrArg Expression.constant matched
  | equal => rfl

theorem ExpressionEntry.Alike.eq {first second : ExpressionEntry} (alike : first.Alike Eq second) :
    first = second := by
  cases alike with
  | intro alike => rw [← alike.eq]

theorem entries_eq_of_alike {first second : Array ExpressionEntry}
    (alike : List.Forall₂ (ExpressionEntry.Alike Eq) first.toList second.toList) :
    first = second := by
  have same := alike.imp fun _ _ equal => equal.eq
  exact Array.ext' (List.forall₂_eq_eq_eq ▸ same)

theorem RecordedFunction.Alike.eq {first second : RecordedFunction}
    (alike : first.Alike Eq second) : first = second := by
  have numbers : first.constants = second.constants := List.forall₂_eq_eq_eq ▸ alike.numbers
  rw [alike.rest, ← entries_eq_of_alike alike.entries, ← numbers]

theorem Recorder.Alike.refl (recorder : Recorder) : recorder.Alike Eq recorder where
  entries := by
    apply List.forall₂_same.mpr
    intro entry _
    refine @ExpressionEntry.Alike.intro _ entry entry.expression ?_
    cases entry.expression with
    | constant number => exact .constant rfl
    | _ => exact .equal nofun
  numbers := List.forall₂_same.mpr fun _ _ => rfl
  rest := rfl

end

namespace Recording

open Recorder

variable {same : Nat → Nat → Prop} {α β γ δ : Type} {first second : Recorder}

/-- How two pieces of work end that leave the contexts alone. -/
inductive Ends (same : Nat → Nat → Prop) (post : α → β → Prop) (first second : Recorder) :
    EStateM.Result ShaderError Recorder α → EStateM.Result ShaderError Recorder β → Prop where
  | ok {result : α} {answer : β} {finish final : Recorder} (holds : post result answer)
      (alike : finish.Alike same final)
      (kept : finish.session.context = first.session.context)
      (keptToo : final.session.context = second.session.context) :
      Ends same post first second (.ok result finish) (.ok answer final)
  | error {error : ShaderError} {finish final : Recorder} (alike : finish.Alike same final)
      (kept : finish.session.context = first.session.context)
      (keptToo : final.session.context = second.session.context) :
      Ends same post first second (.error error finish) (.error error final)

theorem Ends.after {post : α → β → Prop} {finish final : Recorder}
    {result : EStateM.Result ShaderError Recorder α}
    {answer : EStateM.Result ShaderError Recorder β} (ends : Ends same post finish final result answer)
    (kept : finish.session.context = first.session.context)
    (keptToo : final.session.context = second.session.context) :
    Ends same post first second result answer := by
  cases ends with
  | ok holds alike later laterToo =>
      exact .ok holds alike (later.trans kept) (laterToo.trans keptToo)
  | error alike later laterToo =>
      exact .error alike (later.trans kept) (laterToo.trans keptToo)

theorem Ends.imp {post weaker : α → β → Prop} {result : EStateM.Result ShaderError Recorder α}
    {answer : EStateM.Result ShaderError Recorder β}
    (ends : Ends same post first second result answer)
    (implies : ∀ result answer, post result answer → weaker result answer) :
    Ends same weaker first second result answer := by
  cases ends with
  | ok holds alike kept keptToo => exact .ok (implies _ _ holds) alike kept keptToo
  | error alike kept keptToo => exact .error alike kept keptToo

/-- Work with one outcome from recorders that are alike. -/
def Twins (same : Nat → Nat → Prop) (post : α → β → Prop) (work : Recording α)
    (other : Recording β) (first second : Recorder) : Prop :=
  Ends same post first second (work first) (other second)

abbrev Uniform (same : Nat → Nat → Prop) (work : Recording α) (first second : Recorder) : Prop :=
  Twins same Eq work work first second

namespace Twins

theorem pure {post : α → β → Prop} {result : α} {answer : β} (alike : first.Alike same second)
    (holds : post result answer) :
    Twins same post (pure result) (pure answer) first second :=
  .ok holds alike rfl rfl

theorem bind {middle : α → β → Prop} {post : γ → δ → Prop} {work : Recording α}
    {other : Recording β} {next : α → Recording γ} {following : β → Recording δ}
    (begun : Twins same middle work other first second)
    (rest : ∀ result answer finish final, middle result answer → finish.Alike same final →
      Twins same post (next result) (following answer) finish final) :
    Twins same post (work >>= next) (other >>= following) first second := by
  unfold Twins at begun
  cases ran : work first <;> cases otherRan : other second <;> rw [ran, otherRan] at begun
  case ok.ok =>
    cases begun with
    | ok holds alike kept keptToo =>
        rw [Twins, bind_of_ok ran, bind_of_ok otherRan]
        exact (rest _ _ _ _ holds alike).after kept keptToo
  case error.error =>
    cases begun with
    | error alike kept keptToo =>
        rw [Twins, bind_of_error ran, bind_of_error otherRan]
        exact .error alike kept keptToo
  all_goals cases begun

theorem get_bind {post : α → β → Prop} {next : Recorder → Recording α}
    {following : Recorder → Recording β}
    (ends : Twins same post (next first) (following second) first second) :
    Twins same post (get >>= next) (get >>= following) first second :=
  ends

end Twins

namespace Uniform

theorem pure (value : α) (alike : first.Alike same second) :
    Uniform same (pure value) first second :=
  Twins.pure alike rfl

theorem throw (error : ShaderError) (alike : first.Alike same second) :
    Uniform same (throw error : Recording α) first second :=
  .error alike rfl rfl

theorem refuse (function : ShaderFunction) (fault : RecordingFault)
    (alike : first.Alike same second) :
    Uniform same (Recording.refuse function fault : Recording α) first second :=
  throw _ alike

theorem bind {work : Recording α} {next : α → Recording β}
    (begun : Uniform same work first second)
    (rest : ∀ result finish final, finish.Alike same final →
      Uniform same (next result) finish final) :
    Uniform same (work >>= next) first second := by
  apply Twins.bind begun
  intro result answer finish final equal alike
  cases equal
  exact rest result finish final alike

theorem mapM {work : α → Recording β} {items : List α}
    (each : ∀ item first second, first.Alike same second →
      Uniform same (work item) first second) (alike : first.Alike same second) :
    Uniform same (items.mapM work) first second := by
  induction items generalizing first second with
  | nil =>
      rw [List.mapM_nil]
      exact pure [] alike
  | cons item rest induction =>
      rw [List.mapM_cons]
      apply bind (each item first second alike)
      intro result finish final later
      apply bind (induction later)
      intro results end₁ end₂ last
      exact pure (result :: results) last

end Uniform

end Recording

/-! ## Changes keep recorders alike -/

namespace Recorder.Alike

variable {same : Nat → Nat → Prop} {first second : Recorder}

theorem blocks_addStatement (blocks : second.blocks = first.blocks) (statement : Statement) :
    (second.addStatement statement).blocks = (first.addStatement statement).blocks := by
  unfold Recorder.addStatement
  rw [blocks]
  split
  next => exact blocks
  next => rfl

theorem addStatement (alike : first.Alike same second) (statement : Statement) :
    (first.addStatement statement).Alike same (second.addStatement statement) := by
  have blocks : second.blocks = first.blocks := by rw [alike.rest]
  rw [addStatement_eq first, addStatement_eq second, blocks_addStatement blocks]
  refine ⟨alike.entries, alike.numbers, ?_⟩
  rw [alike.rest]

theorem push {entry other : ExpressionEntry} (alike : first.Alike same second)
    (equal : entry.Alike same other) : (first.push entry).Alike same (second.push other) where
  entries := by
    simp only [Recorder.push, Array.toList_push]
    exact List.rel_append alike.entries (.cons equal .nil)
  numbers := alike.numbers
  rest := by
    rw [alike.rest]
    rfl

theorem size_expressions (alike : first.Alike same second) :
    second.expressions.size = first.expressions.size :=
  alike.entries.length_eq.symm

theorem withExpression {expression other : Expression} (alike : first.Alike same second)
    (equal : expression.Alike same other) (function : ShaderFunction) (type : TypeDescriptor)
    (reference : Option Reference) :
    (first.withExpression function expression type reference).Alike same
      (second.withExpression function other type reference) := by
  have scopes : second.currentScope = first.currentScope := by
    rw [alike.rest]
    rfl
  unfold Recorder.withExpression
  rw [equal.isInlined, equal.isGlobal, alike.size_expressions, scopes]
  dsimp only
  split
  next => exact alike.push (.intro equal)
  next => exact (alike.push (.intro equal)).addStatement _

theorem recorded (alike : first.Alike same second) (function : ShaderFunction) :
    (first.recorded function).Alike same (second.recorded function) := by
  refine ⟨alike.entries, alike.numbers, ?_⟩
  rw [alike.rest]
  rfl

end Recorder.Alike

end ShaderKit
