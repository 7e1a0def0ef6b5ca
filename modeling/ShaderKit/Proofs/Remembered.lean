import ShaderKit.Proofs.Host.Renumbering
import ShaderKit.Proofs.Recording.Apart

/-!
# Earlier traces do not matter

A function that is traced after others may find its callees recorded and its constants numbered
already. It still ends as in a new context: with the same failure, or with the same recording up
to the numbers of constants, which stand for the same types and values. So it gives the same on
the host.

This holds where bodies are fixed scripts: a failure ends a body, and a body takes no nodes that
others have published, since whether there are any depends on what ran before.
-/

namespace ShaderKit

open Tracing

/-! ## Recordings that are like a third one -/

section

variable {same other both : Nat → Nat → Prop}
  (joins : ∀ first second third, same first third → other second third → both first second)

theorem forall₂_joined {α : Type} {one two joined : α → α → Prop} {first second third : List α}
    (joins : ∀ first second third, one first third → two second third → joined first second)
    (left : List.Forall₂ one first third) (right : List.Forall₂ two second third) :
    List.Forall₂ joined first second := by
  induction left generalizing second with
  | nil =>
      cases right
      exact .nil
  | cons head _ induction =>
      cases right with
      | cons headToo tail => exact .cons (joins _ _ _ head headToo) (induction tail)

include joins

theorem Expression.Alike.joined {first second third : Expression} (one : first.Alike same third)
    (two : second.Alike other third) : first.Alike both second := by
  cases one with
  | constant matched =>
      cases two with
      | constant matchedToo => exact .constant (joins _ _ _ matched matchedToo)
      | equal plain => exact (plain _ rfl).elim
  | equal plain =>
      cases two with
      | constant => exact (plain _ rfl).elim
      | equal => exact .equal plain

theorem ExpressionEntry.Alike.joined {first second third : ExpressionEntry}
    (one : first.Alike same third) (two : second.Alike other third) :
    first.Alike both second := by
  rcases first with ⟨expression, type, reference, scope⟩
  rcases second with ⟨expressionToo, typeToo, referenceToo, scopeToo⟩
  cases one with
  | intro alike =>
      cases two with
      | intro alikeToo =>
          exact @intro _ ⟨expression, type, reference, scope⟩ _ (alike.joined joins alikeToo)

theorem RecordedFunction.Alike.joined {first second third : RecordedFunction}
    (one : first.Alike same third) (two : second.Alike other third) :
    first.Alike both second where
  entries := forall₂_joined (fun _ _ _ one two => one.joined joins two) one.entries two.entries
  numbers := forall₂_joined joins one.numbers two.numbers
  rest := by
    have rest := two.rest.symm.trans one.rest
    rcases first with ⟨⟩
    rcases second with ⟨⟩
    cases rest
    rfl

omit joins in
theorem RecordedFunction.Alike.exists_of_constant {first second : RecordedFunction}
    (alike : first.Alike same second) {entry : ExpressionEntry}
    (member : entry ∈ first.expressions) {number : Nat}
    (constant : entry.expression = .constant number) : ∃ counterpart, same number counterpart := by
  have ⟨index, found⟩ := List.mem_iff_getElem?.mp (Array.mem_toList_iff.mpr member)
  have ⟨_, _, equal⟩ := getElem?_of_forall₂ alike.entries found
  cases equal with
  | intro equal =>
      rw [constant] at equal
      cases equal with
      | constant matched => exact ⟨_, matched⟩
      | equal plain => exact (plain number rfl).elim

end

/-! ## Renumbering by keys -/

namespace TraceContext

variable {context other : TraceContext} {number counterpart : Nat}

/-- The number that the key of a constant has in another context. -/
def numberIn (context other : TraceContext) (number : Nat) : Nat :=
  match context.constantKeys.values[number]? with
  | some key => other.constantKeys.values.idxOf key
  | none => number

theorem Matches.eq_numberIn (distinct : other.constantKeys.values.Nodup)
    (matched : context.Matches other number counterpart) :
    counterpart = context.numberIn other number := by
  have ⟨key, found, foundToo⟩ := matched
  have ⟨below, same⟩ := List.getElem?_eq_some_iff.mp foundToo
  rw [numberIn, found, ← same]
  exact (distinct.idxOf_getElem counterpart below).symm

theorem Matches.same_constant (keyed : context.Keyed) (keyedToo : other.Keyed)
    (matched : context.Matches other number counterpart) :
    ∃ first second, context.constant? number = some first ∧
      other.constant? counterpart = some second ∧ second.type = first.type ∧
        second.value = first.value := by
  have ⟨key, found, foundToo⟩ := matched
  have ⟨first, known, reads⟩ := keyed.constant? found
  have ⟨second, knownToo, readsToo⟩ := keyedToo.constant? foundToo
  have decoded := reads.decoded
  rw [readsToo.decoded] at decoded
  exact ⟨first, second, known, knownToo, readsToo.type.trans reads.type.symm,
    Except.ok.inj decoded⟩

end TraceContext

theorem eq_map_of_forall₂ {α β : Type} {related : α → β → Prop} {function : α → β}
    {items : List α} {others : List β} (listed : List.Forall₂ related items others)
    (decides : ∀ {item other}, related item other → other = function item) :
    others = items.map function := by
  have same : List.Forall₂ Eq (items.map function) others :=
    List.forall₂_map_left_iff.mpr (listed.imp fun _ _ related => (decides related).symm)
  rw [List.forall₂_eq_eq_eq] at same
  exact same.symm

theorem Expression.Alike.eq_renumber {context other : TraceContext} {first second : Expression}
    (distinct : other.constantKeys.values.Nodup) (alike : first.Alike (context.Matches other) second) :
    second = first.renumber (context.numberIn other) := by
  cases alike with
  | constant matched => exact congrArg Expression.constant (matched.eq_numberIn distinct)
  | equal plain =>
      cases first with
      | constant number => exact (plain number rfl).elim
      | _ => rfl

/-- Recordings that are alike by keys are the same up to renumbering. -/
theorem RecordedFunction.Alike.eq_renumber {context other : TraceContext}
    {recorded answer : RecordedFunction} (distinct : other.constantKeys.values.Nodup)
    (alike : recorded.Alike (context.Matches other) answer) :
    answer = recorded.renumber (context.numberIn other) := by
  have numbers : answer.constants = recorded.constants.map (context.numberIn other) :=
    eq_map_of_forall₂ alike.numbers fun matched => matched.eq_numberIn distinct
  have entries : answer.expressions.toList =
      recorded.expressions.toList.map (ExpressionEntry.renumber (context.numberIn other)) := by
    apply eq_map_of_forall₂ alike.entries
    intro entry _ equal
    cases equal with
    | intro equal => rw [ExpressionEntry.renumber, equal.eq_renumber distinct]
  have expressions : answer.expressions =
      recorded.expressions.map (ExpressionEntry.renumber (context.numberIn other)) := by
    apply Array.toList_inj.mp
    rw [entries, Array.toList_map]
  rw [alike.rest, numbers, expressions]
  rfl

theorem RecordedFunction.Alike.matches_numberIn {context other : TraceContext}
    {recorded answer : RecordedFunction} (distinct : other.constantKeys.values.Nodup)
    (alike : recorded.Alike (context.Matches other) answer) {number : Nat}
    (member : number ∈ recorded.constants) :
    context.Matches other number (context.numberIn other number) := by
  have ⟨index, found⟩ := List.mem_iff_getElem?.mp member
  have ⟨counterpart, _, matched⟩ := getElem?_of_forall₂ alike.numbers found
  rw [← matched.eq_numberIn distinct]
  exact matched

theorem RecordedFunction.Alike.eq_of_numberIn {context other : TraceContext}
    {recorded answer : RecordedFunction} (distinct : context.constantKeys.values.Nodup)
    (distinctToo : other.constantKeys.values.Nodup)
    (alike : recorded.Alike (context.Matches other) answer) {first second : Nat}
    (member : first ∈ recorded.constants) (memberToo : second ∈ recorded.constants)
    (same : context.numberIn other first = context.numberIn other second) : first = second := by
  have one := alike.matches_numberIn distinctToo member
  have two := alike.matches_numberIn distinctToo memberToo
  rw [← same] at two
  exact one.symm.unique distinct two.symm

theorem Tracing.Mirrors.joined
    {first second third : EStateM.Result ShaderError Session RecordedFunction}
    (one : Mirrors RecordedFunction.Alike first third)
    (two : Mirrors RecordedFunction.Alike second third) :
    Mirrors RecordedFunction.Alike first second := by
  cases one with
  | ok alike =>
      cases two with
      | ok alikeToo => exact .ok (alike.joined (fun _ _ _ one two => one.trans two.symm) alikeToo)
  | error =>
      cases two
      exact .error

/-! ## Contexts after traces -/

namespace Program

variable {program : Program} {functions : List ShaderFunction} {function : ShaderFunction}
  {journal : Journal} {context other : TraceContext} {session second : Session}

/-- What holds of a context between traces, where bodies swallow no failures and take no nodes
of others. -/
structure Remembers (program : Program) (context : TraceContext) : Prop where
  ordered : context.Ordered
  keyed : context.Keyed
  idle : context.stack = []
  replays : ∀ recorded ∈ context.finished, program.Replays context recorded

theorem remembers_empty (program : Program) : program.Remembers {} where
  ordered := TraceContext.ordered_empty
  keyed := TraceContext.keyed_empty
  idle := rfl
  replays _ impossible := nomatch impossible

theorem Remembers.again (remembers : program.Remembers context) {id : FunctionId}
    {recorded : RecordedFunction} (found : context.find? id = some recorded) :
    program.find? id = some recorded.function ∧ ∃ answer final,
      program.traceApart program.functions.length recorded.function (.bare [] {}) =
        .ok answer final ∧ recorded.Alike (context.Matches final.context) answer := by
  have ⟨member, own⟩ := TraceContext.find?_mem found
  have replays := remembers.replays recorded member
  exact ⟨own ▸ replays.known, replays.again [] {} _ nofun (program.unbegun_le _)⟩

theorem Remembers.alike (remembers : program.Remembers context)
    (remembersToo : program.Remembers other) {id : FunctionId} {recorded answer : RecordedFunction}
    (found : context.find? id = some recorded) (foundToo : other.find? id = some answer) :
    recorded.Alike (context.Matches other) answer := by
  have ⟨known, apart, final, ran, alike⟩ := remembers.again found
  have ⟨knownToo, apartToo, finalToo, ranToo, alikeToo⟩ := remembersToo.again foundToo
  have same : answer.function = recorded.function :=
    Option.some.inj (knownToo.symm.trans known)
  rw [same, ran] at ranToo
  cases ranToo
  exact alike.joined (fun _ _ _ one two => one.trans two.symm) alikeToo

theorem Remembers.renumbers (remembers : program.Remembers context)
    (remembersToo : program.Remembers other) :
    context.Renumbers other (context.numberIn other) where
  recordings found foundToo :=
    (remembers.alike remembersToo found foundToo).eq_renumber remembersToo.keyed.distinct
  constants found foundToo entry member number constant := by
    have ⟨counterpart, matched⟩ :=
      (remembers.alike remembersToo found foundToo).exists_of_constant member constant
    have ⟨first, second, known, knownToo, _, value⟩ :=
      matched.same_constant remembers.keyed remembersToo.keyed
    rw [← matched.eq_numberIn remembersToo.keyed.distinct, known, knownToo]
    exact congrArg some value

section

variable (strict : ∀ function ∈ program.functions, function.swallows = false)
  (own : ∀ function ∈ program.functions, function.adopts = false)

include strict own

theorem Remembers.attempt (remembers : program.Remembers session.context)
    (known : program.find? function.id = some function) :
    program.Remembers (program.attempt session function).context where
  ordered := program.attempt_ordered function remembers.ordered
  keyed := attempt_passes (TraceContext.keyed_passage program) trivial session remembers.keyed
  idle := (stack_attempt session function).trans remembers.idle
  replays :=
    (attempt_passes (reproduces_passage strict own) known session).replays
      remembers.keyed.distinct remembers.replays

theorem remembers_attemptAll
    (known : ∀ function ∈ functions, program.find? function.id = some function)
    (remembers : program.Remembers session.context) :
    program.Remembers (program.attemptAll functions session).context := by
  induction functions generalizing session with
  | nil => exact remembers
  | cons function rest induction =>
      apply induction fun other member => known other (List.mem_cons_of_mem _ member)
      exact remembers.attempt strict own (known function List.mem_cons_self)

/-- Traces in two contexts end in the same way. -/
theorem Remembers.mirrors (remembers : program.Remembers session.context)
    (remembersToo : program.Remembers second.context)
    (known : program.find? function.id = some function) :
    Mirrors RecordedFunction.Alike (program.trace function session)
      (program.trace function second) := by
  -- both traces end as tracing apart, which knows nothing of either context
  have one := trace_mirrors_apart strict own ⟨function, session⟩ known remembers.ordered
    remembers.keyed.distinct remembers.replays {} program.functions.length (program.unbegun_le _)
  have two := trace_mirrors_apart strict own ⟨function, second⟩ known remembersToo.ordered
    remembersToo.keyed.distinct remembersToo.replays {} program.functions.length
    (program.unbegun_le _)
  rw [remembers.idle] at one
  rw [remembersToo.idle] at two
  exact one.joined two

end

theorem Remembers.finish (strict : ∀ function ∈ program.functions, function.swallows = false)
    (own : ∀ function ∈ program.functions, function.adopts = false)
    (remembers : program.Remembers session.context)
    (known : program.find? function.id = some function) {recorded : RecordedFunction}
    {finish : Session} (ran : program.trace function session = .ok recorded finish) :
    program.Remembers finish.context := by
  have attempted := remembers.attempt strict own known
  rw [Program.attempt, ran] at attempted
  exact attempted

/-- Traces after other traces agree with fresh ones. Where no body swallows failures or takes
nodes of others, let a function be traced after any traces of functions of the program, each of
which may have failed, and in a new context. Either both traces fail with the same error, or both
succeed, and the second recording is the first one with other numbers for its constants. Different
numbers stay different, and they stand for constants of the same type and value. Run in their
contexts, both recordings give the same for all arguments. -/
theorem trace_remembered (strict : ∀ function ∈ program.functions, function.swallows = false)
    (own : ∀ function ∈ program.functions, function.adopts = false)
    (functions : List ShaderFunction)
    (earlier : ∀ function ∈ functions, program.find? function.id = some function)
    (function : ShaderFunction) (known : program.find? function.id = some function)
    (journal fresh : Journal) :
    let session := program.attemptAll functions { journal := journal }
    (∃ error finish final, program.trace function session = .error error finish ∧
      program.trace function { journal := fresh } = .error error final) ∨
      ∃ recorded finish answer final rename,
        program.trace function session = .ok recorded finish ∧
          program.trace function { journal := fresh } = .ok answer final ∧
          answer = recorded.renumber rename ∧
          (∀ entry ∈ recorded.expressions, ∀ number, entry.expression = .constant number →
            number ∈ recorded.constants) ∧
          (∀ first ∈ recorded.constants, ∀ second ∈ recorded.constants,
            rename first = rename second → first = second) ∧
          (∀ number ∈ recorded.constants, ∃ constant counterpart,
            finish.context.constant? number = some constant ∧
              final.context.constant? (rename number) = some counterpart ∧
              counterpart.type = constant.type ∧ counterpart.value = constant.value) ∧
          ∀ fuel arguments, recorded.evaluate finish.context fuel arguments =
            answer.evaluate final.context fuel arguments := by
  intro session
  have remembers : program.Remembers session.context :=
    remembers_attemptAll strict own earlier (remembers_empty program)
  have remembersToo : program.Remembers (Session.context { journal := fresh }) :=
    remembers_empty program
  have mirrors := remembers.mirrors strict own remembersToo known
  cases ran : program.trace function session with
  | error error finish =>
      cases ranToo : program.trace function { journal := fresh } with
      | error _ final =>
          rw [ran, ranToo] at mirrors
          cases mirrors
          exact .inl ⟨error, finish, final, rfl, rfl⟩
      | ok answer final =>
          rw [ran, ranToo] at mirrors
          cases mirrors
  | ok recorded finish =>
      cases ranToo : program.trace function { journal := fresh } with
      | error _ final =>
          rw [ran, ranToo] at mirrors
          cases mirrors
      | ok answer final =>
          have found := find?_of_trace ran
          have foundToo := find?_of_trace ranToo
          have after := remembers.finish strict own known ran
          have afterToo := remembersToo.finish strict own known ranToo
          have alike := after.alike afterToo found foundToo
          have renumbers := after.renumbers afterToo
          have accounted := after.ordered.accounted recorded (TraceContext.find?_mem found).1
          refine .inr ⟨recorded, finish, answer, final, finish.context.numberIn final.context, rfl,
            rfl, renumbers.recordings found foundToo, ?_, ?_, ?_, ?_⟩
          · intro entry member number constant
            exact accounted.covers member constant
          · intro first member second memberToo same
            exact alike.eq_of_numberIn after.keyed.distinct afterToo.keyed.distinct member memberToo
              same
          · intro number member
            have matched := alike.matches_numberIn afterToo.keyed.distinct member
            exact matched.same_constant after.keyed afterToo.keyed
          · intro fuel arguments
            exact (RecordedFunction.evaluate_renumber after.ordered afterToo.ordered renumbers fuel
              found foundToo arguments).symm

end Program

def exampleRaise : ShaderFunction where
  id := ⟨0⟩
  signature := ⟨"raise", [⟨"number", .f32⟩], some .f32, none⟩
  implementation := .script
    (.ofList [
      .constant "half" none (.ok .f32) (.scalar (.f32 0x3f000000)),
      .binary "sum" .add (.register "$0") (.register "half")])
    (some (.register "sum"))

def exampleStretch : ShaderFunction where
  id := ⟨1⟩
  signature := ⟨"stretch", [⟨"number", .f32⟩], some .f32, none⟩
  implementation := .script
    (.ofList [
      .constant "two" none (.ok .f32) (.scalar (.f32 0x40000000)),
      .call "raised" ⟨0⟩ [.register "$0"],
      .binary "product" .mul (.register "two") (.register "raised")])
    (some (.register "product"))

def exampleGrowth : Program where
  functions := [exampleRaise, exampleStretch]

def answeredConstants : EStateM.Result ShaderError Session RecordedFunction → List Nat
  | .ok recorded _ => recorded.constants
  | .error _ _ => []

theorem trace_remembered_exampleGrowth :
    ∃ recorded finish answer final rename,
      exampleGrowth.trace exampleStretch
          (exampleGrowth.attemptAll [exampleRaise] { journal := {} }) = .ok recorded finish ∧
        exampleGrowth.trace exampleStretch { journal := {} } = .ok answer final ∧
        recorded.constants = [1] ∧ answer.constants = [0] ∧
        answer = recorded.renumber rename ∧
        ∀ fuel arguments, recorded.evaluate finish.context fuel arguments =
          answer.evaluate final.context fuel arguments := by
  have earlier : ∀ function ∈ [exampleRaise],
      exampleGrowth.find? function.id = some function := by
    intro function member
    cases List.mem_singleton.mp member
    rfl
  have numbered : answeredConstants (exampleGrowth.trace exampleStretch
      (exampleGrowth.attemptAll [exampleRaise] { journal := {} })) = [1] := by decide +kernel
  have numberedToo : answeredConstants
      (exampleGrowth.trace exampleStretch { journal := {} }) = [0] := by decide +kernel
  rcases exampleGrowth.trace_remembered (by decide) (by decide) [exampleRaise] earlier
      exampleStretch rfl {} {} with ⟨error, finish, final, _, ranToo⟩ |
    ⟨recorded, finish, answer, final, rename, ran, ranToo, renamed, _, _, _, same⟩
  · rw [ranToo] at numberedToo
    cases numberedToo
  · rw [ran] at numbered
    rw [ranToo] at numberedToo
    exact ⟨recorded, finish, answer, final, rename, ran, ranToo, numbered, numberedToo, renamed,
      same⟩

end ShaderKit
