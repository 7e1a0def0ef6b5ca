import ShaderKit.Proofs.Host.Computed
import ShaderKit.Proofs.Module.Writing
import ShaderKit.Proofs.Recording.PostOrder

/-!
# Recordings are defined before use

However a body is recorded, also with nodes of blocks that are closed and after failures that it
catches, the definitions of the recording stand before their uses. So its evaluation reads no
value too early, and its text spells no value that has a name.
-/

namespace ShaderKit

/-! ## Sessions -/

theorem Program.attempt_sound {program : Program} {function : ShaderFunction} {session : Session}
    (known : program.find? function.id = some function)
    (sound : session.context.Sound program) :
    (program.attempt session function).context.Sound program := by
  have meets := program.traceWithin_records (program.functions.length + 1) function session known
    sound
  unfold attempt
  rcases meets.ends with ⟨_, _, ran, finishSound, _⟩ | ⟨_, _, ran, finishSound, _⟩
  · rw [Program.trace, ran]
    exact finishSound
  · rw [Program.trace, ran]
    exact finishSound

/-- After traces of functions of a program, the recordings of the context follow the rules. -/
theorem Program.attemptAll_sound {program : Program} {functions : List ShaderFunction}
    {session : Session} (known : ∀ function ∈ functions, program.find? function.id = some function)
    (sound : session.context.Sound program) :
    (program.attemptAll functions session).context.Sound program := by
  induction functions generalizing session with
  | nil => exact sound
  | cons function rest induction =>
      exact induction (fun other member => known other (List.mem_cons_of_mem _ member))
        (attempt_sound (known function List.mem_cons_self) sound)

/-! ## Definitions before uses -/

/-- Definitions dominate uses. After any traces, however they ended, a recording that is traced
has operands only before the expressions they belong to; a statement only uses nodes that are
spelled out by parameters, literals, constants, bindings, and what was bound or declared earlier
in its block or around it; where the statement is written, every other node is spelled by its
name; and evaluating the recording reads no value before it was computed. -/
theorem Program.trace_definedBeforeUse {program : Program} {functions : List ShaderFunction}
    {function : ShaderFunction} {journal : Journal} {recorded : RecordedFunction}
    {finish : Session}
    (known : ∀ other ∈ function :: functions, program.find? other.id = some other)
    (traced : program.trace function (program.attemptAll functions { journal := journal }) =
      .ok recorded finish) :
    (∀ (index : Nat) entry, recorded.expressions[index]? = some entry →
      ∀ operand ∈ entry.expression.operands, operand.index < index) ∧
    (∀ block, recorded.body = .statements block →
      (∀ bound node, Stands [] block bound (.emit node) →
        ∃ entry, recorded.entry? node = some entry ∧ entry.isInlined = false) ∧
      (∀ bound statement, Stands [] block bound statement → ∀ node ∈ recorded.uses statement,
        Ready recorded.expressions bound node.index) ∧
      ∀ identifier names registry,
        let scope := recorded.bodyScope names registry
        let writer := recorded.bodyWriter identifier names registry
        writer.bound = [] ∧ ∀ current statement, scope.Writes writer block current statement →
          ∀ node ∈ recorded.uses statement,
            scope.Spells current.bound node (scope.text current.bound node)) ∧
    ∀ fuel arguments name, recorded.evaluate finish.context fuel arguments ≠
      .error (.failed (.unsupported name (.host .notComputed))) := by
  have empty : ({ journal := journal } : Session).context.Sound program :=
    TraceContext.sound_empty program
  have before := Program.attemptAll_sound
    (fun other member => known other (List.mem_cons_of_mem _ member)) empty
  have records := program.traceWithin_records (program.functions.length + 1) function
    (program.attemptAll functions { journal := journal }) (known function List.mem_cons_self)
    before
  rcases records.ends with ⟨result, session, ran, sound, _, _, recordedSound, _⟩ | ⟨_, _, ran, _⟩
  · cases traced.symm.trans ran
    have ordered : Activation.Ordered recorded.expressions :=
      fun index entry found => (recordedSound.entries index entry found).earlier
    refine ⟨ordered, ?_, ?_⟩
    · intro block body
      have checked := recordedSound.checked block body
      refine ⟨?_, ?_, ?_⟩
      · intro bound node stands
        rcases stands.checked checked with ⟨inner, nodeChecked⟩
        simp only [Statement.Checked] at nodeChecked
        rcases nodeChecked with ⟨entry, found, notInlined, _⟩
        exact ⟨entry, found, notInlined⟩
      · intro bound statement stands
        rcases stands.checked checked with ⟨inner, statementChecked⟩
        exact statementChecked.ready
      · intro identifier names registry scope writer
        refine ⟨recorded.bodyWriter_bound identifier names registry, ?_⟩
        intro current statement writes
        have unnamed : writer.Names [] := fun _ impossible => nomatch impossible
        exact writes.spells ordered checked unnamed
    · intro fuel arguments name failed
      have computes := sound.evaluate_computes fuel recordedSound arguments
      rw [failed] at computes
      exact computes name rfl
  · cases traced.symm.trans ran

def exampleClosedBlock : ShaderFunction where
  id := ⟨0⟩
  signature := ⟨"closedBlock", [⟨"number", .u32⟩], some .u32, none⟩
  implementation := .script
    (.ofList [
      .declare "total" none (.register "$0"),
      .branch (.literal (.bool true))
        (.ofList [.binary "sum" .add (.register "total") (.register "$0")]) .done,
      .attempt (.ofList [.store "total" (.register "sum")]),
      .binary "double" .add (.register "total") (.register "total"),
      .store "total" (.register "double")])
    (some (.register "total"))

def Program.block? (program : Program) (function : ShaderFunction) (session : Session) :
    Option Block :=
  match program.trace function session with
  | .error _ _ => none
  | .ok recorded _ =>
      match recorded.body with
      | .raw _ => none
      | .statements block => some block

theorem Program.exists_of_block? {program : Program} {function : ShaderFunction}
    {session : Session} (succeeds : (program.block? function session).isSome) :
    ∃ recorded finish block, program.trace function session = .ok recorded finish ∧
      recorded.body = .statements block := by
  unfold block? at succeeds
  split at succeeds
  next => cases succeeds
  next recorded finish traced =>
    split at succeeds
    next => cases succeeds
    next block body => exact ⟨recorded, finish, block, traced, body⟩

theorem trace_definedBeforeUse_exampleClosedBlock :
    let program : Program := ⟨[exampleClosedBlock]⟩
    ∃ recorded finish block,
      program.trace exampleClosedBlock (program.attemptAll [] {}) = .ok recorded finish ∧
      recorded.body = .statements block ∧
      (∀ bound statement, Stands [] block bound statement → ∀ node ∈ recorded.uses statement,
        Ready recorded.expressions bound node.index) ∧
      ∀ fuel arguments name, recorded.evaluate finish.context fuel arguments ≠
        .error (.failed (.unsupported name (.host .notComputed))) := by
  intro program
  have known : ∀ other ∈ [exampleClosedBlock], program.find? other.id = some other := by
    intro other member
    rw [List.mem_singleton.mp member]
    rfl
  have succeeds : (program.block? exampleClosedBlock (program.attemptAll [] {})).isSome := by
    decide +kernel
  rcases Program.exists_of_block? succeeds with ⟨recorded, finish, block, traced, body⟩
  rcases Program.trace_definedBeforeUse known traced with ⟨_, statements, computed⟩
  exact ⟨recorded, finish, block, traced, body, (statements block body).2.1, computed⟩

end ShaderKit
