import ShaderKit.Proofs.Recording.Journals

/-!
# Recording and the bodies of other functions

What is recorded of a function depends on the bodies of the functions that it mentions, directly
or through others, and on no other functions of its program but their number.
-/

namespace ShaderKit

/-- Other surroundings for the same function, which find and trace the given functions alike. -/
structure Surroundings.AgreeOn (ids : List FunctionId) (around other : Surroundings) : Prop where
  function : other.function = around.function
  found : ∀ id ∈ ids, other.program.find? id = around.program.find? id
  traced : ∀ id ∈ ids, ∀ callee, around.program.find? id = some callee →
    other.trace callee = around.trace callee

section

variable {around other : Surroundings}

theorem Surroundings.AgreeOn.subset {ids fewer : List FunctionId}
    (agree : AgreeOn ids around other) (within : fewer ⊆ ids) : AgreeOn fewer around other where
  function := agree.function
  found id member := agree.found id (within member)
  traced id member := agree.traced id (within member)

/-! ## Scripts -/

open Recording

theorem Recording.calling_of_agree {id : FunctionId} {sources : List Operand}
    {next : ShaderFunction × List Node → Recording Unit} (agree : around.AgreeOn [id] other) :
    calling other id sources next = calling around id sources next := by
  have same := agree.found id List.mem_cons_self
  unfold calling called
  rw [agree.function]
  cases found : around.program.find? id with
  | none => simp only [callee, same, found]; rfl
  | some callee =>
      have traced := agree.traced id List.mem_cons_self callee found
      simp only [Recording.callee, same, found, pure_bind, bind_assoc, noteCallee, traced]

mutual
theorem Action.perform_of_agree : ∀ {action : Action}, around.AgreeOn action.mentioned other →
    action.perform other = action.perform around := by
  intro action agree
  cases action with
  | call out id sources =>
      rw [perform_call, perform_call, agree.function]
      exact calling_of_agree agree
  | callVoid id sources =>
      rw [perform_callVoid, perform_callVoid]
      exact calling_of_agree agree
  | branch test accept reject =>
      have accepted := accept.perform_of_agree (agree.subset (List.subset_append_left _ _))
      have rejected := reject.perform_of_agree (agree.subset (List.subset_append_right _ _))
      rw [Action.perform, Action.perform, accepted, rejected, agree.function]
  | loop body | attempt body | adopt name out body =>
      have same := body.perform_of_agree agree
      rw [Action.perform, Action.perform, same]
  | range counter start stop body =>
      have same := body.perform_of_agree agree
      rw [Action.perform, Action.perform, same, agree.function]
  | _ => simp only [Action.perform, agree.function]

theorem Script.perform_of_agree : ∀ {script : Script}, around.AgreeOn script.mentioned other →
    script.perform other = script.perform around := by
  intro script agree
  cases script with
  | done => rfl
  | step action rest =>
      have first := action.perform_of_agree (agree.subset (List.subset_append_left _ _))
      have later := rest.perform_of_agree (agree.subset (List.subset_append_right _ _))
      rw [Script.perform, Script.perform, first, later]
end

/-! ## Traces -/

namespace Tracing

theorem recordReferences_of_agree {references : List (String × FunctionId)}
    {known : List FunctionId} (agree : around.AgreeOn (references.map Prod.snd) other) :
    recordReferences other known references = recordReferences around known references := by
  induction references generalizing known with
  | nil => rfl
  | cons reference rest induction =>
      have same := agree.found _ List.mem_cons_self
      have others := fun known =>
        @induction known (agree.subset (List.subset_cons_self _ _))
      unfold recordReferences
      rw [same, agree.function]
      cases found : around.program.find? reference.2 with
      | none => rfl
      | some callee =>
          have traced := agree.traced _ List.mem_cons_self callee found
          simp only [traced, others]

theorem record_of_agree (agree : around.AgreeOn around.function.implementation.mentioned other) :
    record other = record around := by
  unfold record
  rw [agree.function]
  cases implemented : around.function.implementation with
  | script body result =>
      rw [implemented] at agree
      dsimp only
      unfold recordScript
      rw [agree.function, body.perform_of_agree agree]
  | raw text references =>
      rw [implemented] at agree
      dsimp only
      rw [recordReferences_of_agree agree]

end Tracing

end

namespace Program

def AgreesFrom (program other : Program) (root : ShaderFunction) : Prop :=
  ∀ caller, Relation.ReflTransGen program.Mentions root caller →
    ∀ id ∈ caller.implementation.mentioned, other.find? id = program.find? id

theorem traceWithin_of_agrees {program other : Program} {function : ShaderFunction}
    (agrees : program.AgreesFrom other function) (depth : Nat) :
    other.traceWithin depth function = program.traceWithin depth function := by
  induction depth generalizing function with
  | zero => rfl
  | succ depth induction =>
      let around : Surroundings := ⟨program, program.traceWithin depth, function⟩
      have agree : around.AgreeOn around.function.implementation.mentioned
          ⟨other, other.traceWithin depth, function⟩ :=
        { function := rfl
          found := agrees function .refl
          traced := fun id mentioned callee found =>
            induction fun caller reached => agrees caller (.head ⟨id, mentioned, found⟩ reached) }
      exact congrArg (Tracing.once function) (Tracing.record_of_agree agree)

end Program

end ShaderKit
