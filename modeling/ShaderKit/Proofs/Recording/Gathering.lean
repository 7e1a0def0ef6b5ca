import ShaderKit.Proofs.Recording.Occurrences

/-!
# Traces gather what they meet

Whatever a trace meets and however it ends, it numbers just the constants that are listed for
it, in their order. This goes along the scripts, with one case for each kind of action, and from
callees to callers.
-/

namespace ShaderKit

abbrev Tracing.Gathers {α : Type} (work : Tracing α) (start : Session) (log : List Occurrence) :
    Prop :=
  work.Passes (fun before after => before.Gathers log after) start

def RecordsListed (trace : ShaderFunction → Tracing RecordedFunction)
    (inner : ShaderFunction → Session → List Occurrence) : Prop :=
  ∀ function session, (trace function).Gathers session (inner function session)

namespace Recording

variable {around : Surroundings} {inner : ShaderFunction → Session → List Occurrence}
  {start : Recorder}

/-! ## Calls -/

theorem noteCallee_gathers {trace : ShaderFunction → Tracing RecordedFunction}
    (listed : RecordsListed trace inner) (callee : ShaderFunction) :
    Gathers (noteCallee trace callee) start (inner callee start.session) := by
  have gathers := listed callee start.session
  cases ran : trace callee start.session with
  | ok recorded session => exact .of_ok (noteCallee_of_ok ran) (gathers.ok ran)
  | error error session => exact .of_error (noteCallee_of_error ran) (gathers.error ran)

theorem calling_gathers {next : ShaderFunction × List Node → Recording Unit}
    (listed : RecordsListed around.trace inner) (id : FunctionId) (sources : List Operand)
    (uniform : ∀ prepared state, Uniform Eq (next prepared) state state) :
    Gathers (calling around id sources next) start
      (listAfter (called around id sources) start fun prepared state =>
        inner prepared.1 state.session) := by
  apply Gathers.twins_bind (called_uniform around id sources (.refl start))
  intro prepared _ _
  apply Gathers.bind_twins (noteCallee_gathers listed prepared.1)
  intro _ state
  exact uniform prepared state

end Recording

/-! ## Scripts -/

open Recording

mutual
theorem Action.perform_gathers {around : Surroundings}
    {inner : ShaderFunction → Session → List Occurrence} (listed : RecordsListed around.trace inner) :
    ∀ (action : Action) (start : Recorder), Gathers (action.perform around) start
      (action.occurrences around inner start) := by
  intro action start
  cases action with
  | constant out label type value =>
      unfold Action.perform Action.occurrences
      cases type with
      | error error => exact .of_error rfl (.nothing rfl)
      | ok type =>
          apply Gathers.bind_twins (constant_gathers around.function label type value)
          intro node finish
          exact assign_uniform out node (.refl finish)
  | call out id sources =>
      rw [perform_call]
      apply calling_gathers listed
      intro prepared state
      exact keep_twins out (callResult_uniform around.function prepared.1 prepared.2 (.refl state))
  | callVoid id sources =>
      rw [perform_callVoid]
      apply calling_gathers listed
      intro prepared state
      exact addStatement_uniform _ (.refl state)
  | branch test accept reject =>
      apply Gathers.twins_bind (condition_uniform around.function test (.refl start))
      intro node middle _
      rw [inBlock_eq, inBlock_eq]
      apply Gathers.bind (accept.perform_gathers listed (middle.opened 0)).inside
      intro block accepted _
      apply Gathers.bind_twins (reject.perform_gathers listed (accepted.opened 0)).inside
      intro _ finish
      exact addStatement_uniform _ (.refl finish)
  | loop body =>
      simp only [Action.perform, loop, looped_eq]
      apply Gathers.bind_twins (body.perform_gathers listed (start.opened 1)).inside
      intro _ finish
      exact addStatement_uniform _ (.refl finish)
  | range counter first last body =>
      simp only [Action.perform, range_eq]
      apply Gathers.twins_bind (rangeHead_uniform around.function first last (.refl start))
      intro head middle _
      have opened := Recorder.Alike.refl (middle.opened 1)
      have counted := Gathers.twins_bind
        (counterValue_uniform around.function head.counter head.type opened)
        fun node state _ => body.perform_gathers listed (state.withRegister counter node)
      apply Gathers.bind_twins counted.inside
      intro _ finish
      exact addStatement_uniform _ (.refl finish)
  | attempt body => exact (body.perform_gathers listed start).attempt
  | adopt name out body =>
      unfold Action.perform Action.occurrences
      split
      next absent => exact .of_ok (adopt_of_none absent) (.nothing rfl)
      next node found =>
        rw [Gathers, finishOf, adopt_of_some found]
        exact body.perform_gathers listed (start.withRegister out node)
  -- no other action numbers a constant or calls a function
  | _ => exact .of_twins (Action.perform_uniform around rfl (.refl start))

theorem Script.perform_gathers {around : Surroundings}
    {inner : ShaderFunction → Session → List Occurrence} (listed : RecordsListed around.trace inner) :
    ∀ (script : Script) (start : Recorder), Gathers (script.perform around) start
      (script.occurrences around inner start) := by
  intro script start
  cases script with
  | done => exact .of_ok rfl (.nothing rfl)
  | step action rest =>
      apply Gathers.bind (action.perform_gathers listed start)
      intro _ middle _
      exact rest.perform_gathers listed middle
end

/-! ## Recordings -/

namespace Tracing

variable {around : Surroundings} {inner : ShaderFunction → Session → List Occurrence}
  {function : ShaderFunction} {start : Session} {log : List Occurrence}

theorem recording_gathers {α : Type} {work : Recording α}
    (gathers : Recording.Gathers work { session := start } log) :
    Gathers (recording work) start log := by
  cases ran : recording work start with
  | ok result finish =>
      rcases recording_ran_ok.mp ran with ⟨final, worked, rfl⟩
      exact .of_ok ran (gathers.ok worked)
  | error error finish =>
      rcases recording_ran_error.mp ran with ⟨final, worked, rfl⟩
      exact .of_error ran (gathers.error worked)

theorem scriptWork_gathers (listed : RecordsListed around.trace inner) (body : Script)
    (result : Option Operand) (start : Recorder) :
    Recording.Gathers (scriptWork around body result) start
      (listAfter (addParameters around.function 0 around.function.signature.parameters) start
        fun _ state => body.occurrences around inner state) := by
  apply Recording.Gathers.twins_bind (addParameters_uniform _ 0 _ (.refl start))
  intro _ state _
  apply Recording.Gathers.bind_twins (body.perform_gathers listed state)
  intro _ performed
  apply Twins.bind (operand?_uniform around.function result (.refl performed))
  rintro node _ _ _ rfl alike
  exact finish_twins around.function node alike

theorem recordReferences_gathers (listed : RecordsListed around.trace inner)
    (references : List (String × FunctionId)) (known : List FunctionId) (start : Session) :
    Gathers (recordReferences around known references) start
      (listReferences around inner references start) := by
  induction references generalizing known start with
  | nil => exact .of_ok rfl (.nothing rfl)
  | cons reference rest induction =>
      unfold recordReferences listReferences
      cases found : around.program.find? reference.2 with
      | none => exact .of_error rfl (.nothing rfl)
      | some callee =>
          dsimp only
          have gathers := listed callee start
          cases ran : around.trace callee start with
          | ok recorded after =>
              have later := induction (Recorder.addNew known reference.2) after
              have both := (gathers.ok ran).append later
              rw [Gathers, Passes, endOf, bind_of_ok (discard_ran_ok.mpr ⟨recorded, ran⟩)]
              exact both
          | error error after =>
              rw [List.append_nil]
              exact .of_error (bind_of_error (discard_ran_error.mpr ran)) (gathers.error ran)

theorem record_gathers (listed : RecordsListed around.trace inner) (start : Session) :
    Gathers (record around) start (occurrences around inner start) := by
  unfold occurrences
  split
  next body result scripted =>
    rw [record_of_script scripted]
    exact recording_gathers (scriptWork_gathers listed body result _)
  next text references raw =>
    rw [record_of_raw raw]
    have gathers := recordReferences_gathers listed references [] start
    cases ran : recordReferences around [] references start with
    | ok callees finish => exact .of_ok (bind_ran_ok.mpr ⟨callees, finish, ran, rfl⟩) (gathers.ok ran)
    | error error finish => exact .of_error (bind_of_error ran) (gathers.error ran)

theorem once_gathers {body : Tracing RecordedFunction}
    (gathers : start.context.Begins function → Gathers body (entering function start) log)
    (nothing : ¬ start.context.Begins function → log = []) :
    Gathers (once function body) start log := by
  cases ran : once function body start with
  | ok recorded finish =>
      rcases once_ran_ok ran with ⟨found, rfl⟩ | ⟨begins, state, worked, same⟩
      · have known : ¬ finish.context.Begins function := by
          intro begins
          rw [begins.absent] at found
          cases found
        rw [nothing known]
        exact .of_ok ran (.nothing rfl)
      · have entered := (gathers begins).ok worked
        have left : start.context.Gathers log state.context := entered.from_same rfl
        exact .of_ok ran (same ▸ left.to_same rfl)
  | error error finish =>
      rcases once_ran_error ran with ⟨_, linked, _, rfl⟩ | ⟨begins, state, worked, same⟩
      · rw [nothing fun begins => linked begins.unlinked]
        exact .of_error ran (.nothing rfl)
      · have entered := (gathers begins).error worked
        have left : start.context.Gathers log state.context := entered.from_same rfl
        exact .of_error ran (same ▸ left.to_same rfl)

end Tracing

/-! ## Traces -/

namespace Program

theorem traceWithin_gathers (program : Program) (depth : Nat) :
    RecordsListed (program.traceWithin depth) (program.occurrencesWithin depth) := by
  induction depth with
  | zero =>
      intro function session
      exact Tracing.once_gathers (fun _ => .of_error rfl (.nothing rfl)) fun _ => rfl
  | succ depth induction =>
      intro function session
      unfold occurrencesWithin
      apply Tracing.once_gathers
      · intro begins
        rw [if_pos begins]
        exact Tracing.record_gathers induction _
      · intro known
        exact if_neg known

theorem attempt_gathers (program : Program) (function : ShaderFunction) (session : Session) :
    session.context.Gathers
      (program.occurrencesWithin (program.functions.length + 1) function session)
      (program.attempt session function).context := by
  have traced := program.traceWithin_gathers (program.functions.length + 1) function session
  unfold attempt
  split
  next ran => exact traced.ok ran
  next ran => exact traced.error ran

/-- Traces gather the constants that are listed for them, also those that fail. -/
theorem attemptAll_gathers (program : Program) (functions : List ShaderFunction)
    (session : Session) :
    session.context.Gathers (program.occurrences functions session)
      (program.attemptAll functions session).context := by
  induction functions generalizing session with
  | nil => exact .nothing rfl
  | cons function rest induction =>
      exact (program.attempt_gathers function session).append (induction _)

end Program

end ShaderKit
