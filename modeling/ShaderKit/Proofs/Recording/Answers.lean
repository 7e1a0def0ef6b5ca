import ShaderKit.Proofs.Recording.Requests

/-!
# The answers to requests

Recording a body goes on after a request, and it may go on after a request that failed, if the
failure is swallowed. What the answer left is kept either way. Where no failure is swallowed,
success means that all requests were answered with recordings.
-/

namespace ShaderKit

open Recording

def Request.finish (request : Request) (trace : ShaderFunction → Tracing RecordedFunction) :
    Session :=
  (trace request.function).endOf request.session

/-- A request was answered before recording came to its end. If the answer was a recording, its
function is noted. -/
structure Request.Passed (request : Request) (around : Surroundings) (finish : Recorder) :
    Prop where
  continues : (request.finish around.trace).context.Continues finish.session.context
  noted : ∀ recorded after, around.trace request.function request.session = .ok recorded after →
    request.function.id ∈ finish.callees

namespace Request.Passed

variable {around : Surroundings} {request : Request} {middle finish : Recorder}

theorem later (passed : request.Passed around middle) (records : RecordsForward around.trace)
    (becomes : middle.Becomes around finish) : request.Passed around finish where
  continues := passed.continues.trans (becomes.proceeds records).continues
  noted recorded after ran := becomes.within.callees _ (passed.noted recorded after ran)

theorem opened (passed : request.Passed around finish) (deeper : Nat) :
    request.Passed around (finish.opened deeper) :=
  ⟨passed.continues, passed.noted⟩

theorem closed (passed : request.Passed around finish) (deeper : Nat) :
    request.Passed around (finish.closed deeper) :=
  ⟨passed.continues, passed.noted⟩

theorem addStatement (passed : request.Passed around finish) (statement : Statement) :
    request.Passed around (finish.addStatement statement) where
  continues := by
    rw [Recorder.session_addStatement]
    exact passed.continues
  noted recorded after ran := by
    rw [Recorder.callees_addStatement]
    exact passed.noted recorded after ran

end Request.Passed

/-! ## Recording goes on after requests -/

namespace Recording

variable {around : Surroundings} {start : Recorder} {request : Request} {α β : Type}

theorem finishOf_bind_of_ok {work : Recording α} {next : α → Recording β} {value : α}
    {middle : Recorder} (ran : work start = .ok value middle) :
    finishOf (work >>= next) start = finishOf (next value) middle := by
  rw [finishOf, finishOf, bind_of_ok ran]

theorem passed_bind {work : Recording α} {next : α → Recording β}
    (passed : request.Passed around (finishOf work start))
    (rest : ∀ value middle, work start = .ok value middle →
      request.Passed around middle → request.Passed around (finishOf (next value) middle)) :
    request.Passed around (finishOf (work >>= next) start) := by
  cases ran : work start with
  | ok value middle =>
      rw [finishOf_of_ok ran] at passed
      rw [finishOf_bind_of_ok ran]
      exact rest value middle ran passed
  | error error middle =>
      rw [finishOf_of_error ran] at passed
      rw [finishOf_of_error (bind_of_error ran)]
      exact passed

theorem passed_bind_follows (records : RecordsForward around.trace) {work : Recording α}
    {next : α → Recording β} (passed : request.Passed around (finishOf work start))
    (follows : ∀ value middle, Follows around (next value) middle) :
    request.Passed around (finishOf (work >>= next) start) :=
  passed_bind passed fun value middle _ passed =>
    passed.later records (follows value middle).becomes

theorem finishOf_inside (deeper : Nat) (body : Recording Unit) :
    finishOf (inside deeper body) start =
      (finishOf body (start.opened deeper)).closed deeper := by
  cases ran : body (start.opened deeper) with
  | ok result finish => rw [finishOf_of_ok (inside_of_ok ran), finishOf_of_ok ran]
  | error error finish => rw [finishOf_of_error (inside_of_error ran), finishOf_of_error ran]

theorem inside_passed {deeper : Nat} {body : Recording Unit}
    (passed : request.Passed around (finishOf body (start.opened deeper))) :
    request.Passed around (finishOf (inside deeper body) start) := by
  rw [finishOf_inside]
  exact passed.closed deeper

theorem inside_bind_addStatement_passed {deeper : Nat} {body : Recording Unit}
    {statement : Block → Statement}
    (passed : request.Passed around (finishOf body (start.opened deeper))) :
    request.Passed around (finishOf (do
      let block ← inside deeper body
      addStatement (statement block)) start) :=
  passed_bind (inside_passed passed) fun block _ _ passed => passed.addStatement (statement block)

theorem callResult_follows {callee : ShaderFunction} {values : List Node}
    (noted : callee.id ∈ start.callees) :
    Follows around (callResult around.function callee values) start := by
  unfold callResult
  split
  next => exact .refuse _ _
  next type _ => exact addValue_follows type noted trivial

theorem calling_passed {id : FunctionId} {sources : List Operand}
    {next : ShaderFunction × List Node → Recording Unit} (records : RecordsForward around.trace)
    (follows : ∀ prepared state, prepared.1.id ∈ state.callees →
      Follows around (next prepared) state)
    (asks : CallAsks around id sources start request) :
    request.Passed around (finishOf (calling around id sources next) start) := by
  rcases asks with ⟨prepared, state, asked, rfl⟩
  rw [calling, finishOf_bind_of_ok asked]
  apply passed_bind
  · cases traced : around.trace prepared.1 state.session with
    | ok recorded session =>
        have noted := noteCallee_of_ok traced
        rw [finishOf_of_ok noted]
        refine ⟨?_, fun _ _ _ => mem_callees_of_noteCallee noted⟩
        rw [Request.finish, Tracing.endOf, traced]
        exact .refl _
    | error error session =>
        rw [finishOf_of_error (noteCallee_of_error traced)]
        constructor
        · rw [Request.finish, Tracing.endOf, traced]
          exact .refl _
        · intro recorded final ran
          cases traced.symm.trans ran
  · intro _ middle noted passed
    exact passed.later records (follows prepared middle (mem_callees_of_noteCallee noted)).becomes

theorem attempt_passed (records : RecordsForward around.trace) {work : Recording Unit}
    (passed : request.Passed around (finishOf work start)) :
    request.Passed around (finishOf (attempt work) start) := by
  have noted : ∃ note, attempt work start = addNote note (finishOf work start) := by
    unfold attempt finishOf
    cases work start with
    | ok result middle => exact ⟨_, rfl⟩
    | error error middle => exact ⟨_, rfl⟩
  rcases noted with ⟨note, same⟩
  rw [finishOf, same]
  exact passed.later records (addNote_follows around note).becomes

end Recording

mutual
theorem Action.Asks.passed {around : Surroundings} {request : Request}
    (records : RecordsForward around.trace) : ∀ {action : Action} {start : Recorder},
    action.Asks around start request →
      request.Passed around (finishOf (action.perform around) start) := by
  intro action start asks
  cases action with
  | call out id sources =>
      rw [perform_call]
      exact calling_passed records
        (fun _ _ noted => keep_follows (callResult_follows noted) out) asks
  | callVoid id sources =>
      rw [perform_callVoid]
      refine calling_passed records (fun prepared state noted => ?_) asks
      have covered : ∀ callee ∈ (Statement.callVoid prepared.1.id prepared.2).calls,
          callee ∈ state.callees := by
        intro callee member
        rw [Statement.calls, List.mem_singleton] at member
        exact member ▸ noted
      exact .of_ok rfl (.statement rfl covered trivial)
  | branch test accept reject =>
      rcases asks with ⟨node, middle, tested, asks⟩
      rw [Action.perform, branch, finishOf_bind_of_ok tested, inBlock_eq, inBlock_eq]
      rcases asks with asks | ⟨block, accepted, acceptRan, asks⟩
      · apply passed_bind (inside_passed (Script.Asks.passed records asks))
        intro block accepted _ passed
        apply inside_bind_addStatement_passed
        exact (passed.opened 0).later records (reject.perform_follows around _).becomes
      · rw [finishOf_bind_of_ok acceptRan]
        exact inside_bind_addStatement_passed (Script.Asks.passed records asks)
  | loop body =>
      rw [Action.perform, loop, looped_eq]
      exact inside_bind_addStatement_passed (Script.Asks.passed records asks)
  | range counter first last body =>
      rcases asks with ⟨head, middle, node, state, headed, counted, asks⟩
      rw [Action.perform, range_eq, finishOf_bind_of_ok headed]
      apply inside_bind_addStatement_passed
      rw [finishOf_bind_of_ok counted]
      exact Script.Asks.passed records asks
  | attempt body => exact attempt_passed records (Script.Asks.passed records asks)
  | adopt name out body =>
      rcases asks with ⟨node, published, asks⟩
      rw [Action.perform, finishOf, adopt_of_some published]
      exact Script.Asks.passed records asks
  | _ => exact False.elim asks

theorem Script.Asks.passed {around : Surroundings} {request : Request}
    (records : RecordsForward around.trace) : ∀ {script : Script} {start : Recorder},
    script.Asks around start request →
      request.Passed around (finishOf (script.perform around) start) := by
  intro script start asks
  cases script with
  | done => exact False.elim asks
  | step action rest =>
      rw [Script.perform]
      rcases asks with asks | ⟨middle, ran, asks⟩
      · exact passed_bind_follows records (Action.Asks.passed records asks)
          fun _ middle => rest.perform_follows around middle
      · rw [finishOf_bind_of_ok ran]
        exact Script.Asks.passed records asks
end

/-! ## Success answers all requests -/

theorem Recording.calling_answer {around : Surroundings} {start finish : Recorder}
    {request : Request} {id : FunctionId} {sources : List Operand}
    {next : ShaderFunction × List Node → Recording Unit}
    (asks : CallAsks around id sources start request)
    (ran : calling around id sources next start = .ok () finish) : ∃ recorded after,
      around.trace request.function request.session = .ok recorded after := by
  rcases asks with ⟨prepared, state, asked, rfl⟩
  rw [calling, bind_of_ok asked] at ran
  rcases bind_ran_ok.mp ran with ⟨_, middle, noted, _⟩
  cases traced : around.trace prepared.1 state.session with
  | ok recorded session => exact ⟨recorded, session, rfl⟩
  | error error session =>
      rw [noteCallee_of_error traced] at noted
      cases noted

mutual
theorem Action.Asks.exists_answer {around : Surroundings} {request : Request} :
    ∀ {action : Action} {start finish : Recorder}, action.Asks around start request →
      action.swallows = false → action.perform around start = .ok () finish →
      ∃ recorded after, around.trace request.function request.session = .ok recorded after := by
  intro action start finish asks strict ran
  cases action with
  | call out id sources =>
      rw [perform_call] at ran
      exact calling_answer asks ran
  | callVoid id sources =>
      rw [perform_callVoid] at ran
      exact calling_answer asks ran
  | branch test accept reject =>
      rcases Bool.or_eq_false_iff.mp strict with ⟨acceptStrict, rejectStrict⟩
      rcases asks with ⟨node, middle, tested, asks⟩
      rw [Action.perform, branch, bind_of_ok tested, inBlock_eq, inBlock_eq] at ran
      rcases bind_ran_ok.mp ran with ⟨block, accepted, acceptRan, ran⟩
      rcases bind_ran_ok.mp ran with ⟨_, rejected, rejectRan, _⟩
      rcases asks with asks | ⟨_, _, same, asks⟩
      · rcases inside_ran_ok.mp acceptRan with ⟨state, ended, _⟩
        exact Script.Asks.exists_answer asks acceptStrict ended
      · rw [acceptRan] at same
        cases same
        rcases inside_ran_ok.mp rejectRan with ⟨state, ended, _⟩
        exact Script.Asks.exists_answer asks rejectStrict ended
  | loop body =>
      rw [Action.perform, loop, looped_eq] at ran
      rcases bind_ran_ok.mp ran with ⟨_, _, bodyRan, _⟩
      rcases inside_ran_ok.mp bodyRan with ⟨state, ended, _⟩
      exact Script.Asks.exists_answer asks strict ended
  | range counter first last body =>
      rcases asks with ⟨head, middle, node, state, headed, counted, asks⟩
      rw [Action.perform, range_eq, bind_of_ok headed] at ran
      rcases bind_ran_ok.mp ran with ⟨_, _, bodyRan, _⟩
      rcases inside_ran_ok.mp bodyRan with ⟨finish, ended, _⟩
      rw [bind_of_ok counted] at ended
      exact Script.Asks.exists_answer asks strict ended
  | attempt body => cases strict
  | adopt name out body =>
      rcases asks with ⟨node, published, asks⟩
      simp only [Action.perform] at ran
      rw [adopt_of_some published] at ran
      exact Script.Asks.exists_answer asks strict ran
  | _ => exact False.elim asks

theorem Script.Asks.exists_answer {around : Surroundings} {request : Request} :
    ∀ {script : Script} {start finish : Recorder}, script.Asks around start request →
      script.swallows = false → script.perform around start = .ok () finish →
      ∃ recorded after, around.trace request.function request.session = .ok recorded after := by
  intro script start finish asks strict ran
  cases script with
  | done => exact False.elim asks
  | step action rest =>
      rcases Bool.or_eq_false_iff.mp strict with ⟨actionStrict, restStrict⟩
      rcases bind_ran_ok.mp ran with ⟨_, middle, actionRan, ran⟩
      rcases asks with asks | ⟨_, same, asks⟩
      · exact Action.Asks.exists_answer asks actionStrict actionRan
      · rw [actionRan] at same
        cases same
        exact Script.Asks.exists_answer asks restStrict ran
end

end ShaderKit
