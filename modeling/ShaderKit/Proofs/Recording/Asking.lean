import ShaderKit.Proofs.Recording.Answers

/-!
# What recording a function asks for

A recording is decided by the answers to its requests. They come for functions of the program,
in sessions that proceed from its start. A recursive call that makes it fail is the answer to
one of them, and where nothing is swallowed, success answers all of them.
-/

namespace ShaderKit

namespace Tracing

open Recording

variable {around : Surroundings} {trace : ShaderFunction → Tracing RecordedFunction}
  {start finish : Session} {request : Request}

theorem asks_of_script {body : Script} {result : Option Operand}
    (scripted : around.function.implementation = .script body result) :
    Asks around start request ↔ ∃ state,
      addParameters around.function 0 around.function.signature.parameters
        { session := start } = .ok () state ∧ body.Asks around state request := by
  rw [Asks, scripted]

theorem asks_of_raw {text : String} {references : List (String × FunctionId)}
    (raw : around.function.implementation = .raw text references) :
    Asks around start request ↔ ReferencesAsk around references start request := by
  rw [Asks, raw]

/-! ## Answers that are not asked for do not matter -/

theorem recordReferences_congr {references : List (String × FunctionId)}
    {known : List FunctionId} (same : ∀ request, ReferencesAsk around references start request →
      request.SameAnswer trace around.trace) :
    recordReferences (around.asking trace) known references start =
      recordReferences around known references start := by
  induction references generalizing known start with
  | nil => rfl
  | cons reference rest induction =>
      rcases reference with ⟨name, id⟩
      unfold recordReferences
      cases found : around.program.find? id with
      | none =>
          have found : (around.asking trace).program.find? id = none := found
          rw [found]
          rfl
      | some callee =>
          have known : (around.asking trace).program.find? id = some callee := found
          rw [known]
          apply bind_ran_congr
          · exact discard_congr (same ⟨callee, start⟩ ⟨callee, found, .inl rfl⟩)
          · intro _ after ran
            rcases discard_ran_ok.mp ran with ⟨recorded, ran⟩
            apply induction
            intro request asks
            exact same request ⟨callee, found, .inr ⟨recorded, after, ran, asks⟩⟩

theorem record_congr
    (same : ∀ request, Asks around start request → request.SameAnswer trace around.trace) :
    record (around.asking trace) start = record around start := by
  cases implemented : around.function.implementation with
  | script body result =>
      have other : (around.asking trace).function.implementation = .script body result :=
        implemented
      rw [record_of_script implemented, record_of_script other, recording, recording]
      have worked : scriptWork (around.asking trace) body result { session := start } =
          scriptWork around body result { session := start } := by
        apply bind_ran_congr rfl
        intro _ state ran
        apply bind_ran_congr _ fun _ _ _ => rfl
        apply body.perform_congr
        intro request asks
        exact same request ((asks_of_script implemented).mpr ⟨state, ran, asks⟩)
      rw [worked]
  | raw text references =>
      have other : (around.asking trace).function.implementation = .raw text references :=
        implemented
      rw [record_of_raw implemented, record_of_raw other]
      apply bind_ran_congr _ fun _ _ _ => rfl
      apply recordReferences_congr
      intro request asks
      exact same request ((asks_of_raw implemented).mpr asks)

/-! ## Where requests come from -/

theorem Asks.comes {body : Script} {result : Option Operand}
    (scripted : around.function.implementation = .script body result)
    (asks : Asks around start request) :
    Recorder.Comes around { session := start } request := by
  rcases (asks_of_script scripted).mp asks with ⟨state, ran, asks⟩
  exact (Script.Asks.comes asks).after (addParameters_follows.becomes_of_ok ran)

theorem ReferencesAsk.known {references : List (String × FunctionId)}
    (asks : ReferencesAsk around references start request) :
    around.program.find? request.function.id = some request.function := by
  induction references generalizing start with
  | nil => exact False.elim asks
  | cons reference rest induction =>
      rcases asks with ⟨callee, found, rfl | ⟨_, _, _, asks⟩⟩
      · exact Program.find?_id found ▸ found
      · exact induction asks

theorem Asks.known (asks : Asks around start request) :
    around.program.find? request.function.id = some request.function := by
  cases implemented : around.function.implementation with
  | script body result => exact (asks.comes implemented).known
  | raw text references => exact ((asks_of_raw implemented).mp asks).known

section

variable {concerns : ShaderFunction → Prop} {passes : TraceContext → TraceContext → Prop}
  (steps : TraceContext.Steps around.program concerns passes)
  (records : RecordsWithin concerns passes around.trace)

include steps records

theorem ReferencesAsk.within {references : List (String × FunctionId)}
    (asks : ReferencesAsk around references start request) :
    passes start.context request.session.context := by
  induction references generalizing start with
  | nil => exact False.elim asks
  | cons reference rest induction =>
      rcases asks with ⟨callee, found, rfl | ⟨_, _, ran, asks⟩⟩
      · exact steps.refl _
      · have known := steps.known callee (Program.find?_id found ▸ found)
        exact steps.trans ((records callee start known).ok ran) (induction asks)

theorem Asks.within (asks : Asks around start request) :
    passes start.context request.session.context := by
  cases implemented : around.function.implementation with
  | script body result =>
      rcases (asks.comes implemented).reached with ⟨state, becomes, same⟩
      exact same ▸ becomes.passes steps records
  | raw text references =>
      exact ((asks_of_raw implemented).mp asks).within steps records

end

theorem Asks.proceeds (records : RecordsForward around.trace)
    (asks : Asks around start request) : start.context.Proceeds request.session.context :=
  asks.within (TraceContext.proceeds_passage around.program).toSteps
    fun function session _ => records function session

theorem ReferencesAsk.ordered {references : List (String × FunctionId)}
    (records : RecordsInOrder around.trace) (ordered : start.context.Ordered)
    (asks : ReferencesAsk around references start request) : request.session.context.Ordered := by
  induction references generalizing start with
  | nil => exact False.elim asks
  | cons reference rest induction =>
      rcases asks with ⟨callee, _, rfl | ⟨_, _, ran, asks⟩⟩
      · exact ordered
      · exact induction ((records callee start ordered).ok ran).1 asks

theorem Asks.ordered (records : RecordsInOrder around.trace) (ordered : start.context.Ordered)
    (asks : Asks around start request) : request.session.context.Ordered := by
  cases implemented : around.function.implementation with
  | script body result =>
      rcases (asks.comes implemented).reached with ⟨state, becomes, same⟩
      exact same ▸ (becomes.accounted records (Recorder.accounted_empty ordered)).ordered
  | raw text references => exact ((asks_of_raw implemented).mp asks).ordered records ordered

/-! ## What requests leave is kept -/

theorem scriptWork_passed {body : Script} {state : Recorder} (result : Option Operand)
    (records : RecordsForward around.trace)
    (added : addParameters around.function 0 around.function.signature.parameters
      { session := start } = .ok () state) (asks : body.Asks around state request) :
    request.Passed around (finishOf (scriptWork around body result) { session := start }) := by
  rw [scriptWork, finishOf_bind_of_ok added]
  apply passed_bind_follows records (Script.Asks.passed records asks)
  intro _ performed
  exact (operand?_follows around result).bind fun node _ _ => finish_follows around node

theorem ReferencesAsk.continues {references : List (String × FunctionId)}
    (known : List FunctionId) (records : RecordsForward around.trace)
    (asks : ReferencesAsk around references start request) :
    (request.finish around.trace).context.Continues
      ((recordReferences around known references).endOf start).context := by
  induction references generalizing known start with
  | nil => exact False.elim asks
  | cons reference rest induction =>
      rcases asks with ⟨callee, found, asks⟩
      rw [recordReferences, found]
      dsimp only
      cases traced : around.trace callee start with
      | error error failed =>
          rw [endOf_of_error (bind_of_error (discard_ran_error.mpr traced))]
          rcases asks with rfl | ⟨_, _, ran, _⟩
          · rw [Request.finish, endOf_of_error traced]
            exact .refl _
          · cases traced.symm.trans ran
      | ok recorded after =>
          rw [endOf_bind_of_ok (discard_ran_ok.mpr ⟨recorded, traced⟩)]
          rcases asks with rfl | ⟨_, _, ran, asks⟩
          · rw [Request.finish, endOf_of_ok traced]
            exact TraceContext.Proceeds.continues (recordReferences_proceeds records rest _)
          · cases traced.symm.trans ran
            exact induction _ asks

theorem Asks.continues (records : RecordsForward around.trace)
    (asks : Asks around start request) :
    (request.finish around.trace).context.Continues ((record around).endOf start).context := by
  cases implemented : around.function.implementation with
  | script body result =>
      rcases (asks_of_script implemented).mp asks with ⟨state, added, asks⟩
      rw [record_of_script implemented, endOf_recording]
      exact (scriptWork_passed result records added asks).continues
  | raw text references =>
      rw [record_of_raw implemented, endOf_bind_pure]
      exact ((asks_of_raw implemented).mp asks).continues [] records

theorem mem_recordReferences {references : List (String × FunctionId)}
    {known callees : List FunctionId} {id : FunctionId}
    (ran : recordReferences around known references start = .ok callees finish) :
    id ∈ callees ↔ id ∈ known ∨ ∃ reference ∈ references, reference.2 = id := by
  induction references generalizing known start with
  | nil =>
      cases ran
      simp
  | cons reference rest induction =>
      unfold recordReferences at ran
      cases found : around.program.find? reference.2 with
      | none =>
          rw [found] at ran
          cases ran
      | some callee =>
          rw [found] at ran
          rcases bind_ran_ok.mp ran with ⟨_, _, _, ran⟩
          rw [induction ran, Recorder.mem_addNew, List.exists_mem_cons_iff, or_assoc,
            @eq_comm _ id]

theorem ReferencesAsk.referred {references : List (String × FunctionId)}
    (asks : ReferencesAsk around references start request) :
    ∃ reference ∈ references, reference.2 = request.function.id := by
  induction references generalizing start with
  | nil => exact False.elim asks
  | cons reference rest induction =>
      rcases asks with ⟨callee, found, rfl | ⟨_, _, _, asks⟩⟩
      · exact ⟨reference, List.mem_cons_self, (Program.find?_id found).symm⟩
      · rcases induction asks with ⟨reference, member, same⟩
        exact ⟨reference, List.mem_cons_of_mem _ member, same⟩

theorem Asks.noted {recorded answer : RecordedFunction} {after : Session}
    (records : RecordsForward around.trace) (asks : Asks around start request)
    (ran : record around start = .ok recorded finish)
    (answered : around.trace request.function request.session = .ok answer after) :
    request.function.id ∈ recorded.callees := by
  cases implemented : around.function.implementation with
  | script body result =>
      rcases (asks_of_script implemented).mp asks with ⟨state, added, asks⟩
      rw [record_of_script implemented] at ran
      rcases recording_ran_ok.mp ran with ⟨final, worked, rfl⟩
      have passed := scriptWork_passed result records added asks
      rw [finishOf_of_ok worked] at passed
      rw [scriptWork_recorded worked]
      exact passed.noted answer after answered
  | raw text references =>
      rw [record_of_raw implemented] at ran
      rcases bind_ran_ok.mp ran with ⟨callees, _, ran, ended⟩
      cases ended
      exact (mem_recordReferences ran).mpr (.inr ((asks_of_raw implemented).mp asks).referred)

/-! ## Success answers all requests -/

theorem ReferencesAsk.exists_answer {references : List (String × FunctionId)}
    {known callees : List FunctionId} (asks : ReferencesAsk around references start request)
    (ran : recordReferences around known references start = .ok callees finish) :
    ∃ recorded after,
      around.trace request.function request.session = .ok recorded after := by
  induction references generalizing known start with
  | nil => exact False.elim asks
  | cons reference rest induction =>
      rcases asks with ⟨callee, found, asks⟩
      rw [recordReferences, found] at ran
      rcases bind_ran_ok.mp ran with ⟨_, after, traced, ran⟩
      rcases discard_ran_ok.mp traced with ⟨recorded, traced⟩
      rcases asks with rfl | ⟨_, _, same, asks⟩
      · exact ⟨recorded, after, traced⟩
      · rw [traced] at same
        cases same
        exact induction asks ran

theorem Asks.exists_answer {recorded : RecordedFunction} (asks : Asks around start request)
    (strict : around.function.swallows = false)
    (ran : record around start = .ok recorded finish) :
    ∃ answer after, around.trace request.function request.session = .ok answer after := by
  cases implemented : around.function.implementation with
  | script body result =>
      rw [ShaderFunction.swallows, implemented] at strict
      rw [record_of_script implemented] at ran
      rcases recording_ran_ok.mp ran with ⟨final, worked, rfl⟩
      rcases (asks_of_script implemented).mp asks with ⟨state, added, asks⟩
      rw [scriptWork, bind_of_ok added] at worked
      rcases bind_ran_ok.mp worked with ⟨_, performed, ran, _⟩
      exact Script.Asks.exists_answer asks strict ran
  | raw text references =>
      rw [record_of_raw implemented] at ran
      rcases bind_ran_ok.mp ran with ⟨callees, _, ran, _⟩
      exact ((asks_of_raw implemented).mp asks).exists_answer ran

/-- Where a body swallows no failure, its recording lists all functions that it asked for. -/
theorem Asks.answered {recorded : RecordedFunction} (records : RecordsForward around.trace)
    (asks : Asks around start request) (strict : around.function.swallows = false)
    (ran : record around start = .ok recorded finish) :
    request.function.id ∈ recorded.callees ∧ ∃ answer after,
      around.trace request.function request.session = .ok answer after ∧
        after.context.Continues finish.context := by
  rcases asks.exists_answer strict ran with ⟨answer, after, answered⟩
  have continues := asks.continues records
  rw [Request.finish, endOf_of_ok answered, endOf_of_ok ran] at continues
  exact ⟨asks.noted records ran answered, answer, after, answered, continues⟩

/-! ## Recursive calls come from requests -/

theorem recordReferences_blames {references : List (String × FunctionId)}
    {known : List FunctionId} {error : ShaderError}
    (ran : recordReferences around known references start = .error error finish)
    (recursion : error.isRecursion = true) :
    ∃ callee session failed, around.trace callee session = .error error failed := by
  induction references generalizing known start with
  | nil => cases ran
  | cons reference rest induction =>
      unfold recordReferences at ran
      cases found : around.program.find? reference.2 with
      | none =>
          rw [found] at ran
          cases ran
          cases recursion
      | some callee =>
          rw [found] at ran
          rcases bind_ran_error.mp ran with failed | ⟨_, after, _, ran⟩
          · exact ⟨callee, start, finish, discard_ran_error.mp failed⟩
          · exact induction ran

theorem record_blames {error : ShaderError} (ran : record around start = .error error finish)
    (recursion : error.isRecursion = true) :
    ∃ callee session failed, around.trace callee session = .error error failed := by
  cases implemented : around.function.implementation with
  | script body result =>
      rw [record_of_script implemented] at ran
      rcases recording_ran_error.mp ran with ⟨final, worked, rfl⟩
      exact (scriptWork_follows around body result _).blames error final worked recursion
  | raw text references =>
      rw [record_of_raw implemented] at ran
      rcases bind_ran_error.mp ran with failed | ⟨_, _, _, ended⟩
      · exact recordReferences_blames failed recursion
      · cases ended

def without (error : ShaderError) (trace : ShaderFunction → Tracing RecordedFunction) :
    ShaderFunction → Tracing RecordedFunction := fun function session =>
  match trace function session with
  | .ok recorded finish => .ok recorded finish
  | .error other finish =>
      if other = error then refuse function .nestedTooDeep finish else .error other finish

theorem without_of_ne {error : ShaderError} {function : ShaderFunction}
    (different : ∀ failed, trace function start ≠ .error error failed) :
    without error trace function start = trace function start := by
  unfold without
  split
  next ran => exact ran.symm
  next other failed ran =>
    split
    next same => exact (different failed (same ▸ ran)).elim
    next => exact ran.symm

theorem without_ne {error : ShaderError} (recursion : error.isRecursion = true)
    (function : ShaderFunction) (failed : Session) :
    without error trace function start ≠ .error error failed := by
  unfold without
  split
  next => nofun
  next other _ _ =>
    split
    next =>
      rintro ⟨⟩
      cases recursion
    next different =>
      rintro ⟨⟩
      exact different rfl

theorem exists_asks_of_error {error : ShaderError}
    (ran : record around start = .error error finish) (recursion : error.isRecursion = true) :
    ∃ request failed, Asks around start request ∧
      around.trace request.function request.session = .error error failed := by
  by_contra none
  -- no request is answered like this, so a way of recording that never is makes no difference
  have same : record (around.asking (without error around.trace)) start =
      record around start := by
    apply record_congr
    intro request asks
    exact without_of_ne fun failed answer => none ⟨request, failed, asks, answer⟩
  rcases record_blames (same.trans ran) recursion with ⟨callee, session, failed, answer⟩
  exact without_ne recursion callee failed answer

end Tracing

end ShaderKit
