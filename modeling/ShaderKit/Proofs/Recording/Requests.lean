import ShaderKit.Proofs.Recording.Proceeding

/-!
# The calls that a body makes

Recording a body asks for recordings of other functions, each in some session. Which ones it
asks for is said along the body, as far as its recording comes. A recording depends on the way
in which other functions are recorded only through what it asks for.
-/

namespace ShaderKit

structure Request where
  function : ShaderFunction
  session : Session

/-! ## Asking -/

namespace Recording

def called (around : Surroundings) (id : FunctionId) (sources : List Operand) :
    Recording (ShaderFunction × List Node) := do
  let callee ← callee around.function around.program id
  let nodes ← operands around.function sources
  let values ← checkCall around.function callee nodes
  return (callee, values)

def CallAsks (around : Surroundings) (id : FunctionId) (sources : List Operand)
    (start : Recorder) (request : Request) : Prop :=
  ∃ prepared state, called around id sources start = .ok prepared state ∧
    request = ⟨prepared.1, state.session⟩

end Recording

open Recording

mutual
/-- Performing an action asks for a recording. -/
def Action.Asks (around : Surroundings) : Action → Recorder → Request → Prop
  | .call _ id sources, start, request => CallAsks around id sources start request
  | .callVoid id sources, start, request => CallAsks around id sources start request
  | .branch test accept reject, start, request =>
      ∃ node middle, Recording.condition around.function test start = .ok node middle ∧
        (accept.Asks around (middle.opened 0) request ∨
          ∃ block accepted, inside 0 (accept.perform around) middle = .ok block accepted ∧
            reject.Asks around (accepted.opened 0) request)
  | .loop body, start, request => body.Asks around (start.opened 1) request
  | .range counter first last body, start, request =>
      ∃ head middle node state, rangeHead around.function first last start = .ok head middle ∧
        counterValue around.function head.counter head.type (middle.opened 1) = .ok node state ∧
        body.Asks around (state.withRegister counter node) request
  | .attempt body, start, request => body.Asks around start request
  | .adopt name out body, start, request =>
      ∃ node, start.session.journal.published? name = some node ∧
        body.Asks around (start.withRegister out node) request
  | _, _, _ => False

def Script.Asks (around : Surroundings) : Script → Recorder → Request → Prop
  | .done, _, _ => False
  | .step action rest, start, request =>
      action.Asks around start request ∨
        ∃ middle, action.perform around start = .ok () middle ∧ rest.Asks around middle request
end

mutual
def Action.swallows : Action → Bool
  | .branch _ accept reject => accept.swallows || reject.swallows
  | .loop body => body.swallows
  | .range _ _ _ body => body.swallows
  | .attempt _ => true
  | .adopt _ _ body => body.swallows
  | _ => false

def Script.swallows : Script → Bool
  | .done => false
  | .step action rest => action.swallows || rest.swallows
end

def ShaderFunction.swallows (function : ShaderFunction) : Bool :=
  match function.implementation with
  | .script body _ => body.swallows
  | .raw _ _ => false

namespace Tracing

def ReferencesAsk (around : Surroundings) :
    List (String × FunctionId) → Session → Request → Prop
  | [], _, _ => False
  | (_, id) :: rest, session, request =>
      ∃ callee, around.program.find? id = some callee ∧
        (request = ⟨callee, session⟩ ∨
          ∃ recorded after, around.trace callee session = .ok recorded after ∧
            ReferencesAsk around rest after request)

def Asks (around : Surroundings) (session : Session) (request : Request) : Prop :=
  match around.function.implementation with
  | .script body _ =>
      ∃ start, addParameters around.function 0 around.function.signature.parameters
          { session := session } = .ok () start ∧ body.Asks around start request
  | .raw _ references => ReferencesAsk around references session request

end Tracing

def Surroundings.asking (around : Surroundings)
    (trace : ShaderFunction → Tracing RecordedFunction) : Surroundings :=
  { around with trace := trace }

def Request.SameAnswer (request : Request)
    (trace other : ShaderFunction → Tracing RecordedFunction) : Prop :=
  trace request.function request.session = other request.function request.session

/-! ## Calls -/

namespace Recording

variable {around : Surroundings} {trace : ShaderFunction → Tracing RecordedFunction}
  {start finish : Recorder} {request : Request} {id : FunctionId} {sources : List Operand}

def calling (around : Surroundings) (id : FunctionId) (sources : List Operand)
    (next : ShaderFunction × List Node → Recording Unit) : Recording Unit := do
  let prepared ← called around id sources
  noteCallee around.trace prepared.1
  next prepared

def callResult (function callee : ShaderFunction) (values : List Node) : Recording Node :=
  match callee.signature.result with
  | none => refuse function (.missingResult callee.signature.name)
  | some type => addValue function (.call callee.id values) type

theorem perform_call (around : Surroundings) (out : Register) (id : FunctionId)
    (sources : List Operand) : (Action.call out id sources).perform around =
      calling around id sources fun prepared =>
        keep out (callResult around.function prepared.1 prepared.2) := by
  unfold Action.perform calling called keep call
  simp only [prepareCall_eq, bind_assoc, pure_bind]
  rfl

theorem perform_callVoid (around : Surroundings) (id : FunctionId) (sources : List Operand) :
    (Action.callVoid id sources).perform around =
      calling around id sources fun prepared =>
        addStatement (.callVoid prepared.1.id prepared.2) := by
  unfold Action.perform calling called callVoid
  simp only [prepareCall_eq, bind_assoc, pure_bind]

theorem noteCallee_congr {callee : ShaderFunction}
    {other : ShaderFunction → Tracing RecordedFunction}
    (same : trace callee start.session = other callee start.session) :
    noteCallee trace callee start = noteCallee other callee start := by
  cases ran : other callee start.session with
  | ok recorded session => rw [noteCallee_of_ok ran, noteCallee_of_ok (same.trans ran)]
  | error error session => rw [noteCallee_of_error ran, noteCallee_of_error (same.trans ran)]

theorem calling_congr {next : ShaderFunction × List Node → Recording Unit}
    (same : ∀ request, CallAsks around id sources start request →
      request.SameAnswer trace around.trace) :
    calling (around.asking trace) id sources next start =
      calling around id sources next start := by
  apply bind_ran_congr rfl
  intro prepared state ran
  have answer := same ⟨prepared.1, state.session⟩ ⟨prepared, state, ran, rfl⟩
  exact bind_ran_congr (noteCallee_congr answer) fun _ _ _ => rfl

theorem inside_congr {deeper : Nat} {body other : Recording Unit}
    (same : body (start.opened deeper) = other (start.opened deeper)) :
    inside deeper body start = inside deeper other start := by
  rw [inside, inside, same]

theorem attempt_congr {work other : Recording Unit} (same : work start = other start) :
    attempt work start = attempt other start := by
  rw [attempt, attempt, same]

theorem adopt_of_none {name : String} {out : Register} {body : Recording Unit}
    (absent : start.session.journal.published? name = none) :
    adopt name out body start = .ok () start := by
  have got : (get : Recording Recorder) start = .ok start start := rfl
  rw [adopt, bind_of_ok got, absent]
  rfl

theorem adopt_of_some {name : String} {out : Register} {body : Recording Unit} {node : Node}
    (found : start.session.journal.published? name = some node) :
    adopt name out body start = body (start.withRegister out node) := by
  have got : (get : Recording Recorder) start = .ok start start := rfl
  rw [adopt, bind_of_ok got, found]
  rfl

end Recording

/-! ## Answers that are not asked for do not matter -/

mutual
theorem Action.perform_congr {around : Surroundings}
    {trace : ShaderFunction → Tracing RecordedFunction} : ∀ (action : Action) (start : Recorder),
    (∀ request, action.Asks around start request → request.SameAnswer trace around.trace) →
      action.perform (around.asking trace) start = action.perform around start := by
  intro action start same
  cases action with
  | call out id sources =>
      rw [perform_call, perform_call]
      exact calling_congr same
  | callVoid id sources =>
      rw [perform_callVoid, perform_callVoid]
      exact calling_congr same
  | branch test accept reject =>
      apply bind_ran_congr rfl
      intro node middle tested
      rw [inBlock_eq, inBlock_eq, inBlock_eq, inBlock_eq]
      apply bind_ran_congr
      · apply inside_congr
        apply accept.perform_congr
        intro request asks
        exact same request ⟨node, middle, tested, .inl asks⟩
      · intro block accepted ran
        apply bind_ran_congr _ fun _ _ _ => rfl
        apply inside_congr
        apply reject.perform_congr
        intro request asks
        exact same request ⟨node, middle, tested, .inr ⟨block, accepted, ran, asks⟩⟩
  | loop body =>
      simp only [Action.perform, loop, looped_eq]
      apply bind_ran_congr _ fun _ _ _ => rfl
      apply inside_congr
      exact body.perform_congr _ same
  | range counter first last body =>
      simp only [Action.perform, range_eq]
      apply bind_ran_congr rfl
      intro head middle headed
      apply bind_ran_congr _ fun _ _ _ => rfl
      apply inside_congr
      apply bind_ran_congr rfl
      intro node state counted
      apply body.perform_congr (state.withRegister counter node)
      intro request asks
      exact same request ⟨head, middle, node, state, headed, counted, asks⟩
  | attempt body => exact attempt_congr (body.perform_congr start same)
  | adopt name out body =>
      cases published : start.session.journal.published? name with
      | none =>
          simp only [Action.perform]
          rw [adopt_of_none published, adopt_of_none published]
      | some node =>
          simp only [Action.perform]
          rw [adopt_of_some published, adopt_of_some published]
          apply body.perform_congr
          intro request asks
          exact same request ⟨node, published, asks⟩
  | _ => rfl

theorem Script.perform_congr {around : Surroundings}
    {trace : ShaderFunction → Tracing RecordedFunction} : ∀ (script : Script) (start : Recorder),
    (∀ request, script.Asks around start request → request.SameAnswer trace around.trace) →
      script.perform (around.asking trace) start = script.perform around start := by
  intro script start same
  cases script with
  | done => rfl
  | step action rest =>
      apply bind_ran_congr
      · apply action.perform_congr
        intro request asks
        exact same request (.inl asks)
      · intro _ middle ran
        apply rest.perform_congr
        intro request asks
        exact same request (.inr ⟨middle, ran, asks⟩)
end

/-! ## Requests come in later sessions -/

namespace Recorder

variable {around : Surroundings} {start middle : Recorder} {request : Request}

/-- Recording comes to a request of a function of the program. -/
structure Comes (around : Surroundings) (start : Recorder) (request : Request) : Prop where
  known : around.program.find? request.function.id = some request.function
  reached : ∃ state, start.Becomes around state ∧ state.session = request.session

theorem Comes.after (comes : middle.Comes around request)
    (becomes : start.Becomes around middle) : start.Comes around request where
  known := comes.known
  reached := by
    rcases comes.reached with ⟨state, later, same⟩
    exact ⟨state, .trans becomes later, same⟩

theorem Comes.inside {deeper : Nat} (comes : (start.opened deeper).Comes around request) :
    start.Comes around request where
  known := comes.known
  reached := by
    rcases comes.reached with ⟨state, later, same⟩
    exact ⟨state.closed deeper, .dropped deeper later, same⟩

theorem Comes.counting {type : TypeDescriptor}
    (comes : (start.counting around.function type).Comes around request) :
    start.Comes around request where
  known := comes.known
  reached := by
    rcases comes.reached with ⟨state, later, same⟩
    exact ⟨state.closed 1, .droppedRange later, same⟩

end Recorder

namespace Recording

variable {around : Surroundings} {start finish : Recorder} {request : Request} {id : FunctionId}
  {sources : List Operand}

theorem called_follows : Follows around (called around id sources) start := by
  apply Follows.bind (callee_follows around id)
  intro callee _ _
  apply Follows.bind (operands_follows around sources)
  intro nodes _ _
  apply Follows.bind (checkCall_follows around callee nodes)
  intro values _ _
  exact .pure (callee, values)

theorem find?_of_called {prepared : ShaderFunction × List Node} {state : Recorder}
    (ran : called around id sources start = .ok prepared state) :
    around.program.find? prepared.1.id = some prepared.1 := by
  rcases bind_ran_ok.mp ran with ⟨callee, _, found, ran⟩
  rcases bind_ran_ok.mp ran with ⟨_, _, _, ran⟩
  rcases bind_ran_ok.mp ran with ⟨_, _, _, ran⟩
  cases ran
  exact find?_of_callee found

theorem CallAsks.comes (asks : CallAsks around id sources start request) :
    start.Comes around request := by
  rcases asks with ⟨prepared, state, ran, rfl⟩
  exact ⟨find?_of_called ran, state, called_follows.becomes_of_ok ran, rfl⟩

theorem inside_ran_ok {deeper : Nat} {body : Recording Unit} {block : Block} :
    inside deeper body start = .ok block finish ↔ ∃ state,
      body (start.opened deeper) = .ok () state ∧ block = state.openBlock ∧
        finish = state.closed deeper := by
  unfold inside
  cases body (start.opened deeper) with
  | ok result state =>
      constructor
      · rintro ⟨⟩
        exact ⟨state, rfl, rfl, rfl⟩
      · rintro ⟨_, ⟨⟩, rfl, rfl⟩
        rfl
  | error error state =>
      constructor
      · nofun
      · rintro ⟨_, ⟨⟩, _⟩

theorem inside_becomes {deeper : Nat} {body : Recording Unit} {block : Block}
    (follows : Follows around body (start.opened deeper))
    (ran : inside deeper body start = .ok block finish) : start.Becomes around finish := by
  rcases inside_ran_ok.mp ran with ⟨state, ended, rfl, rfl⟩
  exact .dropped deeper (follows.becomes_of_ok ended)

end Recording

mutual
theorem Action.Asks.comes {around : Surroundings} {request : Request} :
    ∀ {action : Action} {start : Recorder}, action.Asks around start request →
      start.Comes around request := by
  intro action start asks
  cases action with
  | call out id sources => exact CallAsks.comes asks
  | callVoid id sources => exact CallAsks.comes asks
  | branch test accept reject =>
      rcases asks with ⟨node, middle, tested, asks | ⟨block, accepted, ran, asks⟩⟩
      · have becomes := (condition_follows around test).becomes_of_ok tested
        exact (Script.Asks.comes asks).inside.after becomes
      · have becomes := (condition_follows around test).becomes_of_ok tested
        have acceptBecomes := inside_becomes (accept.perform_follows around _) ran
        exact (Script.Asks.comes asks).inside.after (.trans becomes acceptBecomes)
  | loop body => exact (Script.Asks.comes asks).inside
  | range counter first last body =>
      rcases asks with ⟨head, middle, node, state, headed, counted, asks⟩
      rcases rangeHead_ran_ok around headed with ⟨before, becomes, rfl, same⟩
      rw [same] at counted
      have counterBecomes := counterValue_becomes around counted
      have bodyComes := (Script.Asks.comes asks).after (.register state counter node)
      exact (bodyComes.after counterBecomes).counting.after becomes
  | attempt body => exact Script.Asks.comes asks
  | adopt name out body =>
      rcases asks with ⟨node, _, asks⟩
      exact (Script.Asks.comes asks).after (.register start out node)
  | _ => exact False.elim asks

theorem Script.Asks.comes {around : Surroundings} {request : Request} :
    ∀ {script : Script} {start : Recorder}, script.Asks around start request →
      start.Comes around request := by
  intro script start asks
  cases script with
  | done => exact False.elim asks
  | step action rest =>
      rcases asks with asks | ⟨middle, ran, asks⟩
      · exact Action.Asks.comes asks
      · have becomes := (action.perform_follows around start).becomes_of_ok ran
        exact (Script.Asks.comes asks).after becomes
end

end ShaderKit
