import ShaderKit.Proofs.Recording.Balance
import ShaderKit.Proofs.Recording.Occurrences

/-!
# Where actions are performed

A trace performs the actions of its script and, inside their blocks, further actions, and so do
the traces of callees. Each of these actions begins at a state that occurs in the recording of
its function, and so what is true of states that occur is true wherever an action begins.
-/

namespace ShaderKit

/-- An action that is performed in some surroundings, with the recorder where it begins. -/
structure Performance where
  around : Surroundings
  action : Action
  start : Recorder

open Recording

mutual
/-- The actions that performing an action performs in its blocks and in callees. Those of a
callee are given. -/
def Action.performances (around : Surroundings)
    (inner : ShaderFunction → Session → List Performance) : Action → Recorder → List Performance
  | .call _ id sources, start =>
      listAfter (called around id sources) start fun prepared state =>
        inner prepared.1 state.session
  | .callVoid id sources, start =>
      listAfter (called around id sources) start fun prepared state =>
        inner prepared.1 state.session
  | .branch test accept reject, start =>
      listAfter (Recording.condition around.function test) start fun _ middle =>
        accept.performances around inner (middle.opened 0) ++
          listAfter (inside 0 (accept.perform around)) middle fun _ accepted =>
            reject.performances around inner (accepted.opened 0)
  | .loop body, start => body.performances around inner (start.opened 1)
  | .range counter first last body, start =>
      listAfter (rangeHead around.function first last) start fun head middle =>
        listAfter (counterValue around.function head.counter head.type) (middle.opened 1)
          fun node state => body.performances around inner (state.withRegister counter node)
  | .attempt body, start => body.performances around inner start
  | .adopt name out body, start =>
      match start.session.journal.published? name with
      | none => []
      | some node => body.performances around inner (start.withRegister out node)
  | _, _ => []

def Script.performances (around : Surroundings)
    (inner : ShaderFunction → Session → List Performance) : Script → Recorder → List Performance
  | .done, _ => []
  | .step action rest, start =>
      ⟨around, action, start⟩ :: action.performances around inner start ++
        listAfter (action.perform around) start fun _ middle =>
          rest.performances around inner middle
end

def Tracing.performances (around : Surroundings)
    (inner : ShaderFunction → Session → List Performance) (session : Session) :
    List Performance :=
  match around.function.implementation with
  | .script body _ =>
      listAfter (addParameters around.function 0 around.function.signature.parameters)
        { session := session } fun _ start => body.performances around inner start
  | .raw _ references => listReferences around inner references session

def Program.performancesWithin (program : Program) :
    Nat → ShaderFunction → Session → List Performance
  | 0, _, _ => []
  | depth + 1, function, session =>
      if session.context.Begins function then
        Tracing.performances ⟨program, program.traceWithin depth, function⟩
          (program.performancesWithin depth) (Tracing.entering function session)
      else []

/-! ## States where actions begin -/

/-- The action belongs to a recording in these surroundings and begins at a later state, or it
belongs to a callee. -/
def Performance.Follows (around : Surroundings)
    (inner : ShaderFunction → Session → List Performance) (start : Recorder)
    (performance : Performance) : Prop :=
  (performance.around = around ∧ start.Later around performance.start) ∨
    ∃ callee session, performance ∈ inner callee session

variable {around : Surroundings} {inner : ShaderFunction → Session → List Performance}
  {start middle : Recorder} {performance : Performance}

theorem Performance.Follows.earlier (follows : performance.Follows around inner middle)
    (later : start.Later around middle) : performance.Follows around inner start := by
  rcases follows with ⟨own, reached⟩ | called
  · exact .inl ⟨own, later.trans reached⟩
  · exact .inr called

theorem Recording.mem_listAfter {α β : Type} {work : Recording α} {item : β}
    {rest : α → Recorder → List β} (member : item ∈ listAfter work start rest) :
    ∃ result finish, work start = .ok result finish ∧ item ∈ rest result finish := by
  unfold listAfter at member
  split at member
  next result finish ran => exact ⟨result, finish, ran, member⟩
  next => cases member

theorem Recording.later_of_ok {α : Type} {work : Recording α} {result : α}
    (follows : Follows around work start) (ran : work start = .ok result middle) :
    start.Later around middle :=
  .changes (follows.becomes_of_ok ran)

mutual
theorem Action.follows_of_mem_performances : ∀ (action : Action) (start : Recorder),
    ∀ performance ∈ action.performances around inner start,
      performance.Follows around inner start := by
  intro action start performance member
  cases action with
  | call | callVoid =>
      rcases mem_listAfter member with ⟨prepared, state, _, called⟩
      exact .inr ⟨_, _, called⟩
  | branch test accept reject =>
      rcases mem_listAfter member with ⟨node, middle, tested, member⟩
      have later := later_of_ok (condition_follows around test) tested
      rcases List.mem_append.mp member with accepts | member
      · have follows := accept.follows_of_mem_performances _ performance accepts
        exact follows.earlier (later.trans (.enters middle 0))
      · -- the first block has been recorded and closed when the second one opens
        rcases mem_listAfter member with ⟨block, accepted, ran, rejects⟩
        have closed := inside_becomes (accept.perform_follows around _) ran
        have follows := reject.follows_of_mem_performances _ performance rejects
        exact follows.earlier (later.trans (.trans (.changes closed) (.enters accepted 0)))
  | loop body =>
      have follows := body.follows_of_mem_performances _ performance member
      exact follows.earlier (.enters start 1)
  | range counter first last body =>
      rcases mem_listAfter member with ⟨head, middle, headed, member⟩
      rcases mem_listAfter member with ⟨node, state, counted, performed⟩
      rcases rangeHead_ran_ok around headed with ⟨before, becomes, rfl, sameCounter⟩
      rw [sameCounter] at counted
      have counts : before.Later around state :=
        .trans (.counts before head.type) (.changes (counterValue_becomes around counted))
      have follows := body.follows_of_mem_performances _ performance performed
      exact follows.earlier
        (.trans (.changes becomes) (counts.trans (.changes (.register state counter node))))
  | attempt body => exact body.follows_of_mem_performances start performance member
  | adopt name out body =>
      unfold Action.performances at member
      split at member
      next => cases member
      next node found =>
        have follows := body.follows_of_mem_performances _ performance member
        exact follows.earlier (.changes (.register start out node))
  | _ => cases member

theorem Script.follows_of_mem_performances : ∀ (script : Script) (start : Recorder),
    ∀ performance ∈ script.performances around inner start,
      performance.Follows around inner start := by
  intro script start performance member
  cases script with
  | done => cases member
  | step action rest =>
      rcases List.mem_cons.mp member with rfl | member
      · exact .inl ⟨rfl, .changes (.refl start)⟩
      rcases List.mem_append.mp member with inside | member
      · exact action.follows_of_mem_performances start performance inside
      · rcases mem_listAfter member with ⟨_, middle, ran, later⟩
        have follows := rest.follows_of_mem_performances middle performance later
        exact follows.earlier (later_of_ok (action.perform_follows around start) ran)
end

theorem Tracing.mem_listReferences {β : Type} {item : β}
    {inner : ShaderFunction → Session → List β} {references : List (String × FunctionId)} :
    ∀ {session : Session}, item ∈ listReferences around inner references session →
      ∃ callee session, item ∈ inner callee session := by
  induction references with
  | nil => exact fun impossible => nomatch impossible
  | cons reference rest induction =>
      intro session member
      unfold listReferences at member
      split at member
      next => cases member
      next callee _ =>
        rcases List.mem_append.mp member with called | member
        · exact ⟨callee, session, called⟩
        split at member
        next => exact induction member
        next => cases member

/-- Every action that a trace performs, in callees as well, begins at a state that occurs. -/
theorem Program.occurs_of_mem_performances (program : Program) {depth : Nat}
    {function : ShaderFunction} {session : Session} {performance : Performance}
    (member : performance ∈ program.performancesWithin depth function session) :
    performance.start.Occurs performance.around := by
  induction depth generalizing function session with
  | zero => cases member
  | succ depth induction =>
      unfold performancesWithin at member
      split at member
      case isFalse => cases member
      unfold Tracing.performances at member
      split at member
      next body _ _ =>
        rcases mem_listAfter member with ⟨_, begun, added, member⟩
        have parameters := later_of_ok Tracing.addParameters_follows added
        rcases body.follows_of_mem_performances begun performance member with
          ⟨own, later⟩ | ⟨_, _, called⟩
        · exact ⟨_, own ▸ parameters.trans later⟩
        · exact induction called
      next =>
        have ⟨_, _, called⟩ := Tracing.mem_listReferences member
        exact induction called

/-- The last action, which fails, begins in four open blocks. -/
example : (exampleForgiven.program.performancesWithin 1 exampleForgiving {}).map
    (fun performance => (performance.action.hasBlocks, performance.start.scopes.length)) =
      [(false, 1), (false, 1), (true, 1), (false, 2), (true, 2), (true, 3), (false, 4),
        (false, 4)] := by
  decide +kernel

end ShaderKit
