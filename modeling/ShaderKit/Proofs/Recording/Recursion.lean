import Mathlib.Data.List.Chain
import ShaderKit.Proofs.Recording.CallTree

/-!
# Recursive calls

Tracing a function ends, also where functions call each other in a circle. A recursive call is
reported only where there is such a circle, and the report goes around it. Where no body
swallows failures, a circle among the calls of a trace lets the trace fail. A failed trace leaves
no mark on what is being recorded and what is finished.
-/

namespace ShaderKit

open Tracing

namespace Program

variable {program : Program} {request caller callee : Request}

/-! ## Requests that are made -/

/-- The requests that are made when functions of a program are traced after other traces, each
of which may have failed: first the function itself, then the calls in its recording. -/
inductive Requested (program : Program) : Request → Prop where
  | outermost {function : ShaderFunction} (functions : List ShaderFunction) (journal : Journal)
      (known : program.find? function.id = some function) :
      Requested program ⟨function, program.attemptAll functions { journal := journal }⟩
  | inner {caller callee : Request} (requested : Requested program caller)
      (leads : program.Leads caller callee) : Requested program callee

theorem stack_attempt (session : Session) (function : ShaderFunction) :
    (program.attempt session function).context.stack = session.context.stack := by
  have proceeds := program.trace_proceeds function session
  unfold attempt
  split
  next ran => exact (proceeds.ok ran).continues.stack
  next ran => exact (proceeds.error ran).continues.stack

theorem stack_attemptAll (functions : List ShaderFunction) (session : Session) :
    (program.attemptAll functions session).context.stack = session.context.stack := by
  induction functions generalizing session with
  | nil => rfl
  | cons function rest induction =>
      exact (induction (program.attempt session function)).trans (stack_attempt session function)

theorem Requested.known (requested : program.Requested request) :
    program.find? request.function.id = some request.function := by
  cases requested with
  | outermost functions journal known => exact known
  | inner requested leads => exact leads.known

theorem Requested.ordered (requested : program.Requested request) :
    request.session.context.Ordered := by
  induction requested with
  | outermost functions journal known =>
      exact program.attemptAll_ordered functions TraceContext.ordered_empty
  | inner requested leads ordered => exact leads.ordered ordered

theorem Requested.path (requested : program.Requested request) :
    ∃ path : List Request, (path ++ [request]).IsChain program.Leads ∧
      path.map Request.function = request.session.context.stack.reverse ∧
      ∀ link ∈ path, program.find? link.function.id = some link.function := by
  induction requested with
  | outermost functions journal known =>
      refine ⟨[], .singleton _, ?_, nofun⟩
      rw [stack_attemptAll]
      rfl
  | @inner caller callee requested leads induction =>
      rcases induction with ⟨path, chain, functions, known⟩
      refine ⟨path ++ [caller], ?_, ?_, ?_⟩
      · rw [List.append_assoc]
        exact List.isChain_append_cons_cons.mpr ⟨chain, leads, .singleton _⟩
      · rw [List.map_append, functions, leads.stack, List.reverse_cons]
        rfl
      · intro link member
        rcases List.mem_append.mp member with before | last
        · exact known link before
        · rw [List.mem_singleton.mp last]
          exact requested.known

/-! ## Reports are right -/

/-- Requests each of which leads to the next one. The last one is for the function of the
first one again. -/
structure Circle (program : Program) (circle : List Request) : Prop where
  leads : circle.IsChain program.Leads
  closes : ∃ first between last, circle = first :: between ++ [last] ∧
    last.function = first.function

theorem Requested.circle_of_linked (requested : program.Requested request)
    (linked : request.session.context.chainFrom request.function.id ≠ []) :
    ∃ circle, program.Circle circle ∧ circle.map Request.function =
      request.session.context.chainFrom request.function.id ++ [request.function] := by
  rcases requested.path with ⟨path, chain, functions, known⟩
  -- what is reported is the end of the path, from the first request for the same function on
  let passed (link : Request) : Bool := link.function.id ≠ request.function.id
  have links : (path.dropWhile passed).map Request.function =
      request.session.context.chainFrom request.function.id := by
    rw [TraceContext.chainFrom, ← functions, List.dropWhile_map]
    rfl
  have leads : (path.dropWhile passed ++ [request]).IsChain program.Leads := by
    rw [← @List.takeWhile_append_dropWhile _ passed path, List.append_assoc] at chain
    exact chain.right_of_append
  refine ⟨path.dropWhile passed ++ [request], ⟨leads, ?_⟩, ?_⟩
  · have first := List.head?_dropWhile_not passed path
    have part := @List.dropWhile_suffix _ path passed
    cases rest : path.dropWhile passed with
    | nil =>
        rw [rest] at links
        exact (linked links.symm).elim
    | cons link between =>
        rw [rest] at first part
        have same : link.function.id = request.function.id :=
          Decidable.not_not.mp (of_decide_eq_false first)
        have linkKnown := known link (part.subset List.mem_cons_self)
        rw [same, requested.known] at linkKnown
        exact ⟨link, between, request, rfl, Option.some.inj linkKnown⟩
  · rw [List.map_append, links]
    rfl

/-- A recursive call is reported along a circle of requests. -/
theorem Requested.exists_circle {names : List String} {after : Session}
    (requested : program.Requested request)
    (failed : program.trace request.function request.session =
      .error (.graph (.recursiveCall names)) after) :
    ∃ circle, program.Circle circle ∧
      names = circle.map fun link => link.function.signature.name := by
  induction request using program.leads_wellFounded.induction generalizing after with
  | _ request induction =>
      rw [trace_eq] at failed
      rcases once_ran_error failed with ⟨_, linked, same, _⟩ | ⟨begins, finish, ran, _⟩
      · cases same
        rcases requested.circle_of_linked linked with ⟨circle, closed, links⟩
        refine ⟨circle, closed, ?_⟩
        rw [← links, List.map_map]
        rfl
      · rcases exists_asks_of_error ran rfl with ⟨inner, innerAfter, asks, answer⟩
        have leads : program.Leads request inner := ⟨begins, asks⟩
        exact induction inner leads (.inner requested leads) answer

/-! ## Circles are found -/

/-- The calls of a trace: those that are attempted in recordings that it begins, and those of
earlier recordings in its context. -/
inductive Attempts (program : Program) (request : Request) : FunctionId → FunctionId → Prop where
  | call {caller callee : Request} (reached : Relation.ReflTransGen program.Leads request caller)
      (leads : program.Leads caller callee) :
      Attempts program request caller.function.id callee.function.id
  | recorded {caller callee : FunctionId}
      (refers : request.session.context.RefersTo caller callee) :
      Attempts program request caller callee

end Program

theorem TraceContext.Calls.mono {before after : TraceContext} {caller callee : FunctionId}
    (calls : before.Calls caller callee) (kept : before.finished <+: after.finished) :
    after.Calls caller callee := by
  rcases calls with ⟨recorded, found, listed⟩
  rcases kept with ⟨more, same⟩
  refine ⟨recorded, ?_, listed⟩
  rw [find?, ← same, List.find?_append]
  rw [find?] at found
  rw [found]
  rfl

theorem TraceContext.calls_kept {context : TraceContext} {recorded : RecordedFunction}
    {callee : FunctionId} (new : context.find? recorded.id = none)
    (listed : callee ∈ recorded.callees) : (context.kept recorded).Calls recorded.id callee := by
  refine ⟨recorded, ?_, listed⟩
  rw [find?_kept, new, Option.none_or, if_pos rfl]

namespace Program

variable {program : Program} {request caller callee : Request}

/-- Where nothing is swallowed, a trace that succeeds has answered the requests that its
recording makes, and calls their functions. -/
theorem answered_of_leads (strict : request.function.swallows = false)
    {recorded : RecordedFunction} {after : Session}
    (ran : program.trace request.function request.session = .ok recorded after)
    (leads : program.Leads request callee) :
    after.context.Calls request.function.id callee.function.id ∧ ∃ answer session,
      program.trace callee.function callee.session = .ok answer session ∧
        session.context.finished <+: after.context.finished := by
  rw [trace_eq] at ran
  rcases once_ran_ok ran with ⟨found, _⟩ | ⟨begins, finish, worked, same⟩
  · rw [leads.1.absent] at found
    cases found
  · rcases leads.2.answered program.trace_proceeds strict worked with
      ⟨listed, answer, session, calleeRan, continues⟩
    have own : recorded.id = request.function.id :=
      congrArg ShaderFunction.id (function_of_record worked)
    have proceeds := (record_proceeds program.trace_proceeds).ok worked
    have new : finish.context.left.find? recorded.id = none := by
      rw [own]
      exact proceeds.absent List.mem_cons_self begins.absent
    have kept : finish.context.finished <+: after.context.finished := by
      rw [same]
      exact List.prefix_append _ _
    refine ⟨?_, answer, session, calleeRan, continues.finished.trans kept⟩
    rw [same, ← own]
    exact TraceContext.calls_kept new listed

/-- Where nothing is swallowed, a trace that succeeds records all the calls that it attempts. -/
theorem calls_of_leads (strict : ∀ function ∈ program.functions, function.swallows = false)
    (known : program.find? request.function.id = some request.function)
    {recorded : RecordedFunction} {after : Session}
    (ran : program.trace request.function request.session = .ok recorded after)
    (reached : Relation.ReflTransGen program.Leads request caller)
    (leads : program.Leads caller callee) :
    after.context.Calls caller.function.id callee.function.id := by
  induction request using program.leads_wellFounded.induction generalizing recorded after with
  | _ request induction =>
      have own := strict request.function (List.mem_of_find?_eq_some known)
      rcases reached.cases_head with rfl | ⟨inner, first, rest⟩
      · exact (answered_of_leads own ran leads).1
      · rcases answered_of_leads own ran first with ⟨_, answer, session, innerRan, kept⟩
        exact (induction inner first first.known innerRan rest).mono kept

theorem Requested.acyclic (requested : program.Requested request)
    (strict : ∀ function ∈ program.functions, function.swallows = false)
    {recorded : RecordedFunction} {after : Session}
    (ran : program.trace request.function request.session = .ok recorded after)
    (id : FunctionId) : ¬ Relation.TransGen (program.Attempts request) id id := by
  intro circle
  have orders := program.traceWithin_recordsInOrder (program.functions.length + 1)
    request.function request.session requested.ordered
  have ended : after.context.Ordered := (orders.ok ran).1
  have continues := (orders.ok ran).2.1
  have refers (caller callee : FunctionId) (attempts : program.Attempts request caller callee) :
      after.context.RefersTo caller callee := by
    have calls : after.context.Calls caller callee := by
      cases attempts with
      | call reached leads => exact calls_of_leads strict requested.known ran reached leads
      | recorded refers =>
          exact (requested.ordered.calls_of_refersTo refers).mono continues.finished
    rcases calls with ⟨kept, found, listed⟩
    exact ⟨kept, found, .listed listed⟩
  exact Nat.lt_irrefl _ (ended.precedes (Relation.TransGen.mono refers id id circle)).2

/-! ## Failures leave no mark -/

theorem trace_failed {function : ShaderFunction} {session after : Session} {error : ShaderError}
    (failed : program.trace function session = .error error after) :
    after.context.stack = session.context.stack ∧ after.context.find? function.id = none := by
  refine ⟨((program.trace_proceeds function session).error failed).continues.stack, ?_⟩
  rw [trace_eq] at failed
  rcases once_ran_error failed with ⟨absent, _, _, rfl⟩ | ⟨begins, finish, ran, same⟩
  · exact absent
  · have proceeds := (record_proceeds program.trace_proceeds).error ran
    rw [same]
    exact proceeds.absent List.mem_cons_self begins.absent

/-- Tracing and circles of calls. The equation of tracing has one solution, and requests lead on
only finitely often, so tracing ends in every session. A recursive call is reported along
requests of which each leads to the next one, from a function back to itself. If no body
swallows failures and the calls of a trace have a circle, the trace does not succeed. After a
failure the same functions are being recorded as before, and the function is not finished. -/
theorem trace_recursion (program : Program) :
    (∀ trace : ShaderFunction → Tracing RecordedFunction,
      (∀ function, trace function = once function (record ⟨program, trace, function⟩)) ↔
        trace = program.trace) ∧
      (WellFounded fun callee caller => program.Leads caller callee) ∧
      (∀ request names after, program.Requested request →
        program.trace request.function request.session =
          .error (.graph (.recursiveCall names)) after →
        ∃ circle, program.Circle circle ∧
          names = circle.map fun link => link.function.signature.name) ∧
      (∀ request id, (∀ function ∈ program.functions, function.swallows = false) →
        program.Requested request → Relation.TransGen (program.Attempts request) id id →
        ∀ recorded after,
          program.trace request.function request.session ≠ .ok recorded after) ∧
      ∀ function session error after, program.trace function session = .error error after →
        after.context.stack = session.context.stack ∧
          after.context.find? function.id = none := by
  refine ⟨program.trace_unique, program.leads_wellFounded, ?_, ?_, ?_⟩
  · intro request names after requested failed
    exact requested.exists_circle failed
  · intro request id strict requested circle recorded after ran
    exact requested.acyclic strict ran id circle
  · intro function session error after failed
    exact trace_failed failed

end Program

def examplePing : ShaderFunction where
  id := ⟨0⟩
  signature := ⟨"ping", [⟨"x", .f32⟩], some .f32, none⟩
  implementation := .script (.ofList [.call "answer" ⟨1⟩ [.register "$0"]])
    (some (.register "answer"))

def examplePong : ShaderFunction where
  id := ⟨1⟩
  signature := ⟨"pong", [⟨"x", .f32⟩], some .f32, none⟩
  implementation := .raw "\x7b return ping(x); \x7d" [("ping", ⟨0⟩)]

def exampleRally : Program where
  functions := [examplePing, examplePong]

open Program

theorem trace_recursion_exampleRally :
    let request : Request := ⟨examplePing, {}⟩
    Relation.TransGen (exampleRally.Attempts request) ⟨0⟩ ⟨0⟩ ∧
      ∃ after, exampleRally.trace examplePing {} =
          .error (.graph (.recursiveCall ["ping", "pong", "ping"])) after ∧
        (∃ circle, exampleRally.Circle circle ∧
          ["ping", "pong", "ping"] = circle.map fun link => link.function.signature.name) ∧
        (∀ recorded finish, exampleRally.trace examplePing {} ≠ .ok recorded finish) ∧
        after.context.stack = [] ∧ after.context.find? ⟨0⟩ = none := by
  intro request
  let call : Request := ⟨examplePong, entering examplePing {}⟩
  let back : Request := ⟨examplePing, entering examplePong call.session⟩
  have first : exampleRally.Leads request call :=
    ⟨⟨rfl, rfl⟩, _, rfl, .inl ⟨(examplePong, [⟨⟨0⟩, 0⟩]), _, rfl, rfl⟩⟩
  have second : exampleRally.Leads call back := ⟨⟨rfl, rfl⟩, examplePing, rfl, .inl rfl⟩
  have circle : Relation.TransGen (exampleRally.Attempts request) ⟨0⟩ ⟨0⟩ :=
    .head (.call .refl first) (.single (.call (.single first) second))
  have requested : exampleRally.Requested request := .outermost [] {} rfl
  have strict : ∀ function ∈ exampleRally.functions, function.swallows = false := by decide
  rcases exampleRally.trace_recursion with ⟨_, _, reported, found, failed⟩
  have fails : ∃ after, exampleRally.trace examplePing {} =
      .error (.graph (.recursiveCall ["ping", "pong", "ping"])) after := ⟨_, rfl⟩
  rcases fails with ⟨after, ran⟩
  rcases failed examplePing {} _ after ran with ⟨stack, absent⟩
  exact ⟨circle, after, ran, reported request _ after requested ran,
    found request ⟨0⟩ strict requested circle, stack, absent⟩

end ShaderKit
