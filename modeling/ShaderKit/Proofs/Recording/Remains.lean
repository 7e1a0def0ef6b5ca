import ShaderKit.Proofs.Recording.Recursion

/-!
# What requests leave behind

A recording goes on after a request, and it may go on after a request that failed, if the failure
is swallowed. What was finished during a request stays finished either way, and whatever a
recording leaves finished was left by one of its requests.
-/

namespace ShaderKit

open Recording

structure Request.Finishes (request : Request) (trace : ShaderFunction → Tracing RecordedFunction)
    (id : FunctionId) : Prop where
  new : id ∉ request.session.context.order
  finished : id ∈ (request.finish trace).context.order

/-! ## What a recording leaves finished is left by its requests -/

namespace Tracing

variable {around : Surroundings} {start : Session} {request : Request}

noncomputable def onlyAsked (around : Surroundings) (start : Session) :
    ShaderFunction → Tracing RecordedFunction :=
  open Classical in fun function session =>
    if Asks around start ⟨function, session⟩ then around.trace function session
    else refuse function .nestedTooDeep session

def FinishedByAsked (around : Surroundings) (start : Session) (before after : TraceContext) :
    Prop :=
  ∀ id ∈ after.order, id ∈ before.order ∨
    ∃ request, Asks around start request ∧ request.Finishes around.trace id

theorem finishedByAsked_steps (around : Surroundings) (start : Session) :
    TraceContext.Steps around.program (fun _ => True) (FinishedByAsked around start) where
  known _ _ := trivial
  refl _ _ member := .inl member
  trans first second id member := by
    rcases second id member with old | new
    · exact first id old
    · exact .inr new
  numbered _ interned id member := by
    rw [TraceContext.order, TraceContext.finished_internConstant interned] at member
    exact .inl member

theorem onlyAsked_within (around : Surroundings) (start : Session) :
    RecordsWithin (fun _ => True) (FinishedByAsked around start) (onlyAsked around start) := by
  intro function session _
  by_cases asks : Asks around start ⟨function, session⟩
  · have same : onlyAsked around start function session = around.trace function session :=
      if_pos asks
    intro id member
    rw [endOf, same] at member
    by_cases old : id ∈ session.context.order
    · exact .inl old
    · exact .inr ⟨⟨function, session⟩, asks, old, member⟩
  · exact .of_error (if_neg asks) fun _ member => .inl member

/-- A function that is finished after a recording but was not so before it is finished by a
request. -/
theorem exists_asks_of_finished {id : FunctionId}
    (finished : id ∈ ((record around).endOf start).context.order)
    (new : id ∉ start.context.order) :
    ∃ request, Asks around start request ∧ request.Finishes around.trace id := by
  -- the recording does not see what else would be answered
  have same : record (around.asking (onlyAsked around start)) start = record around start :=
    record_congr fun _ asks => if_pos asks
  have passes := @record_passes start _ _ (around.asking (onlyAsked around start))
    (finishedByAsked_steps around start) (onlyAsked_within around start)
  rw [Passes, endOf, same] at passes
  exact (passes id finished).resolve_left new

end Tracing

open Tracing

theorem TraceContext.Ordered.mem_order_of_reached {context : TraceContext} {first last : FunctionId}
    (ordered : context.Ordered) (reached : Relation.ReflTransGen context.Calls first last)
    (finished : first ∈ context.order) : last ∈ context.order := by
  induction reached with
  | refl => exact finished
  | tail _ calls earlier => exact (ordered.inOrder.earlier _ earlier _ calls).1

/-! ## Strays -/

namespace Program

variable (program : Program)

def Succeeds (request : Request) : Prop :=
  ∃ recorded after, program.trace request.function request.session = .ok recorded after

/-- A request that succeeds in a recording that fails. The recording is that of the given
request or one that it leads to. -/
def Strays (request stray : Request) : Prop :=
  ∃ failed, Relation.ReflTransGen program.Leads request failed ∧ ¬ program.Succeeds failed ∧
    program.Leads failed stray ∧ program.Succeeds stray

def contextAfter (request : Request) : TraceContext :=
  (request.finish program.trace).context

variable {program} {request callee stray : Request} {id : FunctionId}

theorem Strays.succeeds (strays : program.Strays request stray) : program.Succeeds stray := by
  rcases strays with ⟨failed, _, _, _, succeeds⟩
  exact succeeds

theorem Strays.below (strays : program.Strays callee stray) (leads : program.Leads request callee) :
    program.Strays request stray := by
  rcases strays with ⟨failed, reached, rest⟩
  exact ⟨failed, .head leads reached, rest⟩

theorem contextAfter_of_ok {recorded : RecordedFunction} {finish : Session}
    (begins : request.session.context.Begins request.function)
    (ran : record ⟨program, program.trace, request.function⟩
      (entering request.function request.session) = .ok recorded finish) :
    program.Succeeds request ∧
      program.contextAfter request = finish.context.left.kept recorded := by
  rcases once_of_ok begins ran with ⟨journal, traced⟩
  rw [← trace_eq] at traced
  exact ⟨⟨recorded, _, traced⟩, congrArg Session.context (endOf_of_ok traced)⟩

theorem contextAfter_of_error {error : ShaderError} {finish : Session}
    (begins : request.session.context.Begins request.function)
    (ran : record ⟨program, program.trace, request.function⟩
      (entering request.function request.session) = .error error finish) :
    ¬ program.Succeeds request ∧ program.contextAfter request = finish.context.left := by
  have traced := once_of_error begins ran
  rw [← trace_eq] at traced
  refine ⟨?_, congrArg Session.context (endOf_of_error traced)⟩
  rintro ⟨_, _, succeeded⟩
  cases traced.symm.trans succeeded

theorem finished_of_begins (begins : request.session.context.Begins request.function) :
    ((record ⟨program, program.trace, request.function⟩).endOf
      (entering request.function request.session)).context.finished <+:
        (program.contextAfter request).finished := by
  cases ran : record ⟨program, program.trace, request.function⟩
      (entering request.function request.session) with
  | ok recorded finish =>
      rw [endOf_of_ok ran, (contextAfter_of_ok begins ran).2]
      exact List.prefix_append _ _
  | error error finish =>
      rw [endOf_of_error ran, (contextAfter_of_error begins ran).2]
      exact List.prefix_refl _

theorem Leads.finished (leads : program.Leads request callee) :
    (program.contextAfter callee).finished <+: (program.contextAfter request).finished :=
  (leads.2.continues program.trace_proceeds).finished.trans (finished_of_begins leads.1)

theorem finished_of_reached (reached : Relation.ReflTransGen program.Leads request callee) :
    (program.contextAfter callee).finished <+: (program.contextAfter request).finished := by
  induction reached with
  | refl => exact List.prefix_refl _
  | tail _ leads earlier => exact leads.finished.trans earlier

theorem calls_mono {before after : TraceContext} {first last : FunctionId}
    (kept : before.finished <+: after.finished)
    (reached : Relation.ReflTransGen before.Calls first last) :
    Relation.ReflTransGen after.Calls first last :=
  Relation.ReflTransGen.mono (fun _ _ calls => TraceContext.Calls.mono calls kept) _ _ reached

theorem Leads.calls (leads : program.Leads request callee) (succeeds : program.Succeeds request)
    (answered : program.Succeeds callee) :
    (program.contextAfter request).Calls request.function.id callee.function.id := by
  rcases answered with ⟨answer, after, answered⟩
  cases ran : record ⟨program, program.trace, request.function⟩
      (entering request.function request.session) with
  | error error finish => exact ((contextAfter_of_error leads.1 ran).1 succeeds).elim
  | ok recorded finish =>
      have own : recorded.id = request.function.id :=
        congrArg ShaderFunction.id (function_of_record ran)
      have proceeds := (record_proceeds program.trace_proceeds).ok ran
      have new : finish.context.left.find? recorded.id = none := by
        rw [own]
        exact proceeds.absent List.mem_cons_self leads.1.absent
      rw [(contextAfter_of_ok leads.1 ran).2, ← own]
      exact TraceContext.calls_kept new (leads.2.noted program.trace_proceeds ran answered)

/-- Something is finished only while a function is recorded that has not begun before. -/
theorem begins_of_finishes (finishes : request.Finishes program.trace id) :
    request.session.context.Begins request.function := by
  have finished := finishes.finished
  rw [Request.finish, trace_eq] at finished
  rcases request.session.context.begins_cases request.function with
    ⟨recorded, found⟩ | ⟨absent, linked⟩ | begins
  · rw [endOf_of_ok (once_of_found found)] at finished
    exact (finishes.new finished).elim
  · rw [endOf_of_error (once_of_linked absent linked)] at finished
    exact (finishes.new finished).elim
  · exact begins

/-- What is finished while a request is answered is its function, if the answer is a recording,
or it is finished by a request that it leads to. -/
theorem finishes_cases (finishes : request.Finishes program.trace id) :
    (program.Succeeds request ∧ id = request.function.id) ∨
      ∃ callee, program.Leads request callee ∧ callee.Finishes program.trace id := by
  have begins := begins_of_finishes finishes
  have finished : id ∈ (program.contextAfter request).order := finishes.finished
  have inner (member : id ∈ ((record ⟨program, program.trace, request.function⟩).endOf
      (entering request.function request.session)).context.order) :
      ∃ callee, program.Leads request callee ∧ callee.Finishes program.trace id := by
    rcases exists_asks_of_finished member finishes.new with ⟨callee, asks, finishes⟩
    exact ⟨callee, ⟨begins, asks⟩, finishes⟩
  cases ran : record ⟨program, program.trace, request.function⟩
      (entering request.function request.session) with
  | ok recorded finish =>
      rcases contextAfter_of_ok begins ran with ⟨succeeds, same⟩
      rw [same, TraceContext.mem_order_kept, List.mem_append, List.mem_singleton] at finished
      rcases finished with before | last
      · exact .inr (inner (endOf_of_ok ran ▸ before))
      · exact .inl ⟨succeeds, last.trans (congrArg ShaderFunction.id (function_of_record ran))⟩
  | error error finish =>
      rw [(contextAfter_of_error begins ran).2] at finished
      exact .inr (inner (endOf_of_error ran ▸ finished))

/-- What is finished while a request is answered is reached from its function, if the answer is
a recording, or from a stray. -/
theorem reached_of_finishes (finishes : request.Finishes program.trace id) :
    (program.Succeeds request ∧
        Relation.ReflTransGen (program.contextAfter request).Calls request.function.id id) ∨
      ∃ stray, program.Strays request stray ∧
        Relation.ReflTransGen (program.contextAfter request).Calls stray.function.id id := by
  induction request using program.leads_wellFounded.induction with
  | _ request induction =>
      rcases finishes_cases finishes with ⟨succeeds, rfl⟩ | ⟨callee, leads, finishes⟩
      · exact .inl ⟨succeeds, .refl⟩
      · rcases induction callee leads finishes with
          ⟨answered, reached⟩ | ⟨stray, strays, reached⟩
        · have reached := calls_mono leads.finished reached
          by_cases succeeds : program.Succeeds request
          · exact .inl ⟨succeeds, .head (leads.calls succeeds answered) reached⟩
          · exact .inr ⟨callee, ⟨request, .refl, succeeds, leads, answered⟩, reached⟩
        · exact .inr ⟨stray, strays.below leads, calls_mono leads.finished reached⟩

/-! ## Rows of traces -/

/-- The requests that are made first when some functions are traced in a row. -/
def Outermost (program : Program) : List ShaderFunction → Session → Request → Prop
  | [], _, _ => False
  | function :: rest, session, request =>
      request = ⟨function, session⟩ ∨
        program.Outermost rest (program.attempt session function) request

/-- A request that succeeds in a recording that fails, when some functions are traced in a
row. -/
def StraysIn (program : Program) (functions : List ShaderFunction) (session : Session)
    (stray : Request) : Prop :=
  ∃ request, program.Outermost functions session request ∧ program.Strays request stray

variable {functions : List ShaderFunction} {session : Session}

theorem attempt_eq (program : Program) (function : ShaderFunction) (session : Session) :
    program.attempt session function = (Request.mk function session).finish program.trace := by
  unfold attempt Request.finish endOf
  cases program.trace function session <;> rfl

theorem attemptAll_finished (program : Program) (functions : List ShaderFunction)
    (session : Session) :
    session.context.finished <+: (program.attemptAll functions session).context.finished :=
  (attemptAll_passes (TraceContext.proceeds_passage program) (fun _ _ => trivial)
    session).continues.finished

theorem Outermost.mem (outermost : program.Outermost functions session request) :
    request.function ∈ functions := by
  induction functions generalizing session with
  | nil => exact outermost.elim
  | cons function rest induction =>
      rcases outermost with rfl | later
      · exact List.mem_cons_self
      · exact List.mem_cons_of_mem _ (induction later)

theorem Outermost.finished (outermost : program.Outermost functions session request) :
    (program.contextAfter request).finished <+:
      (program.attemptAll functions session).context.finished := by
  induction functions generalizing session with
  | nil => exact outermost.elim
  | cons function rest induction =>
      rcases outermost with rfl | later
      · rw [contextAfter, ← attempt_eq]
        exact attemptAll_finished program rest _
      · exact induction later

/-- What is finished after some traces was so before or is finished by a first request. -/
theorem exists_outermost_of_finished
    (finished : id ∈ (program.attemptAll functions session).context.order) :
    id ∈ session.context.order ∨
      ∃ request, program.Outermost functions session request ∧
        request.Finishes program.trace id := by
  induction functions generalizing session with
  | nil => exact .inl finished
  | cons function rest induction =>
      rcases induction finished with before | ⟨request, outermost, finishes⟩
      · by_cases old : id ∈ session.context.order
        · exact .inl old
        · rw [attempt_eq] at before
          exact .inr ⟨⟨function, session⟩, .inl rfl, old, before⟩
      · exact .inr ⟨request, .inr outermost, finishes⟩

theorem Succeeds.mem_order (succeeds : program.Succeeds request)
    (ordered : request.session.context.Ordered) :
    request.function.id ∈ (program.contextAfter request).order := by
  rcases succeeds with ⟨recorded, after, ran⟩
  have orders := program.traceWithin_recordsInOrder (program.functions.length + 1)
    request.function request.session ordered
  rw [contextAfter, Request.finish, endOf_of_ok ran]
  exact (orders.ok ran).2.2

theorem Outermost.ordered (outermost : program.Outermost functions session request)
    (ordered : session.context.Ordered) : request.session.context.Ordered := by
  induction functions generalizing session with
  | nil => exact outermost.elim
  | cons function rest induction =>
      rcases outermost with rfl | later
      · exact ordered
      · exact induction later (program.attempt_ordered function ordered)

theorem ordered_of_reached (reached : Relation.ReflTransGen program.Leads request callee)
    (ordered : request.session.context.Ordered) : callee.session.context.Ordered := by
  induction reached with
  | refl => exact ordered
  | tail _ leads earlier => exact leads.ordered earlier

theorem Strays.mem_order (strays : program.Strays request stray)
    (ordered : request.session.context.Ordered) :
    stray.function.id ∈ (program.contextAfter request).order := by
  rcases strays with ⟨failed, reached, _, leads, succeeds⟩
  have reached := reached.tail leads
  have member := succeeds.mem_order (ordered_of_reached reached ordered)
  exact ((finished_of_reached reached).map RecordedFunction.id).subset member

/-- A function is finished after some traces if it is reached from one that was traced with
success, first or as a stray. -/
theorem mem_order_iff_reached (ordered : session.context.Ordered)
    (fresh : session.context.finished = []) :
    let context := (program.attemptAll functions session).context
    id ∈ context.order ↔ ∃ request, program.Succeeds request ∧
      (program.Outermost functions session request ∨
        program.StraysIn functions session request) ∧
      Relation.ReflTransGen context.Calls request.function.id id := by
  intro context
  constructor
  · intro finished
    rcases exists_outermost_of_finished finished with old | ⟨request, outermost, finishes⟩
    · rw [TraceContext.order, fresh] at old
      cases old
    · rcases reached_of_finishes finishes with ⟨succeeds, reached⟩ | ⟨stray, strays, reached⟩
      · exact ⟨request, succeeds, .inl outermost, calls_mono outermost.finished reached⟩
      · exact ⟨stray, strays.succeeds, .inr ⟨request, outermost, strays⟩,
          calls_mono outermost.finished reached⟩
  · rintro ⟨request, succeeds, started, reached⟩
    have after : context.Ordered := program.attemptAll_ordered functions ordered
    apply after.mem_order_of_reached reached
    rcases started with outermost | ⟨first, outermost, strays⟩
    · have member := succeeds.mem_order (outermost.ordered ordered)
      exact (outermost.finished.map RecordedFunction.id).subset member
    · have member := strays.mem_order (outermost.ordered ordered)
      exact (outermost.finished.map RecordedFunction.id).subset member

theorem Succeeds.of_reached (succeeds : program.Succeeds request)
    (own : request.function.swallows = false)
    (strict : ∀ function ∈ program.functions, function.swallows = false)
    (reached : Relation.ReflTransGen program.Leads request callee) :
    callee.function.swallows = false ∧ program.Succeeds callee := by
  induction reached with
  | refl => exact ⟨own, succeeds⟩
  | tail _ leads earlier =>
      rcases earlier with ⟨own, recorded, after, ran⟩
      rcases answered_of_leads own ran leads with ⟨_, answer, session, answered, _⟩
      exact ⟨strict _ (List.mem_of_find?_eq_some leads.known), answer, session, answered⟩

end Program

end ShaderKit
