import ShaderKit.Proofs.Recording.Asking

/-!
# The calls of a trace

Each request leads to the requests that recording its function makes. They come with one more
function on the stack, and functions are on the stack once, so requests lead on only finitely
often. Tracing without a bound is therefore defined by its equation, and the bound that
`Program.trace` sets is never reached.
-/

namespace ShaderKit

/-! ## Functions that have not begun -/

namespace TraceContext

def isBegun (context : TraceContext) (id : FunctionId) : Bool :=
  context.stack.any fun function => function.id = id

theorem Begins.isBegun {context : TraceContext} {function : ShaderFunction}
    (begins : context.Begins function) : context.isBegun function.id = false := by
  rw [TraceContext.isBegun, List.any_eq_false]
  intro other member
  rw [decide_eq_true_eq]
  exact notMem_stack_of_chainFrom begins.unlinked other member

theorem countP_entered_le (context : TraceContext) (function : ShaderFunction)
    (functions : List ShaderFunction) :
    (functions.countP fun other => !(context.entered function).isBegun other.id) ≤
      functions.countP fun other => !context.isBegun other.id := by
  apply List.countP_mono_left
  intro other _ unbegun
  rw [Bool.not_eq_true', isBegun, List.any_eq_false] at unbegun ⊢
  exact fun begun member => unbegun begun (List.mem_cons_of_mem _ member)

end TraceContext

namespace Program

variable (program : Program)

def unbegun (context : TraceContext) : Nat :=
  program.functions.countP fun function => !context.isBegun function.id

theorem unbegun_le (context : TraceContext) :
    program.unbegun context ≤ program.functions.length :=
  List.countP_le_length

variable {program} {context : TraceContext} {function : ShaderFunction}

theorem unbegun_of_stack {other : TraceContext} (same : context.stack = other.stack) :
    program.unbegun context = program.unbegun other := by
  simp only [unbegun, TraceContext.isBegun, same]

theorem unbegun_entered_lt (known : (program.find? function.id).isSome)
    (begins : context.Begins function) :
    program.unbegun (context.entered function) < program.unbegun context := by
  rcases Option.isSome_iff_exists.mp known with ⟨found, known⟩
  have id : found.id = function.id := find?_id known
  rcases List.append_of_mem (List.mem_of_find?_eq_some known) with ⟨before, after, functions⟩
  have old : (!context.isBegun found.id) = true := by
    rw [id, begins.isBegun]
    rfl
  have new : ¬ (!(context.entered function).isBegun found.id) = true := by
    rw [Bool.not_eq_true, Bool.not_eq_false', TraceContext.isBegun, List.any_eq_true]
    exact ⟨function, List.mem_cons_self, decide_eq_true id.symm⟩
  have left := context.countP_entered_le function before
  have right := context.countP_entered_le function after
  rw [unbegun, unbegun, functions, List.countP_append, List.countP_append, List.countP_cons,
    List.countP_cons, if_pos old, if_neg new]
  omega

end Program

/-! ## The equation of tracing -/

namespace Tracing

variable {function : ShaderFunction} {body other : Tracing RecordedFunction} {start : Session}

theorem onStack_congr
    (same : body ⟨start.context.entered function, start.journal⟩ =
      other ⟨start.context.entered function, start.journal⟩) :
    onStack function body start = onStack function other start := by
  cases ran : other ⟨start.context.entered function, start.journal⟩ with
  | ok recorded finish => rw [onStack_of_ok ran, onStack_of_ok (same.trans ran)]
  | error error finish => rw [onStack_of_error ran, onStack_of_error (same.trans ran)]

theorem once_congr (same : start.context.Begins function →
      body (entering function start) = other (entering function start)) :
    once function body start = once function other start := by
  rcases start.context.begins_cases function with ⟨known, found⟩ | ⟨absent, linked⟩ | begins
  · rw [once_of_found found, once_of_found found]
  · rw [once_of_linked absent linked, once_of_linked absent linked]
  · rw [once_of_begins begins, once_of_begins begins]
    exact bind_ran_congr (onStack_congr (same begins)) fun _ _ _ => rfl

end Tracing

open Tracing

namespace Program

variable {program : Program}

/-- Two ways of recording agree on the functions of a program while at most so many of them
have not begun. -/
def AgreeWithin (program : Program) (bound : Nat)
    (trace other : ShaderFunction → Tracing RecordedFunction) : Prop :=
  ∀ function session, program.find? function.id = some function →
    program.unbegun session.context ≤ bound → trace function session = other function session

theorem unbegun_of_asks {trace : ShaderFunction → Tracing RecordedFunction}
    (records : RecordsForward trace) {function : ShaderFunction} {session : Session}
    {request : Request}
    (asks : Asks ⟨program, trace, function⟩ (entering function session) request) :
    program.unbegun request.session.context =
      program.unbegun (session.context.entered function) :=
  unbegun_of_stack (asks.proceeds records).continues.stack

/-- Recordings of callees that agree make recordings of their callers agree, with one more
function that has not begun. -/
theorem AgreeWithin.succ {bound : Nat}
    {trace other : ShaderFunction → Tracing RecordedFunction} (records : RecordsForward trace)
    (agree : program.AgreeWithin bound other trace) :
    program.AgreeWithin (bound + 1)
      (fun function => once function (record ⟨program, other, function⟩))
      (fun function => once function (record ⟨program, trace, function⟩)) := by
  intro function session known below
  apply once_congr
  intro begins
  apply @record_congr ⟨program, trace, function⟩ other
  intro request asks
  apply agree _ _ asks.known
  rw [unbegun_of_asks records asks]
  have fewer := unbegun_entered_lt (Option.isSome_of_eq_some known) begins
  omega

theorem agreeWithin_traceWithin {deeper : Nat → ShaderFunction → Tracing RecordedFunction}
    (first : ∀ function, ∃ body, deeper 0 function = once function body)
    (next : ∀ depth function,
      deeper (depth + 1) function = once function (record ⟨program, deeper depth, function⟩))
    (bound : Nat) : program.AgreeWithin bound (deeper bound) (program.traceWithin bound) := by
  induction bound with
  | zero =>
      intro function session known below
      rcases first function with ⟨body, same⟩
      rw [same]
      apply once_congr
      intro begins
      -- every function of the program is being recorded, so none can begin
      have fewer := unbegun_entered_lt (Option.isSome_of_eq_some known) begins
      omega
  | succ bound induction =>
      have agree := induction.succ (program.traceWithin_proceeds bound)
      intro function session known below
      rw [next]
      exact agree function session known below

/-- Where callees agree with the bounded recording, the bound is not reached. -/
theorem once_record_eq {trace : ShaderFunction → Tracing RecordedFunction}
    (agree : program.AgreeWithin program.functions.length trace
      (program.traceWithin program.functions.length)) (function : ShaderFunction) :
    once function (record ⟨program, trace, function⟩) = program.trace function := by
  funext session
  apply once_congr
  intro _
  apply @record_congr ⟨program, program.traceWithin program.functions.length, function⟩ trace
  intro request asks
  exact agree _ _ asks.known (program.unbegun_le _)

variable (program)

/-- Tracing is unbounded recursion: the functions that are asked for are traced as any other. -/
theorem trace_eq (function : ShaderFunction) :
    program.trace function = once function (record ⟨program, program.trace, function⟩) := by
  refine (once_record_eq ?_ function).symm
  have agree := @agreeWithin_traceWithin program (fun depth => program.traceWithin (depth + 1))
    (fun function => ⟨_, rfl⟩) (fun _ _ => rfl) program.functions.length
  exact agree

theorem trace_unique (trace : ShaderFunction → Tracing RecordedFunction) :
    (∀ function, trace function = once function (record ⟨program, trace, function⟩)) ↔
      trace = program.trace := by
  constructor
  · intro solves
    funext function
    rw [solves function]
    apply once_record_eq
    exact @agreeWithin_traceWithin program (fun _ => trace)
      (fun function => ⟨_, solves function⟩) (fun _ => solves) program.functions.length
  · rintro rfl
    exact program.trace_eq

variable {program}

theorem find?_of_trace {function : ShaderFunction} {session finish : Session}
    {recorded : RecordedFunction}
    (ran : program.trace function session = .ok recorded finish) :
    finish.context.find? function.id = some recorded := by
  rw [trace_eq] at ran
  rcases once_ran_ok ran with ⟨found, rfl⟩ | ⟨begins, state, worked, same⟩
  · exact found
  · have own : recorded.id = function.id := congrArg ShaderFunction.id (function_of_record worked)
    have proceeds := (record_proceeds program.trace_proceeds).ok worked
    have absent : state.context.left.find? function.id = none :=
      proceeds.absent List.mem_cons_self begins.absent
    rw [same, TraceContext.find?_kept, absent, own, Option.none_or, if_pos rfl]

/-! ## Requests and what they lead to -/

/-- Tracing a request begins a recording that makes another request. -/
def Leads (caller callee : Request) : Prop :=
  caller.session.context.Begins caller.function ∧
    Asks ⟨program, program.trace, caller.function⟩ (entering caller.function caller.session)
      callee

variable {caller callee : Request}

theorem Leads.known (leads : program.Leads caller callee) :
    program.find? callee.function.id = some callee.function :=
  leads.2.known

theorem Leads.stack (leads : program.Leads caller callee) :
    callee.session.context.stack = caller.function :: caller.session.context.stack :=
  (leads.2.proceeds program.trace_proceeds).continues.stack

theorem Leads.ordered (leads : program.Leads caller callee)
    (ordered : caller.session.context.Ordered) : callee.session.context.Ordered := by
  have unfinished : caller.function.id ∉ caller.session.context.order := by
    rw [TraceContext.mem_order_iff, leads.1.absent]
    nofun
  have records := program.traceWithin_recordsInOrder (program.functions.length + 1)
  have entered : (entering caller.function caller.session).context.Ordered :=
    ordered.entered unfinished
  exact leads.2.ordered records entered

variable (program)

/-- How far requests can still lead. The first function need not be of the program. -/
def remaining (request : Request) : Nat :=
  program.unbegun request.session.context +
    if (program.find? request.function.id).isSome then 0 else 1

variable {program}

theorem Leads.remaining_lt (leads : program.Leads caller callee) :
    program.remaining callee < program.remaining caller := by
  have known := Option.isSome_of_eq_some leads.known
  have same := unbegun_of_asks program.trace_proceeds leads.2
  rw [remaining, remaining, if_pos known, same]
  split
  next callerKnown =>
    have fewer := unbegun_entered_lt callerKnown leads.1
    omega
  next =>
    have fewer := caller.session.context.countP_entered_le caller.function program.functions
    rw [unbegun, unbegun]
    omega

variable (program)

/-- Requests do not lead on forever. -/
theorem leads_wellFounded : WellFounded fun callee caller => program.Leads caller callee :=
  Subrelation.wf (fun leads => leads.remaining_lt) (measure program.remaining).wf

end Program

end ShaderKit
