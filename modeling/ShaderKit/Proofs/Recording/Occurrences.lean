import ShaderKit.Proofs.Recording.Asking
import ShaderKit.Proofs.Recording.Uniform

/-!
# The constants that tracing meets

Tracing numbers constants one after the other, and some of these constants occur again. Which
constants a trace meets is said along the scripts that it performs, those of callees included,
as far as it comes. The constants of a context are what numbering these in order gives, whether
traces succeed or fail.
-/

namespace ShaderKit

/-- A constant that a script gives, in the context where it is numbered. -/
structure Occurrence where
  context : TraceContext
  label : Option String
  type : TypeDescriptor
  value : HostValue
  constructible : type.isConstructible = true

namespace Occurrence

def Gets (occurrence : Occurrence) (number : Nat) : Prop :=
  ∃ next, occurrence.context.internConstant occurrence.label occurrence.type occurrence.value =
    .ok number next

def next (occurrence : Occurrence) : TraceContext :=
  match occurrence.context.internConstant occurrence.label occurrence.type occurrence.value with
  | .ok _ next => next
  | .error _ next => next

end Occurrence

/-! ## Occurrences in scripts -/

/-- What is listed from the end of some work; nothing if the work fails. -/
def Recording.listAfter {α β : Type} (work : Recording α) (start : Recorder)
    (rest : α → Recorder → List β) : List β :=
  match work start with
  | .ok result finish => rest result finish
  | .error _ _ => []

def Recording.constantOccurrences (label : Option String) (type : TypeDescriptor)
    (value : HostValue) (start : Recorder) : List Occurrence :=
  if constructible : type.isConstructible = true then
    if value.isFinite then [⟨start.session.context, label, type, value, constructible⟩] else []
  else []

open Recording

mutual
/-- The constants that performing an action meets, in order. Those of a callee are given. -/
def Action.occurrences (around : Surroundings)
    (inner : ShaderFunction → Session → List Occurrence) : Action → Recorder → List Occurrence
  | .constant _ label type value, start =>
      match type with
      | .ok type => constantOccurrences label type value start
      | .error _ => []
  | .call _ id sources, start =>
      listAfter (called around id sources) start fun prepared state =>
        inner prepared.1 state.session
  | .callVoid id sources, start =>
      listAfter (called around id sources) start fun prepared state =>
        inner prepared.1 state.session
  | .branch test accept reject, start =>
      listAfter (Recording.condition around.function test) start fun _ middle =>
        -- the second block is recorded only if the first one succeeds
        accept.occurrences around inner (middle.opened 0) ++
          listAfter (inside 0 (accept.perform around)) middle fun _ accepted =>
            reject.occurrences around inner (accepted.opened 0)
  | .loop body, start => body.occurrences around inner (start.opened 1)
  | .range counter first last body, start =>
      listAfter (rangeHead around.function first last) start fun head middle =>
        listAfter (counterValue around.function head.counter head.type) (middle.opened 1)
          fun node state => body.occurrences around inner (state.withRegister counter node)
  | .attempt body, start => body.occurrences around inner start
  | .adopt name out body, start =>
      match start.session.journal.published? name with
      | none => []
      | some node => body.occurrences around inner (start.withRegister out node)
  | _, _ => []

def Script.occurrences (around : Surroundings)
    (inner : ShaderFunction → Session → List Occurrence) : Script → Recorder → List Occurrence
  | .done, _ => []
  | .step action rest, start =>
      action.occurrences around inner start ++
        listAfter (action.perform around) start fun _ middle =>
          rest.occurrences around inner middle
end

/-! ## Occurrences in traces -/

namespace Tracing

def listReferences {β : Type} (around : Surroundings)
    (inner : ShaderFunction → Session → List β) :
    List (String × FunctionId) → Session → List β
  | [], _ => []
  | (_, id) :: rest, session =>
      match around.program.find? id with
      | none => []
      | some callee =>
          inner callee session ++
            match around.trace callee session with
            | .ok _ after => listReferences around inner rest after
            | .error _ _ => []

def occurrences (around : Surroundings) (inner : ShaderFunction → Session → List Occurrence)
    (session : Session) : List Occurrence :=
  match around.function.implementation with
  | .script body _ =>
      listAfter (addParameters around.function 0 around.function.signature.parameters)
        { session := session } fun _ start => body.occurrences around inner start
  | .raw _ references => listReferences around inner references session

end Tracing

instance (context : TraceContext) (function : ShaderFunction) :
    Decidable (context.Begins function) :=
  decidable_of_iff ((context.find? function.id).isNone ∧ (context.chainFrom function.id).isEmpty)
    ⟨fun ⟨absent, unlinked⟩ => ⟨Option.isNone_iff_eq_none.mp absent, List.isEmpty_iff.mp unlinked⟩,
      fun begins => ⟨Option.isNone_iff_eq_none.mpr begins.absent,
        List.isEmpty_iff.mpr begins.unlinked⟩⟩

namespace Program

/-- The constants that a trace to some depth meets. It meets none in a function that is
recorded already or being recorded. -/
def occurrencesWithin (program : Program) : Nat → ShaderFunction → Session → List Occurrence
  | 0, _, _ => []
  | depth + 1, function, session =>
      if session.context.Begins function then
        Tracing.occurrences ⟨program, program.traceWithin depth, function⟩
          (program.occurrencesWithin depth) (Tracing.entering function session)
      else []

def occurrences (program : Program) : List ShaderFunction → Session → List Occurrence
  | [], _ => []
  | function :: rest, session =>
      program.occurrencesWithin (program.functions.length + 1) function session ++
        program.occurrences rest (program.attempt session function)

end Program

/-! ## Contexts that gather constants -/

namespace TraceContext

def constantTable (context : TraceContext) :
    Interning (TypeDescriptor × Bytes) × List ModuleConstant :=
  (context.constantKeys, context.constants)

/-- The constants of the later context come from those of the earlier one, when the listed
occurrences are numbered in order. -/
inductive Gathers (before : TraceContext) : List Occurrence → TraceContext → Prop where
  | nothing {after : TraceContext} (same : after.constantTable = before.constantTable) :
      Gathers before [] after
  | more {after : TraceContext} {log : List Occurrence} {occurrence : Occurrence}
      (earlier : Gathers before log occurrence.context)
      (same : after.constantTable = occurrence.next.constantTable) :
      Gathers before (log ++ [occurrence]) after

variable {before middle after other : TraceContext} {log more : List Occurrence}

theorem gathers_one (occurrence : Occurrence) :
    occurrence.context.Gathers [occurrence] occurrence.next :=
  @Gathers.more _ _ [] occurrence (.nothing rfl) rfl

theorem Gathers.from_same (gathers : before.Gathers log after)
    (same : before.constantTable = other.constantTable) : other.Gathers log after := by
  induction gathers with
  | nothing unchanged => exact .nothing (unchanged.trans same)
  | more _ last earlier => exact .more earlier last

theorem Gathers.to_same (gathers : before.Gathers log after)
    (same : other.constantTable = after.constantTable) : before.Gathers log other := by
  cases gathers with
  | nothing unchanged => exact .nothing (same.trans unchanged)
  | more earlier last => exact .more earlier (same.trans last)

theorem Gathers.append (gathers : before.Gathers log middle)
    (rest : middle.Gathers more after) : before.Gathers (log ++ more) after := by
  induction rest with
  | nothing unchanged =>
      rw [List.append_nil]
      exact gathers.to_same unchanged
  | more _ last earlier =>
      rw [← List.append_assoc]
      exact .more earlier last

end TraceContext

/-! ## Recording gathers what is listed -/

namespace Recording

variable {α β : Type} {start : Recorder} {log : List Occurrence}

def Gathers (work : Recording α) (start : Recorder) (log : List Occurrence) : Prop :=
  start.session.context.Gathers log (finishOf work start).session.context

namespace Gathers

theorem of_ok {work : Recording α} {result : α} {finish : Recorder}
    (ran : work start = .ok result finish)
    (gathers : start.session.context.Gathers log finish.session.context) :
    Gathers work start log := by
  rw [Gathers, finishOf_of_ok ran]
  exact gathers

theorem of_error {work : Recording α} {error : ShaderError} {finish : Recorder}
    (ran : work start = .error error finish)
    (gathers : start.session.context.Gathers log finish.session.context) :
    Gathers work start log := by
  rw [Gathers, finishOf_of_error ran]
  exact gathers

theorem ok {work : Recording α} {result : α} {finish : Recorder}
    (gathers : Gathers work start log) (ran : work start = .ok result finish) :
    start.session.context.Gathers log finish.session.context := by
  rw [Gathers, finishOf_of_ok ran] at gathers
  exact gathers

theorem error {work : Recording α} {error : ShaderError} {finish : Recorder}
    (gathers : Gathers work start log) (ran : work start = .error error finish) :
    start.session.context.Gathers log finish.session.context := by
  rw [Gathers, finishOf_of_error ran] at gathers
  exact gathers

theorem of_twins {post : α → α → Prop} {work : Recording α}
    (twins : Twins Eq post work work start start) : Gathers work start [] := by
  have ends : Ends Eq post start start (work start) (work start) := twins
  cases ran : work start <;> rw [ran] at ends
  case ok =>
    cases ends with
    | ok _ _ kept => exact .of_ok ran (.nothing (congrArg TraceContext.constantTable kept))
  case error =>
    cases ends with
    | error _ kept => exact .of_error ran (.nothing (congrArg TraceContext.constantTable kept))

theorem bind {work : Recording α} {next : α → Recording β} {rest : α → Recorder → List Occurrence}
    (first : Gathers work start log)
    (following : ∀ result finish, work start = .ok result finish →
      Gathers (next result) finish (rest result finish)) :
    Gathers (work >>= next) start (log ++ listAfter work start rest) := by
  unfold listAfter
  cases ran : work start with
  | ok result finish =>
      have later := (first.ok ran).append (following result finish ran)
      rw [Gathers, finishOf, bind_of_ok ran]
      exact later
  | error error finish =>
      rw [List.append_nil]
      exact .of_error (bind_of_error ran) (first.error ran)

theorem twins_bind {post : α → α → Prop} {work : Recording α} {next : α → Recording β}
    {rest : α → Recorder → List Occurrence} (twins : Twins Eq post work work start start)
    (following : ∀ result finish, work start = .ok result finish →
      Gathers (next result) finish (rest result finish)) :
    Gathers (work >>= next) start (listAfter work start rest) :=
  bind (of_twins twins) following

theorem bind_twins {post : β → β → Prop} {work : Recording α} {next : α → Recording β}
    (gathers : Gathers work start log)
    (twins : ∀ result finish, Twins Eq post (next result) (next result) finish finish) :
    Gathers (work >>= next) start log := by
  have nothing : listAfter work start (fun _ _ => ([] : List Occurrence)) = [] := by
    unfold listAfter
    split <;> rfl
  have both := gathers.bind fun result finish _ => of_twins (twins result finish)
  rw [nothing, List.append_nil] at both
  exact both

theorem inside {deeper : Nat} {body : Recording Unit}
    (gathers : Gathers body (start.opened deeper) log) :
    Gathers (Recording.inside deeper body) start log := by
  have ends : (finishOf (Recording.inside deeper body) start).session =
      (finishOf body (start.opened deeper)).session := by
    unfold finishOf Recording.inside
    cases body (start.opened deeper) <;> rfl
  rw [Gathers, ends]
  exact gathers

theorem attempt {work : Recording Unit} (gathers : Gathers work start log) :
    Gathers (Recording.attempt work) start log := by
  have ends : (finishOf (Recording.attempt work) start).session.context =
      (finishOf work start).session.context := by
    unfold finishOf Recording.attempt
    cases work start <;> rfl
  rw [Gathers, ends]
  exact gathers

end Gathers

/-! ## Constants and calls -/

theorem constant_eq (function : ShaderFunction) (label : Option String) {type : TypeDescriptor}
    {value : HostValue} (constructible : type.isConstructible = true)
    (finite : value.isFinite = true) (start : Recorder) :
    constant function label type value start =
      match start.session.context.internConstant label type value with
      | .ok number context =>
          addValue function (.constant number) type (start.withConstant context number)
      | .error error context =>
          .error error (start.inSession ⟨context, start.session.journal⟩) := by
  have got : (get : Recording Recorder) start = .ok start start := rfl
  unfold constant
  simp only [constructible, finite, Bool.not_true, Bool.false_eq_true, if_false]
  rw [bind_of_ok got]
  cases start.session.context.internConstant label type value <;> rfl

theorem constant_gathers (function : ShaderFunction) (label : Option String)
    (type : TypeDescriptor) (value : HostValue) :
    Gathers (constant function label type value) start
      (constantOccurrences label type value start) := by
  unfold constantOccurrences
  split
  next constructible =>
    split
    next finite =>
      let occurrence : Occurrence := ⟨start.session.context, label, type, value, constructible⟩
      have gathers := TraceContext.gathers_one occurrence
      have same := constant_eq function label constructible finite start
      cases interned : start.session.context.internConstant label type value with
      | error error context =>
          have next : occurrence.next = context := by rw [Occurrence.next, interned]
          rw [interned] at same
          exact .of_error same (next ▸ gathers)
      | ok number context =>
          have next : occurrence.next = context := by rw [Occurrence.next, interned]
          rw [interned] at same
          have alike := Recorder.Alike.refl (start.withConstant context number)
          have kept := Gathers.of_twins
            (addExpression_twins function type none (.constant (Eq.refl number)) alike)
          rw [Gathers, finishOf, same]
          exact (next ▸ gathers).append kept
    next infinite =>
      have refused : constant function label type value = refuse function .nonFiniteConstant := by
        simp [constant, constructible, infinite]
      exact refused ▸ .of_error rfl (.nothing rfl)
  next unconstructible =>
    have refused : constant function label type value = refuse function (.constantType type) := by
      simp [constant, unconstructible]
    exact refused ▸ .of_error rfl (.nothing rfl)

end Recording

end ShaderKit
