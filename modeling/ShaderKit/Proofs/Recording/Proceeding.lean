import ShaderKit.Proofs.Recording.PostOrder

/-!
# Tracing goes forward

Tracing changes a context in a few ways only, whatever it meets and however it ends: it numbers
constants, begins and ends recordings, and keeps those that are finished. A relation between
contexts that these changes stay within holds from the start of a trace to its end.

In this way a context keeps what it has. Afterwards the same functions are being recorded, and
none of them has been finished. No order of the context is needed for that.
-/

namespace ShaderKit

/-! ## Contexts -/

namespace TraceContext

def entered (context : TraceContext) (function : ShaderFunction) : TraceContext :=
  { context with stack := function :: context.stack }

def left (context : TraceContext) : TraceContext :=
  { context with stack := context.stack.tail }

/-- A function may begin to be recorded: it is neither finished nor being recorded. -/
structure Begins (context : TraceContext) (function : ShaderFunction) : Prop where
  absent : context.find? function.id = none
  unlinked : context.chainFrom function.id = []

/-- A function is finished, or it is being recorded, or it may begin to be recorded. -/
theorem begins_cases (context : TraceContext) (function : ShaderFunction) :
    (∃ recorded, context.find? function.id = some recorded) ∨
      (context.find? function.id = none ∧ context.chainFrom function.id ≠ []) ∨
      context.Begins function := by
  cases absent : context.find? function.id with
  | some recorded => exact .inl ⟨recorded, rfl⟩
  | none =>
      by_cases unlinked : context.chainFrom function.id = []
      · exact .inr (.inr ⟨absent, unlinked⟩)
      · exact .inr (.inl ⟨rfl, unlinked⟩)

end TraceContext

/-- A relation between contexts that holds from the start of a recording to its end if it does
so for the concerned functions that it calls. -/
structure TraceContext.Steps (program : Program) (concerns : ShaderFunction → Prop)
    (passes : TraceContext → TraceContext → Prop) : Prop where
  known : ∀ callee, program.find? callee.id = some callee → concerns callee
  refl : ∀ context, passes context context
  trans : ∀ {before middle after}, passes before middle → passes middle after →
    passes before after
  numbered : ∀ {context next label type value number}, type.isConstructible = true →
    context.internConstant label type value = .ok number next → passes context next

/-- A relation between contexts that the changes of tracing the concerned functions stay
within. -/
structure TraceContext.Passage (program : Program) (concerns : ShaderFunction → Prop)
    (passes : TraceContext → TraceContext → Prop) : Prop extends
    TraceContext.Steps program concerns passes where
  left : ∀ {before after function}, before.Begins function →
    passes (before.entered function) after → passes before after.left
  kept : ∀ {before function depth start finish recorded}, concerns function →
    before.Begins function → start.context = before.entered function →
      Tracing.record ⟨program, program.traceWithin depth, function⟩ start =
        .ok recorded finish →
        passes (before.entered function) finish.context →
          passes before (finish.context.left.kept recorded)

/-! ## Recorders -/

namespace Recorder

theorem session_addStatement (recorder : Recorder) (statement : Statement) :
    (recorder.addStatement statement).session = recorder.session := by
  rw [addStatement_eq]

theorem session_withExpression (recorder : Recorder) (function : ShaderFunction)
    (expression : Expression) (type : TypeDescriptor) (reference : Option Reference) :
    (recorder.withExpression function expression type reference).session = recorder.session := by
  unfold withExpression
  dsimp only
  split
  next => rfl
  next => exact session_addStatement _ _

theorem session_withVariable (recorder : Recorder) (function : ShaderFunction)
    (declared : LocalVariable) (initial : Option Node) :
    (recorder.withVariable function declared initial).session = recorder.session := by
  unfold withVariable
  rw [session_withExpression, session_addStatement]
  rfl

theorem session_counting (recorder : Recorder) (function : ShaderFunction)
    (type : TypeDescriptor) : (recorder.counting function type).session = recorder.session := by
  unfold counting
  rw [session_withExpression]
  rfl

end Recorder

def Tracing.endOf {α : Type} (work : Tracing α) (start : Session) : Session :=
  match work start with
  | .ok _ finish => finish
  | .error _ finish => finish

namespace Tracing

variable {α β : Type} {start : Session}

theorem endOf_of_ok {work : Tracing α} {result : α} {finish : Session}
    (ran : work start = .ok result finish) : work.endOf start = finish := by
  rw [endOf, ran]

theorem endOf_of_error {work : Tracing α} {error : ShaderError} {finish : Session}
    (ran : work start = .error error finish) : work.endOf start = finish := by
  rw [endOf, ran]

theorem endOf_bind_of_ok {work : Tracing α} {next : α → Tracing β} {value : α} {middle : Session}
    (ran : work start = .ok value middle) :
    (work >>= next).endOf start = (next value).endOf middle := by
  rw [endOf, endOf, bind_of_ok ran]

theorem endOf_bind_pure {work : Tracing α} {value : α → β} :
    (work >>= fun result => pure (value result)).endOf start = work.endOf start := by
  cases ran : work start with
  | ok result middle => rw [endOf_bind_of_ok ran, endOf_of_ok ran]; rfl
  | error error middle => rw [endOf_of_error (bind_of_error ran), endOf_of_error ran]

theorem endOf_recording {work : Recording α} :
    (recording work).endOf start = (Recording.finishOf work { session := start }).session := by
  unfold endOf recording Recording.finishOf
  cases work { session := start } <;> rfl

end Tracing

/-- Work that stays within a relation between contexts. -/
def Tracing.Passes (passes : TraceContext → TraceContext → Prop) {α : Type} (work : Tracing α)
    (start : Session) : Prop :=
  passes start.context (work.endOf start).context

namespace Tracing.Passes

variable {passes : TraceContext → TraceContext → Prop} {program : Program} {α β : Type}
  {work : Tracing α} {start finish : Session}

theorem of_ok {result : α} (ran : work start = .ok result finish)
    (later : passes start.context finish.context) : work.Passes passes start := by
  rw [Tracing.Passes, endOf_of_ok ran]
  exact later

theorem of_error {error : ShaderError} (ran : work start = .error error finish)
    (later : passes start.context finish.context) : work.Passes passes start := by
  rw [Tracing.Passes, endOf_of_error ran]
  exact later

theorem ok {result : α} (worked : work.Passes passes start)
    (ran : work start = .ok result finish) : passes start.context finish.context := by
  rw [Tracing.Passes, endOf_of_ok ran] at worked
  exact worked

theorem error {error : ShaderError} (worked : work.Passes passes start)
    (ran : work start = .error error finish) : passes start.context finish.context := by
  rw [Tracing.Passes, endOf_of_error ran] at worked
  exact worked

theorem discard (worked : work.Passes passes start) :
    Tracing.Passes passes (discard work) start := by
  cases ran : work start with
  | ok result finish => exact of_ok (discard_ran_ok.mpr ⟨result, ran⟩) (worked.ok ran)
  | error error finish => exact of_error (discard_ran_error.mpr ran) (worked.error ran)

variable {concerns : ShaderFunction → Prop}
  (steps : TraceContext.Steps program concerns passes)

include steps

theorem pure (value : α) : Tracing.Passes passes (pure value) start :=
  of_ok rfl (steps.refl _)

theorem throw (error : ShaderError) :
    Tracing.Passes passes (throw error : Tracing α) start :=
  of_error rfl (steps.refl _)

theorem bind {next : α → Tracing β} (first : work.Passes passes start)
    (rest : ∀ value state, work start = .ok value state → (next value).Passes passes state) :
    Tracing.Passes passes (work >>= next) start := by
  cases ran : work start with
  | ok value state =>
      have later := rest value state ran
      rw [Tracing.Passes, endOf] at later ⊢
      rw [bind_of_ok ran]
      exact steps.trans (first.ok ran) later
  | error error state => exact of_error (bind_of_error ran) (first.error ran)

end Tracing.Passes

/-- A way of recording that stays within a relation between contexts for the concerned
functions. -/
def RecordsWithin (concerns : ShaderFunction → Prop)
    (passes : TraceContext → TraceContext → Prop)
    (trace : ShaderFunction → Tracing RecordedFunction) : Prop :=
  ∀ function session, concerns function → (trace function).Passes passes session

theorem Recorder.Becomes.passes {concerns : ShaderFunction → Prop}
    {passes : TraceContext → TraceContext → Prop} {around : Surroundings}
    {before after : Recorder}
    (steps : TraceContext.Steps around.program concerns passes)
    (records : RecordsWithin concerns passes around.trace)
    (becomes : before.Becomes around after) :
    passes before.session.context after.session.context := by
  induction becomes with
  | refl | localVariable | helper | binding | register | journal => exact steps.refl _
  | trans _ _ first second => exact steps.trans first second
  | expression =>
      rw [session_withExpression]
      exact steps.refl _
  | statement =>
      rw [session_addStatement]
      exact steps.refl _
  | declared =>
      rw [session_withVariable]
      exact steps.refl _
  | branch _ _ _ accept reject =>
      rw [session_addStatement]
      exact steps.trans accept reject
  | loop _ body =>
      rw [session_addStatement]
      exact body
  | range _ _ _ body =>
      rw [session_counting] at body
      rw [session_addStatement]
      exact body
  | dropped _ _ inside => exact inside
  | droppedRange _ inside =>
      rw [session_counting] at inside
      exact inside
  | constant constructible interned => exact steps.numbered constructible interned
  | traced known _ ran => exact (records _ _ (steps.known _ known)).ok ran
  | untraced known _ ran => exact (records _ _ (steps.known _ known)).error ran

/-! ## Recording one function -/

namespace Tracing

variable {function : ShaderFunction} {body : Tracing RecordedFunction} {start finish : Session}

def entering (function : ShaderFunction) (start : Session) : Session where
  context := start.context.entered function
  journal := start.journal.log .trace s!"tracing shader function `{function.signature.name}`"

theorem get_ran (start : Session) : (get : Tracing Session) start = .ok start start :=
  rfl

theorem once_of_found {recorded : RecordedFunction}
    (found : start.context.find? function.id = some recorded) :
    once function body start = .ok recorded start := by
  rw [once, bind_of_ok (get_ran start), found]
  rfl

theorem once_of_linked (absent : start.context.find? function.id = none)
    (linked : start.context.chainFrom function.id ≠ []) :
    once function body start = .error (.graph (.recursiveCall
      ((start.context.chainFrom function.id ++ [function]).map fun link =>
        link.signature.name))) start := by
  rw [once, bind_of_ok (get_ran start), absent]
  cases chain : start.context.chainFrom function.id with
  | nil => exact (linked chain).elim
  | cons first rest => rfl

variable {α : Type} {work : Tracing α}

theorem onStack_of_ok {result : α}
    (ran : work ⟨start.context.entered function, start.journal⟩ = .ok result finish) :
    onStack function work start = .ok result ⟨finish.context.left, finish.journal⟩ := by
  simp only [onStack, TraceContext.entered] at ran ⊢
  rw [ran]
  rfl

theorem onStack_of_error {error : ShaderError}
    (ran : work ⟨start.context.entered function, start.journal⟩ = .error error finish) :
    onStack function work start = .error error ⟨finish.context.left, finish.journal⟩ := by
  simp only [onStack, TraceContext.entered] at ran ⊢
  rw [ran]
  rfl

theorem once_of_begins (begins : start.context.Begins function) :
    once function body start = (do
      let recorded ← onStack function body
      log (s!"traced `{function.signature.name}`: {recorded.expressions.size} expressions, " ++
        s!"{recorded.callees.length} callees")
      keep recorded
      return recorded : Tracing RecordedFunction)
        ⟨start.context, (entering function start).journal⟩ := by
  rw [once, bind_of_ok (get_ran start), begins.absent]
  dsimp only
  rw [begins.unlinked]
  rfl

theorem once_of_ok {recorded : RecordedFunction} (begins : start.context.Begins function)
    (ran : body (entering function start) = .ok recorded finish) :
    ∃ journal, once function body start =
      .ok recorded ⟨finish.context.left.kept recorded, journal⟩ := by
  rw [once_of_begins begins]
  exact ⟨_, bind_ran_ok.mpr ⟨recorded, _, onStack_of_ok ran, rfl⟩⟩

theorem once_of_error {error : ShaderError} (begins : start.context.Begins function)
    (ran : body (entering function start) = .error error finish) :
    once function body start = .error error ⟨finish.context.left, finish.journal⟩ := by
  rw [once_of_begins begins]
  exact bind_of_error (onStack_of_error ran)

theorem once_begun (begins : start.context.Begins function) (body : Tracing RecordedFunction) :
    ∃ journal, once function body start = match body (entering function start) with
      | .ok recorded finish => .ok recorded ⟨finish.context.left.kept recorded, journal⟩
      | .error error finish => .error error ⟨finish.context.left, journal⟩ := by
  cases ran : body (entering function start) with
  | ok recorded finish => exact once_of_ok begins ran
  | error error finish => exact ⟨_, once_of_error begins ran⟩

theorem once_ran_ok {recorded : RecordedFunction}
    (ran : once function body start = .ok recorded finish) :
    (start.context.find? function.id = some recorded ∧ finish = start) ∨
      start.context.Begins function ∧ ∃ state,
        body (entering function start) = .ok recorded state ∧
          finish.context = state.context.left.kept recorded := by
  rcases start.context.begins_cases function with ⟨known, found⟩ | ⟨absent, linked⟩ | begins
  · rw [once_of_found found] at ran
    cases ran
    exact .inl ⟨found, rfl⟩
  · rw [once_of_linked absent linked] at ran
    cases ran
  · have ⟨_, same⟩ := once_begun begins body
    rw [same] at ran
    cases worked : body (entering function start) <;> rw [worked] at ran <;> cases ran
    exact .inr ⟨begins, _, rfl, rfl⟩

theorem once_ran_error {error : ShaderError}
    (ran : once function body start = .error error finish) :
    (start.context.find? function.id = none ∧ start.context.chainFrom function.id ≠ [] ∧
      error = .graph (.recursiveCall ((start.context.chainFrom function.id ++ [function]).map
        fun link => link.signature.name)) ∧ finish = start) ∨
      start.context.Begins function ∧ ∃ state,
        body (entering function start) = .error error state ∧
          finish.context = state.context.left := by
  rcases start.context.begins_cases function with ⟨known, found⟩ | ⟨absent, linked⟩ | begins
  · rw [once_of_found found] at ran
    cases ran
  · rw [once_of_linked absent linked] at ran
    cases ran
    exact .inl ⟨absent, linked, rfl, rfl⟩
  · have ⟨_, same⟩ := once_begun begins body
    rw [same] at ran
    cases worked : body (entering function start) <;> rw [worked] at ran <;> cases ran
    exact .inr ⟨begins, _, rfl, rfl⟩

theorem once_passes {program : Program} {concerns : ShaderFunction → Prop}
    {passes : TraceContext → TraceContext → Prop}
    (passage : TraceContext.Passage program concerns passes) (concerned : concerns function)
    (worked : ∀ session, body.Passes passes session)
    (records : ∀ session recorded finish, body session = .ok recorded finish →
      ∃ depth, record ⟨program, program.traceWithin depth, function⟩ session =
        .ok recorded finish) : (once function body).Passes passes start := by
  cases ran : once function body start with
  | ok recorded finish =>
      rcases once_ran_ok ran with ⟨_, rfl⟩ | ⟨begins, state, ended, same⟩
      · exact .of_ok ran (passage.refl _)
      · have ⟨_, recording⟩ := records _ recorded state ended
        exact .of_ok ran (same ▸ passage.kept concerned begins rfl recording
          ((worked (entering function start)).ok ended))
  | error error finish =>
      rcases once_ran_error ran with ⟨_, _, _, rfl⟩ | ⟨begins, state, ended, same⟩
      · exact .of_error ran (passage.refl _)
      · exact .of_error ran (same ▸ passage.left begins
          ((worked (entering function start)).error ended))

theorem recording_ran_ok {work : Recording α} {result : α} :
    recording work start = .ok result finish ↔
      ∃ final, work { session := start } = .ok result final ∧ finish = final.session := by
  rw [recording]
  cases work { session := start } with
  | ok answer state =>
      constructor
      · rintro ⟨⟩
        exact ⟨state, rfl, rfl⟩
      · rintro ⟨_, ⟨⟩, rfl⟩
        rfl
  | error error state =>
      constructor
      · intro impossible
        cases impossible
      · rintro ⟨_, ⟨⟩, _⟩

theorem recording_ran_error {work : Recording α} {error : ShaderError} :
    recording work start = .error error finish ↔
      ∃ final, work { session := start } = .error error final ∧ finish = final.session := by
  rw [recording]
  cases work { session := start } with
  | ok answer state =>
      constructor
      · intro impossible
        cases impossible
      · rintro ⟨_, ⟨⟩, _⟩
  | error other state =>
      constructor
      · rintro ⟨⟩
        exact ⟨state, rfl, rfl⟩
      · rintro ⟨_, ⟨⟩, rfl⟩
        rfl

theorem record_of_script {around : Surroundings} {body : Script} {result : Option Operand}
    (scripted : around.function.implementation = .script body result) :
    record around = recording (scriptWork around body result) := by
  rw [record, scripted]
  rfl

theorem record_of_raw {around : Surroundings} {text : String}
    {references : List (String × FunctionId)}
    (raw : around.function.implementation = .raw text references) :
    record around = (do
      let callees ← recordReferences around [] references
      return { function := around.function, body := .raw text, callees := callees }) := by
  rw [record, raw]

theorem function_of_record {around : Surroundings} {recorded : RecordedFunction}
    (ran : record around start = .ok recorded finish) : recorded.function = around.function := by
  cases implemented : around.function.implementation with
  | script body result =>
      rw [record_of_script implemented] at ran
      rcases recording_ran_ok.mp ran with ⟨final, worked, _⟩
      rw [scriptWork_recorded worked]
      rfl
  | raw text references =>
      rw [record_of_raw implemented] at ran
      rcases bind_ran_ok.mp ran with ⟨_, _, _, ran⟩
      cases ran
      rfl

section

variable {concerns : ShaderFunction → Prop} {passes : TraceContext → TraceContext → Prop}
  {around : Surroundings} (steps : TraceContext.Steps around.program concerns passes)
  (records : RecordsWithin concerns passes around.trace)

include steps records

theorem recording_passes {work : Recording α}
    (follows : work.Follows around { session := start }) :
    (recording work).Passes passes start := by
  cases ran : recording work start with
  | ok result finish =>
      rcases recording_ran_ok.mp ran with ⟨final, worked, rfl⟩
      exact .of_ok ran ((follows.becomes_of_ok worked).passes steps records)
  | error error finish =>
      rcases recording_ran_error.mp ran with ⟨final, worked, rfl⟩
      exact .of_error ran ((follows.becomes_of_error worked).passes steps records)

theorem recordReferences_passes (references : List (String × FunctionId))
    (known : List FunctionId) : (recordReferences around known references).Passes passes start := by
  induction references generalizing known start with
  | nil => exact .pure steps _
  | cons reference rest induction =>
      unfold recordReferences
      split
      next => exact .throw steps _
      next callee found =>
        have known : around.program.find? callee.id = some callee :=
          Program.find?_id found ▸ found
        apply Passes.bind steps (records callee start (steps.known callee known)).discard
        intro _ _ _
        exact induction _

theorem record_passes : (record around).Passes passes start := by
  cases implemented : around.function.implementation with
  | script body result =>
      rw [record_of_script implemented]
      exact recording_passes steps records (scriptWork_follows around body result _)
  | raw text references =>
      rw [record_of_raw implemented]
      apply Passes.bind steps (recordReferences_passes steps records references [])
      intro _ _ _
      exact .pure steps _

end

end Tracing

/-! ## Tracing a program -/

namespace Program

variable {program : Program} {concerns : ShaderFunction → Prop}
  {passes : TraceContext → TraceContext → Prop}
  (passage : TraceContext.Passage program concerns passes)

include passage

theorem traceWithin_passes (depth : Nat) :
    RecordsWithin concerns passes (program.traceWithin depth) := by
  induction depth with
  | zero =>
      intro function session concerned
      exact Tracing.once_passes passage concerned (fun _ => .throw passage.toSteps _) nofun
  | succ depth induction =>
      intro function session concerned
      have worked (session : Session) := @Tracing.record_passes session concerns passes
        ⟨program, program.traceWithin depth, function⟩ passage.toSteps induction
      exact Tracing.once_passes passage concerned worked fun _ _ _ ran => ⟨depth, ran⟩

/-- Tracing stays within a relation that its changes stay within. -/
theorem trace_passes : RecordsWithin concerns passes program.trace :=
  traceWithin_passes passage (program.functions.length + 1)

theorem attempt_passes {function : ShaderFunction} (concerned : concerns function)
    (session : Session) :
    passes session.context (program.attempt session function).context := by
  have traced := trace_passes passage function session concerned
  unfold attempt
  split
  next ran => exact traced.ok ran
  next ran => exact traced.error ran

theorem attemptAll_passes {functions : List ShaderFunction}
    (concerned : ∀ function ∈ functions, concerns function) (session : Session) :
    passes session.context (program.attemptAll functions session).context := by
  induction functions generalizing session with
  | nil => exact passage.refl _
  | cons function rest induction =>
      have others := fun other member => concerned other (List.mem_cons_of_mem _ member)
      exact passage.trans (attempt_passes passage (concerned function List.mem_cons_self) session)
        (induction others _)

end Program

/-! ## Contexts keep what they have -/

namespace TraceContext

/-- A later context of the same work, where no function that is being recorded has been
finished. -/
structure Proceeds (before after : TraceContext) : Prop where
  continues : before.Continues after
  unfinished : ∀ id ∈ after.order, id ∈ before.order ∨ ∀ function ∈ before.stack, function.id ≠ id

theorem Proceeds.refl (context : TraceContext) : context.Proceeds context :=
  ⟨.refl context, fun _ member => .inl member⟩

theorem Proceeds.trans {before middle after : TraceContext} (first : before.Proceeds middle)
    (second : middle.Proceeds after) : before.Proceeds after where
  continues := first.continues.trans second.continues
  unfinished id member := by
    rcases second.unfinished id member with old | unlinked
    · exact first.unfinished id old
    · rw [first.continues.stack] at unlinked
      exact .inr unlinked

theorem Proceeds.absent {before after : TraceContext} {function : ShaderFunction}
    (proceeds : before.Proceeds after) (begun : function ∈ before.stack)
    (absent : before.find? function.id = none) : after.find? function.id = none := by
  rw [← Option.not_isSome_iff_eq_none, ← mem_order_iff] at absent ⊢
  intro finished
  rcases proceeds.unfinished function.id finished with old | unlinked
  · exact absent old
  · exact unlinked function begun rfl

theorem proceeds_internConstant {context next : TraceContext} {label : Option String}
    {type : TypeDescriptor} {value : HostValue} {number : Nat}
    (interned : context.internConstant label type value = .ok number next) :
    context.Proceeds next := by
  have ⟨_, _, numbers⟩ := numbers_of_internConstant interned
  refine ⟨numbers.continues, fun id member => .inl ?_⟩
  rw [order, numbers.finished] at member
  exact member

theorem Proceeds.left {before after : TraceContext} {function : ShaderFunction}
    (proceeds : (before.entered function).Proceeds after) : before.Proceeds after.left where
  continues := { proceeds.continues with stack := congrArg List.tail proceeds.continues.stack }
  unfinished id member := by
    rcases proceeds.unfinished id member with old | unlinked
    · exact .inl old
    · exact .inr fun other begun => unlinked other (List.mem_cons_of_mem _ begun)

theorem proceeds_kept {context : TraceContext} {recorded : RecordedFunction}
    (unlinked : ∀ other ∈ context.stack, other.id ≠ recorded.id) :
    context.Proceeds (context.kept recorded) where
  continues := context.continues_kept recorded
  unfinished id member := by
    rw [mem_order_kept, List.mem_append, List.mem_singleton] at member
    rcases member with old | same
    · exact .inl old
    · exact .inr (same ▸ unlinked)

theorem proceeds_passage (program : Program) :
    Passage program (fun _ => True) Proceeds where
  known _ _ := trivial
  refl := .refl
  trans := .trans
  numbered _ := proceeds_internConstant
  left _ := .left
  kept _ begins _ ran inside := by
    have id := congrArg ShaderFunction.id (Tracing.function_of_record ran)
    refine inside.left.trans (proceeds_kept ?_)
    rw [inside.left.continues.stack, RecordedFunction.id, id]
    exact notMem_stack_of_chainFrom begins.unlinked

end TraceContext

def RecordsForward (trace : ShaderFunction → Tracing RecordedFunction) : Prop :=
  ∀ function session, (trace function).Passes TraceContext.Proceeds session

section

variable {around : Surroundings} (records : RecordsForward around.trace)

include records

theorem Recorder.Becomes.proceeds {before after : Recorder}
    (becomes : before.Becomes around after) :
    before.session.context.Proceeds after.session.context :=
  becomes.passes (TraceContext.proceeds_passage around.program).toSteps
    fun function session _ => records function session

theorem Tracing.recordReferences_proceeds {start : Session}
    (references : List (String × FunctionId)) (known : List FunctionId) :
    (recordReferences around known references).Passes TraceContext.Proceeds start :=
  recordReferences_passes (TraceContext.proceeds_passage around.program).toSteps
    (fun function session _ => records function session) references known

theorem Tracing.record_proceeds {start : Session} :
    (record around).Passes TraceContext.Proceeds start :=
  record_passes (TraceContext.proceeds_passage around.program).toSteps
    fun function session _ => records function session

end

theorem Program.traceWithin_proceeds (program : Program) (depth : Nat) :
    RecordsForward (program.traceWithin depth) :=
  fun function session =>
    traceWithin_passes (TraceContext.proceeds_passage program) depth function session trivial

theorem Program.trace_proceeds (program : Program) : RecordsForward program.trace :=
  program.traceWithin_proceeds (program.functions.length + 1)

/-! ## Finished recordings are made by the program -/

/-- A recording of the function that the program can give. -/
def Program.Makes (program : Program) (function : ShaderFunction) (recorded : RecordedFunction) :
    Prop :=
  ∃ depth start finish,
    Tracing.record ⟨program, program.traceWithin depth, function⟩ start = .ok recorded finish

/-- What a program makes of a function is what its script records, or its raw text. -/
theorem Program.Makes.cases {program : Program} {function : ShaderFunction}
    {recorded : RecordedFunction} (makes : program.Makes function recorded) :
    (∃ text references callees, function.implementation = .raw text references ∧
        recorded = { function, body := .raw text, callees }) ∨
      ∃ body result depth session final, function.implementation = .script body result ∧
        Tracing.scriptWork ⟨program, program.traceWithin depth, function⟩ body result
          { session := session } = .ok recorded final := by
  rcases makes with ⟨depth, start, finish, ran⟩
  cases implemented : function.implementation with
  | script body result =>
      rw [Tracing.record_of_script implemented] at ran
      rcases Tracing.recording_ran_ok.mp ran with ⟨final, worked, _⟩
      exact .inr ⟨body, result, depth, start, final, rfl, worked⟩
  | raw text references =>
      rw [Tracing.record_of_raw implemented] at ran
      rcases bind_ran_ok.mp ran with ⟨callees, _, _, ended⟩
      cases ended
      exact .inl ⟨text, references, callees, rfl, rfl⟩

theorem TraceContext.finished_internConstant {context next : TraceContext}
    {label : Option String} {type : TypeDescriptor} {value : HostValue} {number : Nat}
    (interned : context.internConstant label type value = .ok number next) :
    next.finished = context.finished := by
  rcases numbers_of_internConstant interned with ⟨bytes, _, _ | _⟩ <;> rfl

theorem TraceContext.makes_passage (program : Program) :
    Passage program (fun _ => True) fun before after => ∀ recorded ∈ after.finished,
      recorded ∈ before.finished ∨ program.Makes recorded.function recorded where
  known _ _ := trivial
  refl _ _ member := .inl member
  trans first second recorded member := by
    rcases second recorded member with old | made
    · exact first recorded old
    · exact .inr made
  numbered _ interned recorded member := .inl (finished_internConstant interned ▸ member)
  left _ inside := inside
  kept _ _ _ ran inside recorded member := by
    rcases List.mem_append.mp member with old | last
    · exact inside recorded old
    · cases List.mem_singleton.mp last
      rw [Tracing.function_of_record ran]
      exact .inr ⟨_, _, _, ran⟩

theorem Program.makes_of_attemptAll {program : Program} {functions : List ShaderFunction}
    {journal : Journal} {recorded : RecordedFunction}
    (member : recorded ∈ (program.attemptAll functions { journal := journal }).context.finished) :
    program.Makes recorded.function recorded := by
  rcases attemptAll_passes (TraceContext.makes_passage program) (fun _ _ => trivial) _ recorded
    member with impossible | made
  · cases impossible
  · exact made

end ShaderKit
