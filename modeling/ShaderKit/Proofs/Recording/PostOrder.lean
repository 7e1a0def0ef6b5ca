import Mathlib.Data.List.TakeWhile
import ShaderKit.Proofs.Recording.Accounts
import ShaderKit.Proofs.Recording.ScriptChanges
import ShaderKit.Proofs.Recording.Tracing

/-!
# Functions stand after their callees

Tracing finishes the recordings of callees before those of their callers. That holds of the
context after any number of traces, whether they succeed or fail, so calls never lead in a
circle.
-/

namespace ShaderKit

namespace TraceContext

variable {context : TraceContext} {function : ShaderFunction}

theorem mem_order_kept {recorded : RecordedFunction} :
    (context.kept recorded).order = context.order ++ [recorded.id] :=
  List.map_append

theorem continues_kept (context : TraceContext) (recorded : RecordedFunction) :
    context.Continues (context.kept recorded) :=
  ⟨List.prefix_append _ _, List.prefix_refl _, List.prefix_refl _, rfl⟩

theorem notMem_stack_of_chainFrom {id : FunctionId} (unlinked : context.chainFrom id = []) :
    ∀ other ∈ context.stack, other.id ≠ id := by
  intro other member
  have passed := List.dropWhile_eq_nil_iff.mp unlinked other (List.mem_reverse.mpr member)
  exact of_decide_eq_true passed

theorem Ordered.entered (ordered : context.Ordered) (unfinished : function.id ∉ context.order) :
    TraceContext.Ordered { context with stack := function :: context.stack } where
  inOrder := ordered.inOrder
  unfinished other member := by
    rcases List.mem_cons.mp member with rfl | member
    · exact unfinished
    · exact ordered.unfinished other member
  numbered := ordered.numbered
  accounted recorded member := (ordered.accounted recorded member).withStack _

theorem Ordered.left (ordered : context.Ordered) :
    TraceContext.Ordered { context with stack := context.stack.tail } where
  inOrder := ordered.inOrder
  unfinished other member := ordered.unfinished other (List.mem_of_mem_tail member)
  numbered := ordered.numbered
  accounted recorded member := (ordered.accounted recorded member).withStack _

theorem Ordered.kept {recorded : RecordedFunction} (ordered : context.Ordered)
    (new : recorded.id ∉ context.order) (unlinked : ∀ other ∈ context.stack, other.id ≠ recorded.id)
    (accounted : recorded.Accounted context)
    (callees : ∀ callee ∈ recorded.callees, callee ∈ context.order) :
    (context.kept recorded).Ordered where
  inOrder := by
    rw [mem_order_kept]
    refine ordered.inOrder.concat new ?_ ?_
    · rintro known member callee ⟨found, foundLater, called⟩
      rcases Option.isSome_iff_exists.mp (mem_order_iff.mp member) with ⟨earlier, foundEarlier⟩
      rw [find?_kept, foundEarlier] at foundLater
      cases foundLater
      exact ⟨_, foundEarlier, called⟩
    · rintro callee ⟨found, foundLater, called⟩
      have absent : context.find? recorded.id = none := by
        rw [mem_order_iff, Option.not_isSome_iff_eq_none] at new
        exact new
      rw [find?_kept, absent, Option.none_or, if_pos rfl] at foundLater
      cases foundLater
      exact callees callee called
  unfinished other member := by
    rw [mem_order_kept, List.mem_append, List.mem_singleton]
    rintro (finished | same)
    · exact ordered.unfinished other member finished
    · exact unlinked other member same
  numbered := ordered.numbered
  accounted other member := by
    have continues := context.continues_kept recorded
    rcases List.mem_append.mp member with old | last
    · exact (ordered.accounted other old).continue continues
    · rw [List.mem_singleton.mp last]
      exact accounted.continue continues

end TraceContext

namespace Tracing

/-! ## Rules -/

namespace Orders

variable {α β : Type} {start : Session}

theorem pure {value : α} {post : α → TraceContext → Prop} (ordered : start.context.Ordered)
    (holds : post value start.context) : Orders (pure value) start post :=
  of_ok rfl ordered (.refl _) holds

theorem throw {error : ShaderError} {post : α → TraceContext → Prop}
    (ordered : start.context.Ordered) : Orders (throw error) start post :=
  of_error rfl ordered (.refl _)

theorem bind {work : Tracing α} {next : α → Tracing β} {middle : α → TraceContext → Prop}
    {post : β → TraceContext → Prop} (first : Orders work start middle)
    (rest : ∀ value state, state.context.Ordered → start.context.Continues state.context →
      middle value state.context → Orders (next value) state post) :
    Orders (work >>= next) start post := by
  cases ran : work start with
  | ok value state =>
      rcases first.ok ran with ⟨ordered, continues, holds⟩
      have same : (work >>= next) start = next value state := by
        simp only [Bind.bind, EStateM.bind, ran]
      have later := rest value state ordered continues holds
      cases ended : next value state with
      | ok result finish =>
          rcases later.ok ended with ⟨ordered, more, holds⟩
          exact of_ok (same.trans ended) ordered (continues.trans more) holds
      | error error finish =>
          rcases later.error ended with ⟨ordered, more⟩
          exact of_error (same.trans ended) ordered (continues.trans more)
  | error error state =>
      have same : (work >>= next) start = .error error state := by
        simp only [Bind.bind, EStateM.bind, ran]
      exact of_error same (first.error ran).1 (first.error ran).2

theorem get_bind {next : Session → Tracing α} {post : α → TraceContext → Prop}
    (orders : Orders (next start) start post) : Orders (get >>= next) start post :=
  orders

theorem discard {work : Tracing α} {post : α → TraceContext → Prop}
    (orders : Orders work start post) :
    Orders (discard work) start fun _ context => ∃ result, post result context := by
  have mapped : Functor.discard work start = EStateM.map (fun _ => ()) work start := rfl
  cases ran : work start with
  | ok result finish =>
      rcases orders.ok ran with ⟨ordered, continues, holds⟩
      exact of_ok (by rw [mapped, EStateM.map, ran]) ordered continues ⟨result, holds⟩
  | error error finish =>
      rcases orders.error ran with ⟨ordered, continues⟩
      exact of_error (by rw [mapped, EStateM.map, ran]) ordered continues

end Orders

variable {function : ShaderFunction} {start : Session}

/-! ## Recording one function -/

def RecordsAfterCallees (function : ShaderFunction) (recorded : RecordedFunction)
    (context : TraceContext) : Prop :=
  recorded.function = function ∧ recorded.Accounted context ∧
    ∀ callee ∈ recorded.callees, callee ∈ context.order

theorem log_orders (ordered : start.context.Ordered) (text : String) :
    Orders (log text) start fun _ context => context = start.context :=
  .of_ok rfl ordered (.refl _) rfl

/-- While a function is on the stack it is not finished, whatever its recording traces. -/
theorem onStack_orders {work : Tracing RecordedFunction}
    (orders : ∀ session : Session, session.context.Ordered →
      Orders work session (RecordsAfterCallees function))
    (ordered : start.context.Ordered) (unfinished : function.id ∉ start.context.order) :
    Orders (onStack function work) start fun recorded context =>
      RecordsAfterCallees function recorded context ∧ function.id ∉ context.order := by
  let entered : Session := { start with
    context := { start.context with stack := function :: start.context.stack } }
  let leave (session : Session) : Session := { session with
    context := { session.context with stack := session.context.stack.tail } }
  have continues {finish : Session} (inside : entered.context.Continues finish.context) :
      start.context.Continues (leave finish).context :=
    { inside with stack := congrArg List.tail inside.stack }
  have worked := orders entered (ordered.entered unfinished)
  cases ran : work entered with
  | ok recorded finish =>
      rcases worked.ok ran with ⟨finishOrdered, inside, same, accounted, callees⟩
      have answered : onStack function work start = .ok recorded (leave finish) := by
        simp only [onStack, entered] at ran ⊢
        rw [ran]
      have begun : function ∈ finish.context.stack := inside.stack ▸ List.mem_cons_self
      have accounted : recorded.Accounted (leave finish).context :=
        accounted.withStack _
      exact .of_ok answered finishOrdered.left (continues inside)
        ⟨⟨same, accounted, callees⟩, finishOrdered.unfinished function begun⟩
  | error error finish =>
      rcases worked.error ran with ⟨finishOrdered, inside⟩
      have failed : onStack function work start = .error error (leave finish) := by
        simp only [onStack, entered] at ran ⊢
        rw [ran]
      exact .of_error failed finishOrdered.left (continues inside)

theorem once_orders {record : Tracing RecordedFunction}
    (orders : ∀ session : Session, session.context.Ordered →
      Orders record session (RecordsAfterCallees function))
    (ordered : start.context.Ordered) :
    Orders (once function record) start fun _ context => function.id ∈ context.order := by
  apply Orders.get_bind
  split
  next recorded found => exact .pure ordered (TraceContext.mem_order_of_find? found)
  next absent =>
    split
    next unlinked =>
      have unfinished : function.id ∉ start.context.order := by
        rw [TraceContext.mem_order_iff, absent]
        nofun
      have unlinked := TraceContext.notMem_stack_of_chainFrom unlinked
      dsimp only
      apply Orders.bind (log_orders ordered _)
      intro _ begun begunOrdered _ same
      rw [← same] at unfinished unlinked
      apply Orders.bind (onStack_orders orders begunOrdered unfinished)
      rintro recorded state stateOrdered continues ⟨⟨same, accounted, callees⟩, unfinished⟩
      rw [← continues.stack] at unlinked
      apply Orders.bind (log_orders stateOrdered _)
      intro _ finish finishOrdered _ unchanged
      rw [← unchanged] at unfinished unlinked accounted callees
      have own : recorded.id = function.id := congrArg ShaderFunction.id same
      have kept : Orders (keep recorded) finish fun _ context =>
          context = finish.context.kept recorded :=
        .of_ok rfl (finishOrdered.kept (own ▸ unfinished) (own ▸ unlinked) accounted callees)
          (finish.context.continues_kept recorded) rfl
      apply Orders.bind kept
      intro _ final finalOrdered _ same
      refine .pure finalOrdered ?_
      rw [same, TraceContext.mem_order_kept, own]
      exact List.mem_append_right _ List.mem_cons_self
    next => exact .throw ordered

theorem recording_orders {α : Type} {around : Surroundings} {work : Recording α}
    {post : α → Recorder → Prop} (records : RecordsInOrder around.trace)
    (ordered : start.context.Ordered) (follows : work.Follows around { session := start })
    (holds : ∀ result finish, work { session := start } = .ok result finish →
      finish.Accounted start.context → post result finish) :
    Orders (recording work) start fun result context =>
      ∃ finish, post result finish ∧ finish.session.context = context := by
  have empty := Recorder.accounted_empty ordered
  cases ran : work { session := start } with
  | ok result finish =>
      have accounted := (follows.becomes_of_ok ran).accounted records empty
      have same : recording work start = .ok result finish.session := by
        rw [recording, ran]
      exact .of_ok same accounted.ordered accounted.continues
        ⟨finish, holds result finish ran accounted, rfl⟩
  | error error finish =>
      have accounted := (follows.becomes_of_error ran).accounted records empty
      have same : recording work start = .error error finish.session := by
        rw [recording, ran]
      exact .of_error same accounted.ordered accounted.continues

theorem addParameters_follows {around : Surroundings} {parameters : List Parameter} {index : Nat}
    {start : Recorder} :
    Recording.Follows around (addParameters around.function index parameters) start := by
  induction parameters generalizing index start with
  | nil => exact .pure ()
  | cons parameter rest induction =>
      have covered : start.ledger.Covers (.parameter index) := trivial
      unfold addParameters
      apply Recording.Follows.bind (Recording.addValue_follows parameter.type covered trivial)
      intro node _ _
      apply Recording.Follows.bind (Recording.assign_follows _ node)
      intro _ _ _
      exact induction

def scriptWork (around : Surroundings) (body : Script) (result : Option Operand) :
    Recording RecordedFunction := do
  addParameters around.function 0 around.function.signature.parameters
  body.perform around
  let result ← Recording.operand? around.function result
  Recording.finish around.function result

theorem scriptWork_follows (around : Surroundings) (body : Script) (result : Option Operand)
    (start : Recorder) : (scriptWork around body result).Follows around start := by
  apply Recording.Follows.bind addParameters_follows
  intro _ state _
  apply Recording.Follows.bind (body.perform_follows around state)
  intro _ state _
  apply Recording.Follows.bind (Recording.operand?_follows around result)
  intro node _ _
  exact Recording.finish_follows around node

theorem scriptWork_recorded {around : Surroundings} {body : Script} {result : Option Operand}
    {start final : Recorder} {recorded : RecordedFunction}
    (ran : scriptWork around body result start = .ok recorded final) :
    recorded = final.recorded around.function := by
  rcases bind_ran_ok.mp ran with ⟨_, _, _, ran⟩
  rcases bind_ran_ok.mp ran with ⟨_, _, _, ran⟩
  rcases bind_ran_ok.mp ran with ⟨_, _, _, ran⟩
  exact Recording.finish_recorded ran

theorem recordScript_orders {around : Surroundings} {body : Script} {result : Option Operand}
    (records : RecordsInOrder around.trace) (ordered : start.context.Ordered)
    (scripted : around.function.implementation = .script body result) :
    Orders (recordScript around body result) start (RecordsAfterCallees around.function) := by
  have follows := scriptWork_follows around body result { session := start }
  have recorded : Orders (recording (scriptWork around body result)) start
      fun recorded context => ∃ finish : Recorder,
        (recorded = finish.recorded around.function ∧ finish.Accounted start.context) ∧
          finish.session.context = context :=
    recording_orders records ordered follows fun recorded finish ran accounted =>
      ⟨scriptWork_recorded ran, accounted⟩
  refine recorded.imp ?_
  rintro recorded context ⟨finish, ⟨rfl, accounted⟩, rfl⟩
  refine ⟨rfl, ⟨accounted.expressions, ?_, ?_, accounted.constants, accounted.keyed⟩,
    accounted.callees⟩
  · rintro block ⟨⟩
    exact accounted.openBlock_calls
  · intro text references raw
    rw [Recorder.recorded, scripted] at raw
    cases raw

theorem recordReferences_orders {around : Surroundings} (records : RecordsInOrder around.trace)
    {references : List (String × FunctionId)} {known : List FunctionId}
    (ordered : start.context.Ordered) (finished : ∀ id ∈ known, id ∈ start.context.order) :
    Orders (recordReferences around known references) start fun callees context =>
      (∀ id ∈ known, id ∈ callees) ∧ (∀ reference ∈ references, reference.2 ∈ callees) ∧
        ∀ id ∈ callees, id ∈ context.order := by
  induction references generalizing known start with
  | nil => exact .pure ordered ⟨fun _ member => member, nofun, finished⟩
  | cons reference rest induction =>
      unfold recordReferences
      split
      next => exact .throw ordered
      next callee found =>
        have own : callee.id = reference.2 := Program.find?_id found
        apply Orders.bind (records callee start ordered).discard
        rintro _ state stateOrdered continues ⟨_, traced⟩
        have finished : ∀ id ∈ Recorder.addNew known reference.2, id ∈ state.context.order := by
          intro id member
          rcases Recorder.mem_addNew.mp member with old | rfl
          · exact continues.order id (finished id old)
          · exact own ▸ traced
        refine (induction stateOrdered finished).imp ?_
        rintro callees context ⟨kept, referred, callees⟩
        refine ⟨fun id member => kept id (Recorder.mem_addNew.mpr (.inl member)), ?_, callees⟩
        intro other member
        rcases List.mem_cons.mp member with rfl | member
        · exact kept _ (Recorder.mem_addNew.mpr (.inr rfl))
        · exact referred other member

theorem record_orders {around : Surroundings} (records : RecordsInOrder around.trace)
    (ordered : start.context.Ordered) :
    Orders (record around) start (RecordsAfterCallees around.function) := by
  unfold record
  split
  next body result scripted => exact recordScript_orders records ordered scripted
  next text references raw =>
    have finished : ∀ id ∈ ([] : List FunctionId), id ∈ start.context.order :=
      fun _ member => nomatch member
    apply Orders.bind (recordReferences_orders records ordered finished)
    rintro callees state stateOrdered _ ⟨_, referred, finished⟩
    refine .pure stateOrdered ⟨rfl, ⟨?_, nofun, ?_, nofun, ?_⟩, finished⟩
    · intro entry member
      simp at member
    · intro other others same
      rw [raw] at same
      cases same
      exact referred
    · intro entry member
      simp at member

end Tracing

/-! ## References between recordings -/

/-- A recording refers to a function: it lists the function, calls it for a result or for none,
or has a raw text in which a name stands for it. -/
inductive RecordedFunction.Refers (recorded : RecordedFunction) (callee : FunctionId) : Prop where
  | listed (member : callee ∈ recorded.callees) : Refers recorded callee
  | call {entry : ExpressionEntry} {arguments : List Node} (member : entry ∈ recorded.expressions)
      (called : entry.expression = .call callee arguments) : Refers recorded callee
  | statement {block : Block} (body : recorded.body = .statements block)
      (called : callee ∈ blockCalls block) : Refers recorded callee
  | named {text name : String} {references : List (String × FunctionId)}
      (raw : recorded.function.implementation = .raw text references)
      (member : (name, callee) ∈ references) : Refers recorded callee

theorem RecordedFunction.Refers.mem_callees {recorded : RecordedFunction} {callee : FunctionId}
    {context : TraceContext} (refers : recorded.Refers callee)
    (accounted : recorded.Accounted context) : callee ∈ recorded.callees := by
  cases refers with
  | listed member => exact member
  | call member called => exact accounted.covers member called
  | statement body called => exact accounted.calls _ body callee called
  | named raw member => exact accounted.references _ _ raw _ member

/-- A finished recording of the caller refers to the callee. -/
def TraceContext.RefersTo (context : TraceContext) (caller callee : FunctionId) : Prop :=
  ∃ recorded, context.find? caller = some recorded ∧ recorded.Refers callee

theorem TraceContext.Ordered.calls_of_refersTo {context : TraceContext}
    (ordered : context.Ordered) {caller callee : FunctionId}
    (refers : context.RefersTo caller callee) : context.Calls caller callee := by
  rcases refers with ⟨recorded, found, refers⟩
  exact ⟨recorded, found,
    refers.mem_callees (ordered.accounted recorded (TraceContext.find?_mem found).1)⟩

/-- References, also through other functions, lead to functions that were finished before. -/
theorem TraceContext.Ordered.precedes {context : TraceContext} (ordered : context.Ordered)
    {caller callee : FunctionId} (refers : Relation.TransGen context.RefersTo caller callee) :
    Precedes context.order callee caller := by
  have calls : Relation.TransGen context.Calls caller callee :=
    Relation.TransGen.mono (fun _ _ => ordered.calls_of_refersTo) caller callee refers
  have finished : caller ∈ context.order := by
    rcases Relation.TransGen.head'_iff.mp refers with ⟨_, ⟨_, found, _⟩, _⟩
    exact mem_order_of_find? found
  exact ordered.inOrder.precedes_of_transGen finished calls

theorem TraceContext.Ordered.find?_of_mem {context : TraceContext} (ordered : context.Ordered)
    {recorded : RecordedFunction} (member : recorded ∈ context.finished) :
    context.find? recorded.id = some recorded := by
  have different : (context.finished.map RecordedFunction.id).Nodup := ordered.inOrder.nodup
  have inside : recorded.id ∈ context.order := List.mem_map_of_mem member
  rcases Option.isSome_iff_exists.mp (mem_order_iff.mp inside) with ⟨found, same⟩
  rw [same]
  rcases find?_mem same with ⟨foundMember, sameId⟩
  exact congrArg some (List.inj_on_of_nodup_map different foundMember member sameId)

/-! ## Tracing a program -/

theorem Program.traceWithin_recordsInOrder (program : Program) (depth : Nat) :
    RecordsInOrder (program.traceWithin depth) := by
  induction depth with
  | zero =>
      intro function session ordered
      exact Tracing.once_orders (fun session ordered => .throw ordered) ordered
  | succ depth induction =>
      intro function session ordered
      exact Tracing.once_orders (fun session ordered =>
        @Tracing.record_orders session ⟨program, program.traceWithin depth, function⟩ induction
          ordered) ordered

def Program.attempt (program : Program) (session : Session) (function : ShaderFunction) :
    Session :=
  match program.trace function session with
  | .ok _ finish => finish
  | .error _ finish => finish

/-- The session after some traces, each of which may fail. -/
def Program.attemptAll (program : Program) (functions : List ShaderFunction)
    (session : Session) : Session :=
  functions.foldl program.attempt session

theorem Program.attempt_ordered (program : Program) (function : ShaderFunction)
    {session : Session} (ordered : session.context.Ordered) :
    (program.attempt session function).context.Ordered := by
  have orders := program.traceWithin_recordsInOrder (program.functions.length + 1) function
    session ordered
  unfold attempt
  split
  next ran => exact (orders.ok ran).1
  next ran => exact (orders.error ran).1

theorem Program.attemptAll_ordered (program : Program) (functions : List ShaderFunction)
    {session : Session} (ordered : session.context.Ordered) :
    (program.attemptAll functions session).context.Ordered := by
  induction functions generalizing session with
  | nil => exact ordered
  | cons function rest induction => exact induction (program.attempt_ordered function ordered)

/-- Post-order of recordings. After any traces, each of which may fail, the context lists every
finished function once, and every recording that it holds is the one found under its function.
What a finished function refers to stands before it, and references lead in no circle. After one
more trace that succeeds, all that the function reaches stands before it. -/
theorem Program.attemptAll_postOrder (program : Program) (functions : List ShaderFunction)
    (journal : Journal) :
    let session := program.attemptAll functions { journal := journal }
    let context := session.context
    context.order.Nodup ∧
      (∀ id, id ∈ context.order ↔ (context.find? id).isSome) ∧
      (∀ recorded ∈ context.finished, context.find? recorded.id = some recorded) ∧
      (∀ caller callee, context.RefersTo caller callee →
        (context.find? callee).isSome ∧ Precedes context.order callee caller) ∧
      (∀ id, ¬ Relation.TransGen context.RefersTo id id) ∧
      ∀ function recorded finish, program.trace function session = .ok recorded finish →
        function.id ∈ finish.context.order ∧
          ∀ id, Relation.TransGen finish.context.RefersTo function.id id →
            Precedes finish.context.order id function.id := by
  intro session context
  have ordered : context.Ordered :=
    program.attemptAll_ordered functions TraceContext.ordered_empty
  refine ⟨ordered.inOrder.nodup, fun _ => TraceContext.mem_order_iff,
    fun _ member => ordered.find?_of_mem member, ?_, ?_, ?_⟩
  · intro caller callee refers
    have precedes := ordered.precedes (.single refers)
    exact ⟨TraceContext.mem_order_iff.mp precedes.1, precedes⟩
  · intro id circle
    exact Nat.lt_irrefl _ (ordered.precedes circle).2
  · intro function recorded finish ran
    have traced := program.traceWithin_recordsInOrder (program.functions.length + 1) function
      session ordered
    rcases traced.ok ran with ⟨finishOrdered, _, finished⟩
    exact ⟨finished, fun id reached => finishOrdered.precedes reached⟩

def exampleHalf : ShaderFunction where
  id := ⟨1⟩
  signature := ⟨"half", [⟨"number", .f32⟩], some .f32, none⟩
  implementation := .raw "\x7b return 0.5 * number; \x7d" []

def exampleQuarter : ShaderFunction where
  id := ⟨0⟩
  signature := ⟨"quarter", [⟨"number", .f32⟩], some .f32, none⟩
  implementation := .script
    (.ofList [
      .attempt (.ofList [.call "none" ⟨0⟩ [.register "$0"]]),
      .call "half" ⟨1⟩ [.register "$0"],
      .call "quarter" ⟨1⟩ [.register "half"]])
    (some (.register "quarter"))

theorem attemptAll_postOrder_exampleQuarter :
    let program : Program := ⟨[exampleQuarter, exampleHalf]⟩
    let session := program.attemptAll [exampleHalf] {}
    ∃ recorded finish, program.trace exampleQuarter session = .ok recorded finish ∧
      finish.context.RefersTo ⟨0⟩ ⟨1⟩ ∧ Precedes finish.context.order ⟨1⟩ ⟨0⟩ := by
  intro program session
  have succeeds : (match program.trace exampleQuarter session with
      | .ok _ finish => (finish.context.find? ⟨0⟩).any fun recorded =>
          recorded.callees.contains ⟨1⟩
      | .error _ _ => false) = true := by decide +kernel
  have ordered := Program.attemptAll_postOrder program [exampleHalf] {}
  cases ran : program.trace exampleQuarter session with
  | ok recorded finish =>
      rw [ran] at succeeds
      rcases (Option.any_eq_true _ _).mp succeeds with ⟨kept, found, listed⟩
      have refers : finish.context.RefersTo ⟨0⟩ ⟨1⟩ :=
        ⟨kept, found, .listed (List.contains_iff_mem.mp listed)⟩
      rcases ordered with ⟨_, _, _, _, _, later⟩
      exact ⟨recorded, finish, rfl, refers,
        (later exampleQuarter recorded finish ran).2 ⟨1⟩ (.single refers)⟩
  | error error finish =>
      rw [ran] at succeeds
      cases succeeds

end ShaderKit
