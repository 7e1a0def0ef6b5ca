import ShaderKit.Proofs.InOrder
import ShaderKit.Proofs.Recording.Changes

/-!
# Contexts in order

A finished recording accounts for everything that its expressions and statements refer to, and
a context holds the callees of a recording before the recording itself. Recording a body keeps
both, by one case for each kind of change.
-/

namespace ShaderKit

theorem getElem?_of_prefix {α : Type} {items more : List α} {index : Nat} {item : α}
    (kept : items <+: more) (found : items[index]? = some item) : more[index]? = some item := by
  have ⟨rest, same⟩ := kept
  rw [← same, List.getElem?_append_left (List.getElem?_eq_some_iff.mp found).1]
  exact found

/-! ## Contexts -/

namespace TraceContext

def Calls (context : TraceContext) (caller callee : FunctionId) : Prop :=
  ∃ recorded, context.find? caller = some recorded ∧ callee ∈ recorded.callees

theorem mem_order_iff {context : TraceContext} {id : FunctionId} :
    id ∈ context.order ↔ (context.find? id).isSome := by
  rw [order, find?, List.find?_isSome, List.mem_map]
  simp only [decide_eq_true_eq]

theorem mem_order_of_find? {context : TraceContext} {id : FunctionId}
    {recorded : RecordedFunction} (found : context.find? id = some recorded) :
    id ∈ context.order := by
  rw [mem_order_iff, found]
  rfl

theorem find?_mem {context : TraceContext} {id : FunctionId} {recorded : RecordedFunction}
    (found : context.find? id = some recorded) : recorded ∈ context.finished ∧ recorded.id = id :=
  ⟨List.mem_of_find?_eq_some found, of_decide_eq_true (List.find?_some found :)⟩

/-- A later context of the same work: it has more at the end, and the same functions are being
recorded. -/
structure Continues (before after : TraceContext) : Prop where
  finished : before.finished <+: after.finished
  constants : before.constants <+: after.constants
  keys : before.constantKeys.values <+: after.constantKeys.values
  stack : after.stack = before.stack

theorem Continues.refl (context : TraceContext) : context.Continues context :=
  ⟨List.prefix_refl _, List.prefix_refl _, List.prefix_refl _, rfl⟩

theorem Continues.trans {before middle after : TraceContext} (first : before.Continues middle)
    (second : middle.Continues after) : before.Continues after :=
  ⟨first.finished.trans second.finished, first.constants.trans second.constants,
    first.keys.trans second.keys, second.stack.trans first.stack⟩

theorem Continues.order {before after : TraceContext} (continues : before.Continues after) :
    ∀ id ∈ before.order, id ∈ after.order :=
  fun _ member => (continues.finished.map RecordedFunction.id).subset member

end TraceContext

/-- An entry that refers to a constant has the type in the key of the constant. -/
def ExpressionEntry.KeyedIn (entry : ExpressionEntry) (context : TraceContext) : Prop :=
  ∀ number, entry.expression = .constant number → ∃ bytes,
    context.constantKeys.values[number]? = some (entry.type, bytes)

theorem ExpressionEntry.KeyedIn.continue {entry : ExpressionEntry} {before after : TraceContext}
    (keyed : entry.KeyedIn before) (continues : before.Continues after) : entry.KeyedIn after := by
  intro number refers
  have ⟨bytes, found⟩ := keyed number refers
  exact ⟨bytes, getElem?_of_prefix continues.keys found⟩

structure RecordedFunction.Accounted (recorded : RecordedFunction) (context : TraceContext) :
    Prop where
  expressions : ∀ entry ∈ recorded.expressions, recorded.ledger.Covers entry.expression
  calls : ∀ block, recorded.body = .statements block → ∀ callee ∈ blockCalls block,
    callee ∈ recorded.callees
  references : ∀ text references, recorded.function.implementation = .raw text references →
    ∀ reference ∈ references, reference.2 ∈ recorded.callees
  constants : ∀ number ∈ recorded.constants, number < context.constants.length
  keyed : ∀ entry ∈ recorded.expressions, entry.KeyedIn context

theorem RecordedFunction.Accounted.covers {recorded : RecordedFunction} {context : TraceContext}
    {entry : ExpressionEntry} {expression : Expression} (accounted : recorded.Accounted context)
    (member : entry ∈ recorded.expressions) (same : entry.expression = expression) :
    recorded.ledger.Covers expression :=
  same ▸ accounted.expressions entry member

theorem RecordedFunction.Accounted.continue {recorded : RecordedFunction}
    {before after : TraceContext} (accounted : recorded.Accounted before)
    (continues : before.Continues after) : recorded.Accounted after where
  expressions := accounted.expressions
  calls := accounted.calls
  references := accounted.references
  constants number member :=
    Nat.lt_of_lt_of_le (accounted.constants number member) continues.constants.length_le
  keyed entry member := (accounted.keyed entry member).continue continues

theorem RecordedFunction.Accounted.withStack {recorded : RecordedFunction}
    {context : TraceContext} (accounted : recorded.Accounted context)
    (stack : List ShaderFunction) : recorded.Accounted { context with stack := stack } where
  expressions := accounted.expressions
  calls := accounted.calls
  references := accounted.references
  constants := accounted.constants
  keyed := accounted.keyed

/-- A context whose recordings stand in the order of their calls. A function that is being
recorded is not finished. -/
structure TraceContext.Ordered (context : TraceContext) : Prop where
  inOrder : InOrder context.Calls context.order
  unfinished : ∀ function ∈ context.stack, function.id ∉ context.order
  numbered : context.constantKeys.values.length = context.constants.length
  accounted : ∀ recorded ∈ context.finished, recorded.Accounted context

namespace TraceContext

theorem ordered_empty : TraceContext.Ordered {} where
  inOrder := .nil _
  unfinished _ member := nomatch member
  numbered := rfl
  accounted _ member := nomatch member

theorem Numbers.continues {context next : TraceContext} {label : Option String}
    {type : TypeDescriptor} {bytes : Bytes} {number : Nat}
    (numbers : context.Numbers label type bytes number next) : context.Continues next := by
  cases numbers with
  | known => exact .refl context
  | added =>
      exact ⟨List.prefix_refl _, List.prefix_append _ _, List.prefix_append _ _, rfl⟩

theorem Numbers.finished {context next : TraceContext} {label : Option String}
    {type : TypeDescriptor} {bytes : Bytes} {number : Nat}
    (numbers : context.Numbers label type bytes number next) :
    next.finished = context.finished := by
  cases numbers <;> rfl

theorem Ordered.internConstant {context next : TraceContext} {label : Option String}
    {type : TypeDescriptor} {value : HostValue} {number : Nat} (ordered : context.Ordered)
    (interned : context.internConstant label type value = .ok number next) :
    next.Ordered ∧ context.Continues next ∧ number < next.constants.length := by
  have ⟨bytes, _, numbers⟩ := numbers_of_internConstant interned
  have continues := numbers.continues
  rcases numbers with found | ⟨canonical, new, _⟩
  · have below := (List.getElem?_eq_some_iff.mp found).1
    exact ⟨ordered, continues, ordered.numbered ▸ below⟩
  · refine ⟨⟨ordered.inOrder, ordered.unfinished, ?_, fun recorded member =>
      (ordered.accounted recorded member).continue continues⟩, continues, ?_⟩
    · rw [withConstant, Interning.values_add, List.length_append, List.length_append,
        ordered.numbered]
      rfl
    · rw [withConstant, List.length_append, ordered.numbered]
      exact Nat.lt_succ_self _

end TraceContext

/-! ## Tracing in order -/

/-- Work that keeps contexts in order, also where it fails. A result is as described by the
postcondition. -/
def Tracing.Orders {α : Type} (work : Tracing α) (start : Session)
    (post : α → TraceContext → Prop) : Prop :=
  match work start with
  | .ok result finish =>
      finish.context.Ordered ∧ start.context.Continues finish.context ∧ post result finish.context
  | .error _ finish => finish.context.Ordered ∧ start.context.Continues finish.context

namespace Tracing.Orders

variable {α : Type} {work : Tracing α} {start : Session} {post : α → TraceContext → Prop}

theorem of_ok {result : α} {finish : Session} (ran : work start = .ok result finish)
    (ordered : finish.context.Ordered) (continues : start.context.Continues finish.context)
    (holds : post result finish.context) : work.Orders start post := by
  unfold Orders
  rw [ran]
  exact ⟨ordered, continues, holds⟩

theorem of_error {error : ShaderError} {finish : Session}
    (ran : work start = .error error finish) (ordered : finish.context.Ordered)
    (continues : start.context.Continues finish.context) : work.Orders start post := by
  unfold Orders
  rw [ran]
  exact ⟨ordered, continues⟩

theorem ok {result : α} {finish : Session} (orders : work.Orders start post)
    (ran : work start = .ok result finish) :
    finish.context.Ordered ∧ start.context.Continues finish.context ∧
      post result finish.context := by
  unfold Orders at orders
  rw [ran] at orders
  exact orders

theorem error {error : ShaderError} {finish : Session} (orders : work.Orders start post)
    (ran : work start = .error error finish) :
    finish.context.Ordered ∧ start.context.Continues finish.context := by
  unfold Orders at orders
  rw [ran] at orders
  exact orders

theorem imp {other : α → TraceContext → Prop} (orders : work.Orders start post)
    (weaker : ∀ result context, post result context → other result context) :
    work.Orders start other := by
  cases ran : work start with
  | ok result finish =>
      rcases orders.ok ran with ⟨ordered, continues, holds⟩
      exact of_ok ran ordered continues (weaker result finish.context holds)
  | error error finish => exact of_error ran (orders.error ran).1 (orders.error ran).2

end Tracing.Orders

/-- A way of recording functions that keeps contexts in order. -/
def RecordsInOrder (trace : ShaderFunction → Tracing RecordedFunction) : Prop :=
  ∀ function session, session.context.Ordered →
    (trace function).Orders session fun _ context => function.id ∈ context.order

/-! ## Ledgers grow -/

structure Ledger.Within (ledger other : Ledger) : Prop where
  callees : ∀ callee ∈ ledger.callees, callee ∈ other.callees
  constants : ∀ number ∈ ledger.constants, number ∈ other.constants
  bindings : ∀ entry ∈ ledger.bindings, entry ∈ other.bindings
  helpers : ∀ helper ∈ ledger.helpers, helper ∈ other.helpers

theorem Ledger.Within.refl (ledger : Ledger) : ledger.Within ledger :=
  ⟨fun _ member => member, fun _ member => member, fun _ member => member,
    fun _ member => member⟩

theorem Ledger.Within.trans {first second third : Ledger} (one : first.Within second)
    (two : second.Within third) : first.Within third where
  callees callee member := two.callees callee (one.callees callee member)
  constants number member := two.constants number (one.constants number member)
  bindings entry member := two.bindings entry (one.bindings entry member)
  helpers helper member := two.helpers helper (one.helpers helper member)

theorem Ledger.Covers.mono {ledger other : Ledger} {expression : Expression}
    (covers : ledger.Covers expression) (within : ledger.Within other) :
    other.Covers expression := by
  cases expression with
  | constant number => exact within.constants number covers
  | binding slot =>
      rcases covers with ⟨entry, member, same⟩
      exact ⟨entry, within.bindings entry member, same⟩
  | helper helper => exact within.helpers helper covers
  | call callee => exact within.callees callee covers
  | _ => trivial

namespace Recorder

variable {around : Surroundings} {recorder before after : Recorder}

theorem ledger_addStatement (recorder : Recorder) (statement : Statement) :
    (recorder.addStatement statement).ledger = recorder.ledger := by
  rw [addStatement_eq]
  rfl

theorem ledger_withExpression (function : ShaderFunction) (expression : Expression)
    (type : TypeDescriptor) (reference : Option Reference) :
    (recorder.withExpression function expression type reference).ledger = recorder.ledger := by
  unfold withExpression
  dsimp only
  split
  next => rfl
  next => exact ledger_addStatement _ _

theorem ledger_withVariable (function : ShaderFunction) (declared : LocalVariable)
    (initial : Option Node) :
    (recorder.withVariable function declared initial).ledger = recorder.ledger := by
  unfold withVariable
  rw [ledger_withExpression, ledger_addStatement]
  rfl

theorem ledger_counting (function : ShaderFunction) (type : TypeDescriptor) :
    (recorder.counting function type).ledger = recorder.ledger := by
  unfold counting
  rw [ledger_withExpression]
  rfl

theorem callees_addStatement (recorder : Recorder) (statement : Statement) :
    (recorder.addStatement statement).callees = recorder.callees :=
  congrArg Ledger.callees (recorder.ledger_addStatement statement)

theorem callees_withExpression (recorder : Recorder) (function : ShaderFunction)
    (expression : Expression) (type : TypeDescriptor) (reference : Option Reference) :
    (recorder.withExpression function expression type reference).callees = recorder.callees :=
  congrArg Ledger.callees (ledger_withExpression function expression type reference)

theorem callees_withVariable (recorder : Recorder) (function : ShaderFunction)
    (declared : LocalVariable) (initial : Option Node) :
    (recorder.withVariable function declared initial).callees = recorder.callees :=
  congrArg Ledger.callees (ledger_withVariable function declared initial)

theorem callees_counting (recorder : Recorder) (function : ShaderFunction)
    (type : TypeDescriptor) : (recorder.counting function type).callees = recorder.callees :=
  congrArg Ledger.callees (ledger_counting function type)

/-- What a recording has noted stays noted. -/
theorem Becomes.within (becomes : before.Becomes around after) :
    before.ledger.Within after.ledger := by
  have noted {α : Type} [DecidableEq α] {items : List α} {item : α} :
      ∀ other ∈ items, other ∈ addNew items item := fun _ member => mem_addNew.mpr (.inl member)
  induction becomes with
  | refl | localVariable | register | journal | untraced => exact .refl _
  | trans _ _ first second => exact first.trans second
  | expression =>
      rw [ledger_withExpression]
      exact .refl _
  | statement =>
      rw [ledger_addStatement]
      exact .refl _
  | declared =>
      rw [ledger_withVariable]
      exact .refl _
  | branch _ _ _ accept reject =>
      rw [ledger_addStatement]
      exact accept.trans reject
  | loop _ body =>
      rw [ledger_addStatement]
      exact body
  | range _ _ _ body =>
      rw [ledger_counting] at body
      rw [ledger_addStatement]
      exact body
  | dropped _ _ inside => exact inside
  | droppedRange _ inside =>
      rw [ledger_counting] at inside
      exact inside
  | constant => exact { Ledger.Within.refl _ with constants := noted }
  | helper => exact { Ledger.Within.refl _ with helpers := noted }
  | binding => exact { Ledger.Within.refl _ with bindings := noted }
  | traced => exact { Ledger.Within.refl _ with callees := noted }

/-! ## Accounts of a recording under way -/

structure Accounted (recorder : Recorder) (start : TraceContext) : Prop where
  ordered : recorder.session.context.Ordered
  continues : start.Continues recorder.session.context
  expressions : ∀ entry ∈ recorder.expressions, recorder.ledger.Covers entry.expression
  calls : ∀ block ∈ recorder.blocks, ∀ callee ∈ blockCalls block, callee ∈ recorder.callees
  callees : ∀ callee ∈ recorder.callees, callee ∈ recorder.session.context.order
  constants : ∀ number ∈ recorder.constants, number < recorder.session.context.constants.length
  keyed : ∀ entry ∈ recorder.expressions, entry.KeyedIn recorder.session.context

variable {start : TraceContext}

theorem accounted_empty {session : Session} (ordered : session.context.Ordered) :
    Accounted { session := session } session.context where
  ordered := ordered
  continues := .refl _
  expressions _ member := by simp at member
  calls block member := by
    rw [List.mem_singleton.mp member]
    nofun
  callees _ member := nomatch member
  constants _ member := nomatch member
  keyed _ member := by simp at member

theorem blockCalls_append (block more : Block) :
    blockCalls (block ++ more) = blockCalls block ++ blockCalls more := by
  induction block with
  | nil => rfl
  | cons statement rest induction =>
      rw [List.cons_append, blockCalls, blockCalls, induction, List.append_assoc]

theorem Accounted.openBlock_calls (accounted : recorder.Accounted start) :
    ∀ callee ∈ blockCalls recorder.openBlock, callee ∈ recorder.callees := by
  unfold openBlock
  cases same : recorder.blocks with
  | nil => nofun
  | cons block outer =>
      exact accounted.calls block (same ▸ List.mem_cons_self)

theorem Accounted.addStatement {statement : Statement} (accounted : recorder.Accounted start)
    (covered : ∀ callee ∈ statement.calls, callee ∈ recorder.callees) :
    (recorder.addStatement statement).Accounted start := by
  unfold Recorder.addStatement
  split
  next => exact accounted
  next block outer same =>
    refine { accounted with calls := fun other member callee called => ?_ }
    rcases List.mem_cons.mp member with rfl | member
    · rw [blockCalls_append, List.mem_append] at called
      rcases called with called | called
      · exact accounted.calls block (same ▸ List.mem_cons_self) callee called
      · rw [blockCalls, blockCalls, List.append_nil] at called
        exact covered callee called
    · exact accounted.calls other (same ▸ List.mem_cons_of_mem _ member) callee called

theorem Accounted.opened (accounted : recorder.Accounted start) (deeper : Nat) :
    (recorder.opened deeper).Accounted start where
  ordered := accounted.ordered
  continues := accounted.continues
  expressions := accounted.expressions
  calls block member := by
    rcases List.mem_cons.mp member with rfl | member
    · nofun
    · exact accounted.calls block member
  callees := accounted.callees
  constants := accounted.constants
  keyed := accounted.keyed

theorem Accounted.closed (accounted : recorder.Accounted start) (deeper : Nat) :
    (recorder.closed deeper).Accounted start where
  ordered := accounted.ordered
  continues := accounted.continues
  expressions := accounted.expressions
  calls block member := accounted.calls block (List.mem_of_mem_tail member)
  callees := accounted.callees
  constants := accounted.constants
  keyed := accounted.keyed

theorem Accounted.withExpression {expression : Expression} (accounted : recorder.Accounted start)
    (function : ShaderFunction) (type : TypeDescriptor) (reference : Option Reference)
    (covered : recorder.ledger.Covers expression)
    (numbered : ∀ number, expression = .constant number → ∃ bytes,
      recorder.session.context.constantKeys.values[number]? = some (type, bytes)) :
    (recorder.withExpression function expression type reference).Accounted start := by
  have pushed (scope : Nat) :
      (recorder.push ⟨expression, type, reference, scope⟩).Accounted start :=
    { accounted with
      expressions := fun entry member => by
        rcases Array.mem_push.mp member with old | rfl
        · exact accounted.expressions entry old
        · exact covered
      keyed := fun entry member => by
        rcases Array.mem_push.mp member with old | rfl
        · exact accounted.keyed entry old
        · exact numbered }
  unfold Recorder.withExpression
  dsimp only
  split
  next => exact pushed _
  next => exact (pushed _).addStatement nofun

theorem Accounted.withLocal (accounted : recorder.Accounted start) (declared : LocalVariable) :
    (Recording.withLocal recorder declared).Accounted start :=
  { accounted with }

theorem Accounted.withVariable (accounted : recorder.Accounted start) (function : ShaderFunction)
    (declared : LocalVariable) (initial : Option Node) :
    (recorder.withVariable function declared initial).Accounted start := by
  have callsNothing : ∀ callee ∈ (Statement.declare recorder.locals.size initial).calls,
      callee ∈ recorder.callees := nofun
  have declares := (accounted.withLocal declared).addStatement callsNothing
  unfold Recorder.withVariable
  exact declares.withExpression _ _ _ trivial nofun

theorem Accounted.counting (accounted : recorder.Accounted start) (function : ShaderFunction)
    (type : TypeDescriptor) : (recorder.counting function type).Accounted start := by
  unfold Recorder.counting
  exact ((accounted.withLocal ⟨none, type⟩).opened 1).withExpression _ _ _ trivial nofun

theorem Accounted.covers_mono (accounted : recorder.Accounted start) {ledger : Ledger}
    (within : recorder.ledger.Within ledger) :
    ∀ entry ∈ recorder.expressions, ledger.Covers entry.expression :=
  fun entry member => (accounted.expressions entry member).mono within

theorem Accounted.withConstant {context : TraceContext} {label : Option String}
    {type : TypeDescriptor} {value : HostValue} {number : Nat}
    (accounted : recorder.Accounted start)
    (interned : recorder.session.context.internConstant label type value =
      .ok number context) : (recorder.withConstant context number).Accounted start := by
  rcases accounted.ordered.internConstant interned with ⟨ordered, continues, below⟩
  have within : recorder.ledger.Within (recorder.withConstant context number).ledger :=
    { Ledger.Within.refl _ with constants := fun _ member => mem_addNew.mpr (.inl member) }
  exact {
    ordered := ordered
    continues := accounted.continues.trans continues
    expressions := accounted.covers_mono within
    calls := accounted.calls
    callees := fun callee member => continues.order callee (accounted.callees callee member)
    constants := fun other member => by
      rcases mem_addNew.mp member with old | rfl
      · exact Nat.lt_of_lt_of_le (accounted.constants other old) continues.constants.length_le
      · exact below
    keyed := fun entry member => (accounted.keyed entry member).continue continues }

theorem Accounted.inSession {session : Session} (accounted : recorder.Accounted start)
    (ordered : session.context.Ordered)
    (continues : recorder.session.context.Continues session.context) :
    (recorder.inSession session).Accounted start where
  ordered := ordered
  continues := accounted.continues.trans continues
  expressions := accounted.expressions
  calls := accounted.calls
  callees callee member := continues.order callee (accounted.callees callee member)
  constants number member :=
    Nat.lt_of_lt_of_le (accounted.constants number member) continues.constants.length_le
  keyed entry member := (accounted.keyed entry member).continue continues

theorem Accounted.withCallee {session : Session} {callee : FunctionId}
    (accounted : (recorder.inSession session).Accounted start)
    (finished : callee ∈ session.context.order) :
    (recorder.withCallee callee session).Accounted start := by
  have within : recorder.ledger.Within (recorder.withCallee callee session).ledger :=
    { Ledger.Within.refl _ with callees := fun _ member => mem_addNew.mpr (.inl member) }
  exact { accounted with
    expressions := accounted.covers_mono within
    calls := fun block member other called =>
      within.callees other (accounted.calls block member other called)
    callees := fun other member => by
      rcases mem_addNew.mp member with old | rfl
      · exact accounted.callees other old
      · exact finished }

/-- Recording keeps the accounts, by cases on the changes that it makes. -/
theorem Becomes.accounted (records : RecordsInOrder around.trace)
    (becomes : before.Becomes around after) (accounted : before.Accounted start) :
    after.Accounted start := by
  induction becomes with
  | refl => exact accounted
  | trans _ _ first second => exact second (first accounted)
  | expression type reference covered admitted =>
      apply accounted.withExpression _ type reference covered
      rintro number rfl
      exact admitted.2
  | statement _ covered => exact accounted.addStatement covered
  | declared recorder declared initial => exact accounted.withVariable _ declared initial
  | branch test _ reject acceptAccounts rejectAccounts =>
      have accepted := acceptAccounts (accounted.opened 0)
      have rejected := rejectAccounts ((accepted.closed 0).opened 0)
      apply (rejected.closed 0).addStatement
      intro callee called
      rw [Statement.calls, List.mem_append] at called
      rcases called with called | called
      · exact reject.within.callees callee (accepted.openBlock_calls callee called)
      · exact rejected.openBlock_calls callee called
  | loop _ bodyAccounts =>
      have body := bodyAccounts (accounted.opened 1)
      exact (body.closed 1).addStatement body.openBlock_calls
  | range _ _ _ bodyAccounts =>
      have body := bodyAccounts (accounted.counting _ _)
      exact (body.closed 1).addStatement body.openBlock_calls
  | dropped deeper _ insideAccounts =>
      exact (insideAccounts (accounted.opened deeper)).closed deeper
  | droppedRange _ insideAccounts => exact (insideAccounts (accounted.counting _ _)).closed 1
  | localVariable _ declared => exact accounted.withLocal declared
  | register => exact { accounted with }
  | constant _ interned => exact accounted.withConstant interned
  | @helper recorder helper _ =>
      have within : recorder.ledger.Within (recorder.withHelper helper).ledger :=
        { Ledger.Within.refl _ with helpers := fun _ member => mem_addNew.mpr (.inl member) }
      exact { accounted with expressions := accounted.covers_mono within }
  | binding recorder entry =>
      have within : recorder.ledger.Within (recorder.withBinding entry).ledger :=
        { Ledger.Within.refl _ with bindings := fun _ member => mem_addNew.mpr (.inl member) }
      exact { accounted with expressions := accounted.covers_mono within }
  | journal => exact accounted.inSession accounted.ordered (.refl _)
  | traced _ _ ran =>
      rcases (records _ _ accounted.ordered).ok ran with ⟨ordered, continues, finished⟩
      exact (accounted.inSession ordered continues).withCallee finished
  | untraced _ _ ran =>
      rcases (records _ _ accounted.ordered).error ran with ⟨ordered, continues⟩
      exact accounted.inSession ordered continues

end Recorder

end ShaderKit
