import ShaderKit.Proofs.Recording.Control
import ShaderKit.Recording.Perform

/-!
# What recording does to a recorder

Whatever a script does, and however it ends, the recorder has gone through changes of a few
kinds only. An invariant of recorders is proved once for each kind of change. Blocks that a
failure dropped stay visible in the changes, because their expressions stay recorded.
-/

namespace ShaderKit

/-! ## What a function takes from its module -/

/-- What a function refers to outside itself: callees, module constants, buffers and
helpers. -/
structure Ledger where
  callees : List FunctionId
  constants : List Nat
  bindings : List BindingEntry
  helpers : List Helper

def Recorder.ledger (recorder : Recorder) : Ledger :=
  ⟨recorder.callees, recorder.constants, recorder.bindings, recorder.helpers⟩

def RecordedFunction.ledger (recorded : RecordedFunction) : Ledger :=
  ⟨recorded.callees, recorded.constants, recorded.bindings, recorded.helpers⟩

/-- What an expression itself refers to outside its function is noted. -/
def Ledger.Covers (ledger : Ledger) : Expression → Prop
  | .constant number => number ∈ ledger.constants
  | .binding slot => ∃ entry ∈ ledger.bindings, entry.slot = slot
  | .helper helper _ => helper ∈ ledger.helpers
  | .call callee _ => callee ∈ ledger.callees
  | _ => True

mutual
def Statement.calls : Statement → List FunctionId
  | .callVoid callee _ => [callee]
  | .branch _ accept reject => blockCalls accept ++ blockCalls reject
  | .loop body => blockCalls body
  | .range _ _ _ body => blockCalls body
  | _ => []

def blockCalls : List Statement → List FunctionId
  | [] => []
  | statement :: rest => statement.calls ++ blockCalls rest
end

def Statement.isPlain : Statement → Bool
  | .branch .. | .loop _ | .range .. => false
  | _ => true

/-! ## Changes -/

namespace Recorder

theorem mem_addNew {α : Type} [DecidableEq α] {items : List α} {item other : α} :
    other ∈ addNew items item ↔ other ∈ items ∨ other = item := by
  unfold addNew
  split
  next known =>
    constructor
    · exact .inl
    · rintro (member | rfl)
      · exact member
      · exact List.contains_iff_mem.mp known
  next => rw [List.mem_append, List.mem_singleton]

/-- The recorder with one more expression, which is bound in the open block unless it is
inlined. -/
def withExpression (recorder : Recorder) (function : ShaderFunction)
    (expression : Expression) (type : TypeDescriptor) (reference : Option Reference) :
    Recorder :=
  let scope := if expression.isGlobal then globalScope else recorder.currentScope
  let pushed := recorder.push ⟨expression, type, reference, scope⟩
  if expression.isInlined reference then pushed
  else pushed.addStatement (.emit ⟨function.id, recorder.expressions.size⟩)

def inSession (recorder : Recorder) (session : Session) : Recorder :=
  { recorder with session := session }

def withCallee (recorder : Recorder) (callee : FunctionId) (session : Session) : Recorder :=
  { recorder with
    session := session
    callees := addNew recorder.callees callee }

def withConstant (recorder : Recorder) (context : TraceContext) (number : Nat) : Recorder :=
  { recorder with
    session := { recorder.session with context := context }
    constants := addNew recorder.constants number }

def withHelper (recorder : Recorder) (helper : Helper) : Recorder :=
  { recorder with helpers := addNew recorder.helpers helper }

def withBinding (recorder : Recorder) (entry : BindingEntry) : Recorder :=
  { recorder with bindings := addNew recorder.bindings entry }

def withRegister (recorder : Recorder) (register : Register) (node : Node) : Recorder :=
  { recorder with registers := (register, node) :: recorder.registers }

def withVariable (recorder : Recorder) (function : ShaderFunction) (declared : LocalVariable)
    (initial : Option Node) : Recorder :=
  let index := recorder.locals.size
  ((Recording.withLocal recorder declared).addStatement (.declare index initial)).withExpression
    function (.localVariable index) declared.type (some ⟨.readWrite, .localVariable⟩)

def counting (recorder : Recorder) (function : ShaderFunction) (type : TypeDescriptor) :
    Recorder :=
  ((Recording.withLocal recorder ⟨none, type⟩).opened 1).withExpression function
    (.localVariable recorder.locals.size) type (some ⟨.read, .localVariable⟩)

/-- An element is taken of a composite. A literal position is within the bounds, where these are
fixed, and only vectors among the values have positions that are not literals. -/
def Selects (recorder : Recorder) (base position : Node) (reference : Option Reference) : Prop :=
  ∃ whole index indexing, recorder.expressions[base.index]? = some whole ∧
    recorder.expressions[position.index]? = some index ∧
    Recording.indexing? whole.type = some indexing ∧
    Recording.outside (Recording.literalIndex? index.expression) indexing.bound = none ∧
    (reference = none → indexing.dynamicOk = true ∨
      (Recording.literalIndex? index.expression).isSome = true)

/-- What is checked of an expression itself before it is added. A buffer is referred to by an
entry for it that is noted, and variables are referred to where they begin. Literals have the
type of their scalar, and constants that of their key. Values that are loaded, numbered, built or
given by a standard function can be constructed. -/
def Admits (recorder : Recorder) (expression : Expression) (type : TypeDescriptor)
    (reference : Option Reference) : Prop :=
  match expression with
  | .binding slot => ∃ entry ∈ recorder.bindings, entry.slot = slot ∧ entry.type = type ∧
      reference = some ⟨entry.access.referenceAccess, .binding⟩
  | .localVariable _ => False
  | .literal value => type = .scalar value.kind
  | .constant number => type.isConstructible = true ∧ ∃ bytes,
      recorder.session.context.constantKeys.values[number]? = some (type, bytes)
  | .load _ | .compose _ | .zero | .standard _ _ => type.isConstructible = true
  | .index base position => recorder.Selects base position reference
  | _ => True

def TypeAt (recorder : Recorder) (node : Node) (type : TypeDescriptor) : Prop :=
  ∃ entry, recorder.expressions[node.index]? = some entry ∧ entry.type = type

def Writable (recorder : Recorder) (node : Node) : Prop :=
  ∃ entry reference, recorder.expressions[node.index]? = some entry ∧
    entry.reference = some reference ∧ reference.access = .readWrite

/-- A statement stores only where that is allowed. It makes nothing available: expressions and
variables are bound by the changes that add them. -/
def Permits (recorder : Recorder) : Statement → Prop
  | .store target _ => recorder.Writable target
  | .emit _ | .declare _ _ => False
  | _ => True

def recorded (recorder : Recorder) (function : ShaderFunction) : RecordedFunction where
  function := function
  expressions := recorder.expressions
  locals := recorder.locals
  body := .statements recorder.openBlock
  callees := recorder.callees
  constants := recorder.constants
  bindings := recorder.bindings
  helpers := recorder.helpers

/-- The changes that recording in some surroundings makes. A statement with blocks is made
of the changes inside its blocks; a block may also be dropped after its changes. -/
inductive Becomes (around : Surroundings) : Recorder → Recorder → Prop where
  | refl (recorder : Recorder) : Becomes around recorder recorder
  | trans {before middle after : Recorder} (first : Becomes around before middle)
      (second : Becomes around middle after) : Becomes around before after
  | expression {recorder : Recorder} {expression : Expression} (type : TypeDescriptor)
      (reference : Option Reference) (covered : recorder.ledger.Covers expression)
      (admitted : recorder.Admits expression type reference) :
      Becomes around recorder
        (recorder.withExpression around.function expression type reference)
  | statement {recorder : Recorder} {statement : Statement} (plain : statement.isPlain = true)
      (covered : ∀ callee ∈ statement.calls, callee ∈ recorder.callees)
      (permitted : recorder.Permits statement) :
      Becomes around recorder (recorder.addStatement statement)
  | declared (recorder : Recorder) (declared : LocalVariable) (initial : Option Node) :
      Becomes around recorder (recorder.withVariable around.function declared initial)
  | branch {recorder accepted rejected : Recorder} (test : Node)
      (accept : Becomes around (recorder.opened 0) accepted)
      (reject : Becomes around ((accepted.closed 0).opened 0) rejected) :
      Becomes around recorder ((rejected.closed 0).addStatement
        (.branch test accepted.openBlock rejected.openBlock))
  | loop {recorder finish : Recorder} (body : Becomes around (recorder.opened 1) finish) :
      Becomes around recorder ((finish.closed 1).addStatement (.loop finish.openBlock))
  | range {recorder finish : Recorder} {type : TypeDescriptor} (first last : Node)
      (body : Becomes around (recorder.counting around.function type) finish) :
      Becomes around recorder ((finish.closed 1).addStatement
        (.range recorder.locals.size first last finish.openBlock))
  | dropped {recorder finish : Recorder} (deeper : Nat)
      (inside : Becomes around (recorder.opened deeper) finish) :
      Becomes around recorder (finish.closed deeper)
  | droppedRange {recorder finish : Recorder} {type : TypeDescriptor}
      (inside : Becomes around (recorder.counting around.function type) finish) :
      Becomes around recorder (finish.closed 1)
  | localVariable (recorder : Recorder) (declared : LocalVariable) :
      Becomes around recorder (Recording.withLocal recorder declared)
  | constant {recorder : Recorder} {context : TraceContext} {label : Option String}
      {type : TypeDescriptor} {value : HostValue} {number : Nat}
      (constructible : type.isConstructible = true)
      (interned : recorder.session.context.internConstant label type value =
        .ok number context) :
      Becomes around recorder (recorder.withConstant context number)
  | helper {recorder : Recorder} {helper : Helper}
      (given : ∀ type ∈ helper.parameterTypes, ∃ node, recorder.TypeAt node type) :
      Becomes around recorder (recorder.withHelper helper)
  | binding (recorder : Recorder) (entry : BindingEntry) :
      Becomes around recorder (recorder.withBinding entry)
  | register (recorder : Recorder) (register : Register) (node : Node) :
      Becomes around recorder (recorder.withRegister register node)
  | journal (recorder : Recorder) (journal : Journal) :
      Becomes around recorder (recorder.inSession { recorder.session with journal := journal })
  | traced {recorder : Recorder} {callee : ShaderFunction} {recorded : RecordedFunction}
      {session : Session} (known : around.program.find? callee.id = some callee)
      (callable : callee.signature.stage = none)
      (ran : around.trace callee recorder.session = .ok recorded session) :
      Becomes around recorder (recorder.withCallee callee.id session)
  | untraced {recorder : Recorder} {callee : ShaderFunction} {error : ShaderError}
      {session : Session} (known : around.program.find? callee.id = some callee)
      (callable : callee.signature.stage = none)
      (ran : around.trace callee recorder.session = .error error session) :
      Becomes around recorder (recorder.inSession session)

/-! ## What the changes keep -/

theorem expressions_addStatement (recorder : Recorder) (statement : Statement) :
    (recorder.addStatement statement).expressions = recorder.expressions := by
  rw [addStatement_eq]

theorem locals_addStatement (recorder : Recorder) (statement : Statement) :
    (recorder.addStatement statement).locals = recorder.locals := by
  rw [addStatement_eq]

theorem locals_withExpression (recorder : Recorder) (function : ShaderFunction)
    (expression : Expression) (type : TypeDescriptor) (reference : Option Reference) :
    (recorder.withExpression function expression type reference).locals = recorder.locals := by
  unfold withExpression
  dsimp only
  split
  next => rfl
  next => exact locals_addStatement _ _

def nextEntry (recorder : Recorder) (expression : Expression) (type : TypeDescriptor)
    (reference : Option Reference) : ExpressionEntry :=
  ⟨expression, type, reference,
    if expression.isGlobal then globalScope else recorder.currentScope⟩

theorem expressions_withExpression (recorder : Recorder) (function : ShaderFunction)
    (expression : Expression) (type : TypeDescriptor) (reference : Option Reference) :
    (recorder.withExpression function expression type reference).expressions =
      recorder.expressions.push (recorder.nextEntry expression type reference) := by
  unfold withExpression
  dsimp only
  split
  next => rfl
  next => exact expressions_addStatement _ _

/-- A later recorder of the same work. Expressions stay recorded, and those that are new refer to
new variables only. -/
structure Preserves (before after : Recorder) : Prop where
  expressions : ∀ (index : Nat) entry, before.expressions[index]? = some entry →
    after.expressions[index]? = some entry
  locals : before.locals.size ≤ after.locals.size
  fresh : ∀ (index : Nat) entry number, after.expressions[index]? = some entry →
    entry.expression = .localVariable number → number < before.locals.size →
      before.expressions[index]? = some entry

variable {before middle after : Recorder}

theorem Preserves.of_eq (expressions : after.expressions = before.expressions)
    (locals : before.locals.size ≤ after.locals.size) : before.Preserves after where
  expressions _ _ found := expressions ▸ found
  locals := locals
  fresh _ _ _ found _ _ := expressions ▸ found

theorem Preserves.refl (recorder : Recorder) : recorder.Preserves recorder :=
  .of_eq rfl (Nat.le_refl _)

theorem Preserves.trans (first : before.Preserves middle) (second : middle.Preserves after) :
    before.Preserves after where
  expressions index entry found := second.expressions index entry (first.expressions index entry found)
  locals := Nat.le_trans first.locals second.locals
  fresh index entry number found same below := by
    have known := second.fresh index entry number found same (Nat.lt_of_lt_of_le below first.locals)
    exact first.fresh index entry number known same below

theorem Preserves.addStatement (preserves : before.Preserves after) (statement : Statement) :
    before.Preserves (after.addStatement statement) :=
  preserves.trans (.of_eq (expressions_addStatement _ _) (locals_addStatement _ _ ▸ Nat.le_refl _))

theorem Preserves.withExpression {expression : Expression} (preserves : before.Preserves after)
    (function : ShaderFunction) (type : TypeDescriptor) (reference : Option Reference)
    (fresh : ∀ number, expression = .localVariable number → before.locals.size ≤ number) :
    before.Preserves (after.withExpression function expression type reference) where
  expressions index entry found := by
    have known := preserves.expressions index entry found
    have below := (Array.getElem?_eq_some_iff.mp known).1
    rw [expressions_withExpression, Array.getElem?_push, if_neg (Nat.ne_of_lt below)]
    exact known
  locals := by
    rw [locals_withExpression]
    exact preserves.locals
  fresh index entry number found same below := by
    rw [expressions_withExpression, Array.getElem?_push] at found
    split at found
    next =>
      cases found
      exact absurd below (Nat.not_lt.mpr (fresh number same))
    next => exact preserves.fresh index entry number found same below

theorem preserves_withLocal (recorder : Recorder) (declared : LocalVariable) :
    recorder.Preserves (Recording.withLocal recorder declared) := by
  refine .of_eq rfl ?_
  rw [Recording.withLocal, Array.size_push]
  exact Nat.le_succ _

theorem preserves_counting (recorder : Recorder) (function : ShaderFunction)
    (type : TypeDescriptor) : recorder.Preserves (recorder.counting function type) := by
  have opened : recorder.Preserves ((Recording.withLocal recorder ⟨none, type⟩).opened 1) :=
    (preserves_withLocal recorder _).trans (.of_eq rfl (Nat.le_refl _))
  apply opened.withExpression
  rintro number ⟨⟩
  exact Nat.le_refl _

theorem preserves_withVariable (recorder : Recorder) (function : ShaderFunction)
    (declared : LocalVariable) (initial : Option Node) :
    recorder.Preserves (recorder.withVariable function declared initial) := by
  have declares := (preserves_withLocal recorder declared).addStatement
    (.declare recorder.locals.size initial)
  unfold withVariable
  apply declares.withExpression
  rintro number ⟨⟩
  exact Nat.le_refl _

theorem preserves_opened (recorder : Recorder) (deeper : Nat) :
    recorder.Preserves (recorder.opened deeper) :=
  .of_eq rfl (Nat.le_refl _)

theorem preserves_closed (recorder : Recorder) (deeper : Nat) :
    recorder.Preserves (recorder.closed deeper) :=
  .of_eq rfl (Nat.le_refl _)

theorem Preserves.around {deeper : Nat} (preserves : (before.opened deeper).Preserves after) :
    before.Preserves (after.closed deeper) :=
  ((preserves_opened before deeper).trans preserves).trans (preserves_closed after deeper)

theorem Becomes.preserves {around : Surroundings} (becomes : before.Becomes around after) :
    before.Preserves after := by
  induction becomes with
  | refl => exact .refl _
  | trans _ _ first second => exact first.trans second
  | expression type reference _ admitted =>
      apply (Preserves.refl _).withExpression
      rintro number rfl
      exact False.elim admitted
  | statement => exact (Preserves.refl _).addStatement _
  | declared => exact preserves_withVariable _ _ _ _
  | branch _ _ _ accept reject => exact (accept.around.trans reject.around).addStatement _
  | loop _ body => exact body.around.addStatement _
  | range _ _ _ body =>
      have inside := (preserves_counting _ _ _).trans body
      exact (inside.trans (preserves_closed _ _)).addStatement _
  | dropped _ _ inside => exact inside.around
  | droppedRange _ inside =>
      exact ((preserves_counting _ _ _).trans inside).trans (preserves_closed _ _)
  | localVariable => exact preserves_withLocal _ _
  | constant | helper | binding | register | journal | traced | untraced =>
      exact .of_eq rfl (Nat.le_refl _)

theorem Writable.later {node : Node} (writable : before.Writable node)
    (preserves : before.Preserves after) : after.Writable node := by
  rcases writable with ⟨entry, reference, found, rest⟩
  exact ⟨entry, reference, preserves.expressions _ _ found, rest⟩

end Recorder

/-! ## Work that makes these changes -/

/-- Whether a failure shows that a function calls itself. -/
def ShaderError.isRecursion : ShaderError → Bool
  | .graph (.recursiveCall _) => true
  | _ => false

section

variable {ε σ α β : Type} {work : EStateM ε σ α} {next : α → EStateM ε σ β}
  {start middle finish : σ}

theorem bind_of_ok {value : α} (ran : work start = .ok value middle) :
    (work >>= next) start = next value middle := by
  simp only [Bind.bind, EStateM.bind, ran]

theorem bind_of_error {error : ε} (ran : work start = .error error middle) :
    (work >>= next) start = .error error middle := by
  simp only [Bind.bind, EStateM.bind, ran]

theorem bind_ran_ok {result : β} : (work >>= next) start = .ok result finish ↔
    ∃ value middle, work start = .ok value middle ∧ next value middle = .ok result finish := by
  constructor
  · intro ran
    cases first : work start with
    | ok value middle =>
        rw [bind_of_ok first] at ran
        exact ⟨value, middle, rfl, ran⟩
    | error error middle =>
        rw [bind_of_error first] at ran
        cases ran
  · rintro ⟨value, middle, first, ran⟩
    exact (bind_of_ok first).trans ran

theorem bind_ran_error {error : ε} : (work >>= next) start = .error error finish ↔
    work start = .error error finish ∨ ∃ value middle, work start = .ok value middle ∧
      next value middle = .error error finish := by
  constructor
  · intro ran
    cases first : work start with
    | ok value middle =>
        rw [bind_of_ok first] at ran
        exact .inr ⟨value, middle, rfl, ran⟩
    | error other middle =>
        rw [bind_of_error first] at ran
        cases ran
        exact .inl rfl
  · rintro (failed | ⟨value, middle, first, ran⟩)
    · exact bind_of_error failed
    · exact (bind_of_ok first).trans ran

theorem bind_ran_congr {other : EStateM ε σ α} {following : α → EStateM ε σ β}
    (first : work start = other start)
    (rest : ∀ value middle, other start = .ok value middle →
      next value middle = following value middle) :
    (work >>= next) start = (other >>= following) start := by
  cases ran : other start with
  | ok value middle =>
      rw [bind_of_ok (first.trans ran), bind_of_ok ran]
      exact rest value middle ran
  | error error middle => rw [bind_of_error (first.trans ran), bind_of_error ran]

theorem discard_ran_ok : discard work start = .ok () finish ↔
    ∃ value, work start = .ok value finish := by
  have mapped : discard work start = EStateM.map (fun _ => ()) work start := rfl
  rw [mapped, EStateM.map]
  cases work start with
  | ok value state =>
      constructor
      · rintro ⟨⟩
        exact ⟨value, rfl⟩
      · rintro ⟨_, ⟨⟩⟩
        rfl
  | error error state => exact ⟨nofun, nofun⟩

theorem discard_ran_error {error : ε} : discard work start = .error error finish ↔
    work start = .error error finish := by
  have mapped : discard work start = EStateM.map (fun _ => ()) work start := rfl
  rw [mapped, EStateM.map]
  cases work start with
  | ok value state => exact ⟨nofun, nofun⟩
  | error other state =>
      constructor
      · rintro ⟨⟩
        rfl
      · rintro ⟨⟩
        rfl

theorem discard_congr {other : EStateM ε σ α} (same : work start = other start) :
    discard work start = discard other start := by
  have mapped (work : EStateM ε σ α) :
      discard work start = EStateM.map (fun _ => ()) work start := rfl
  rw [mapped, mapped, EStateM.map, EStateM.map, same]

end

namespace Recording

open Recorder

variable {α β : Type}

/-- The recorder in which work ends, whether it succeeds or not. -/
def finishOf (work : Recording α) (start : Recorder) : Recorder :=
  match work start with
  | .ok _ finish => finish
  | .error _ finish => finish

theorem finishOf_of_ok {work : Recording α} {start finish : Recorder} {result : α}
    (ran : work start = .ok result finish) : finishOf work start = finish := by
  rw [finishOf, ran]

theorem finishOf_of_error {work : Recording α} {start finish : Recorder} {error : ShaderError}
    (ran : work start = .error error finish) : finishOf work start = finish := by
  rw [finishOf, ran]

/-- Work that shows a recursive call only where tracing a callee has shown it. -/
def Blames (around : Surroundings) (work : Recording α) (start : Recorder) : Prop :=
  ∀ error finish, work start = .error error finish → error.isRecursion = true →
    ∃ callee session failed, around.trace callee session = .error error failed

/-- Work that only makes changes of the known kinds, and that only callees let fail for a
recursive call. -/
structure Follows (around : Surroundings) (work : Recording α) (start : Recorder) : Prop where
  becomes : start.Becomes around (finishOf work start)
  blames : Blames around work start

namespace Blames

variable {around : Surroundings} {start : Recorder}

theorem of_ok {work : Recording α} {finish : Recorder} {result : α}
    (ran : work start = .ok result finish) : Blames around work start := by
  intro error failed failure
  rw [ran] at failure
  cases failure

theorem of_error {work : Recording α} {finish : Recorder} {error : ShaderError}
    (ran : work start = .error error finish)
    (blamed : error.isRecursion = true →
      ∃ callee session failed, around.trace callee session = .error error failed) :
    Blames around work start := by
  intro other failed failure recursion
  rw [ran] at failure
  cases failure
  exact blamed recursion

theorem bind {work : Recording α} {next : α → Recording β} (first : Blames around work start)
    (rest : ∀ value middle, work start = .ok value middle → Blames around (next value) middle) :
    Blames around (work >>= next) start := by
  intro error finish failure
  rcases bind_ran_error.mp failure with failure | ⟨value, middle, ran, failure⟩
  · exact first error finish failure
  · exact rest value middle ran error finish failure

end Blames

namespace Follows

variable {around : Surroundings} {start : Recorder}

theorem of_ok {work : Recording α} {finish : Recorder} {result : α}
    (ran : work start = .ok result finish) (becomes : start.Becomes around finish) :
    Follows around work start where
  becomes := by
    rw [finishOf_of_ok ran]
    exact becomes
  blames := .of_ok ran

theorem of_error {work : Recording α} {finish : Recorder} {error : ShaderError}
    (ran : work start = .error error finish) (becomes : start.Becomes around finish)
    (blames : Blames around work start) : Follows around work start where
  becomes := by
    rw [finishOf_of_error ran]
    exact becomes
  blames := blames

theorem becomes_of_ok {work : Recording α} {finish : Recorder} {result : α}
    (follows : Follows around work start) (ran : work start = .ok result finish) :
    start.Becomes around finish := by
  have becomes := follows.becomes
  rw [finishOf_of_ok ran] at becomes
  exact becomes

theorem becomes_of_error {work : Recording α} {finish : Recorder} {error : ShaderError}
    (follows : Follows around work start) (ran : work start = .error error finish) :
    start.Becomes around finish := by
  have becomes := follows.becomes
  rw [finishOf_of_error ran] at becomes
  exact becomes

theorem pure (value : α) : Follows around (pure value) start :=
  .of_ok rfl (.refl start)

theorem throw {error : ShaderError} (own : error.isRecursion = false) :
    Follows around (throw error : Recording α) start :=
  .of_error rfl (.refl start) (.of_error rfl fun recursion => nomatch own.symm.trans recursion)

theorem refuse (function : ShaderFunction) (fault : RecordingFault) :
    Follows around (Recording.refuse function fault : Recording α) start :=
  .throw rfl

theorem bind_from {work : Recording α} {next : α → Recording β}
    (first : Follows around work start)
    (rest : ∀ value middle, work start = .ok value middle →
      start.Becomes around (finishOf (next value) middle) ∧ Blames around (next value) middle) :
    Follows around (work >>= next) start where
  becomes := by
    cases ran : work start with
    | ok value middle =>
        have same : finishOf (work >>= next) start = finishOf (next value) middle := by
          simp only [finishOf, Bind.bind, EStateM.bind, ran]
        rw [same]
        exact (rest value middle ran).1
    | error error middle =>
        rw [finishOf_of_error (bind_of_error ran)]
        exact first.becomes_of_error ran
  blames := first.blames.bind fun value middle ran => (rest value middle ran).2

theorem bind {work : Recording α} {next : α → Recording β} (first : Follows around work start)
    (rest : ∀ value middle, work start = .ok value middle → Follows around (next value) middle) :
    Follows around (work >>= next) start :=
  first.bind_from fun value middle ran =>
    ⟨.trans (first.becomes_of_ok ran) (rest value middle ran).becomes,
      (rest value middle ran).blames⟩

theorem get_bind {next : Recorder → Recording α} (follows : Follows around (next start) start) :
    Follows around (get >>= next) start :=
  ⟨follows.becomes, follows.blames⟩

theorem changed {work rest : Recording α} {state : Recorder}
    (becomes : start.Becomes around state) (same : work start = rest state)
    (follows : Follows around rest state) : Follows around work start where
  becomes := by
    have ends : finishOf work start = finishOf rest state := by
      simp only [finishOf, same]
    rw [ends]
    exact .trans becomes follows.becomes
  blames := by
    intro error finish failure
    rw [same] at failure
    exact follows.blames error finish failure

theorem set_bind {next : PUnit → Recording α} {state : Recorder}
    (becomes : start.Becomes around state) (follows : Follows around (next ⟨⟩) state) :
    Follows around (set state >>= next) start :=
  .changed becomes rfl follows

theorem mapM {work : α → Recording β} {items : List α}
    (each : ∀ item ∈ items, ∀ state, Follows around (work item) state) :
    Follows around (items.mapM work) start := by
  induction items generalizing start with
  | nil =>
      rw [List.mapM_nil]
      exact pure []
  | cons item rest induction =>
      rw [List.mapM_cons]
      apply bind (each item List.mem_cons_self start)
      intro first middle _
      apply bind (induction fun other member => each other (List.mem_cons_of_mem _ member))
      intro others finish _
      exact pure (first :: others)

end Follows

end Recording

end ShaderKit
