import ShaderKit.Proofs.Recording.Asking
import ShaderKit.Proofs.Recording.Keys
import ShaderKit.Proofs.Recording.Uniform

/-!
# One script in two contexts

A script is performed in two contexts, which may number constants differently and in which
other functions may be finished. If every request is answered in the second context as in the
first one, the script ends in the same way in both, and the numbers that stand for one constant
have one key.

Failures must end the script, and it must not take nodes that other bodies have published.
-/

namespace ShaderKit

/-! ## Alikeness is kept -/

theorem Expression.Alike.mono {same other : Nat → Nat → Prop} {first second : Expression}
    (weaker : ∀ number counterpart, same number counterpart → other number counterpart)
    (alike : first.Alike same second) : first.Alike other second := by
  cases alike with
  | constant matched => exact .constant (weaker _ _ matched)
  | equal plain => exact .equal plain

theorem ExpressionEntry.Alike.mono {same other : Nat → Nat → Prop} {first second : ExpressionEntry}
    (weaker : ∀ number counterpart, same number counterpart → other number counterpart)
    (alike : first.Alike same second) : first.Alike other second := by
  cases alike with
  | intro alike => exact .intro (alike.mono weaker)

theorem RecordedFunction.Alike.mono {same other : Nat → Nat → Prop}
    {first second : RecordedFunction}
    (weaker : ∀ number counterpart, same number counterpart → other number counterpart)
    (alike : first.Alike same second) : first.Alike other second where
  entries := alike.entries.imp fun _ _ equal => equal.mono weaker
  numbers := alike.numbers.imp weaker
  rest := alike.rest

/-! ## Linked recorders -/

namespace Recorder

/-- Recorders that differ in the sessions and in the numbers of constants, where the second one
has the given functions on its stack. -/
structure Linked (stack : List ShaderFunction) (first second : Recorder) : Prop where
  alike : first.Alike (first.session.context.Matches second.session.context) second
  stack : second.session.context.stack = stack
  distinct : first.session.context.constantKeys.values.Nodup
  distinctToo : second.session.context.constantKeys.values.Nodup

variable {stack : List ShaderFunction} {first second : Recorder}

theorem Linked.later (linked : first.Linked stack second) (session other : Session)
    (keeps : first.session.context.KeepsKeys session.context)
    (keepsToo : second.session.context.KeepsKeys other.context)
    (unmoved : other.context.stack = second.session.context.stack) :
    (first.inSession session).Linked stack (second.inSession other) where
  alike := by
    refine ⟨?_, ?_, ?_⟩
    · exact linked.alike.entries.imp fun _ _ equal =>
        equal.mono fun _ _ matched => matched.mono keeps.keys keepsToo.keys
    · exact linked.alike.numbers.imp fun _ _ matched => matched.mono keeps.keys keepsToo.keys
    · rw [linked.alike.rest]
      rfl
  stack := unmoved.trans linked.stack
  distinct := keeps.distinct linked.distinct
  distinctToo := keepsToo.distinct linked.distinctToo

theorem forall₂_addNew {related : Nat → Nat → Prop} {items others : List Nat} {item other : Nat}
    (listed : List.Forall₂ related items others) (matched : related item other)
    (unique : ∀ {number counterpart third}, related number counterpart →
      related number third → counterpart = third)
    (uniqueToo : ∀ {number counterpart third}, related number counterpart →
      related third counterpart → number = third) :
    List.Forall₂ related (addNew items item) (addNew others other) := by
  have known : item ∈ items ↔ other ∈ others := by
    induction listed with
    | nil => simp
    | @cons number counterpart _ _ same _ induction =>
        rw [List.mem_cons, List.mem_cons, induction]
        have first : item = number ↔ other = counterpart := by
          constructor
          · rintro rfl
            exact unique matched same
          · rintro rfl
            exact uniqueToo matched same
        rw [first]
  unfold addNew
  simp only [List.contains_iff_mem, known]
  split
  next => exact listed
  next => exact List.rel_append listed (.cons matched .nil)

theorem Linked.withConstant {label : Option String} {type : TypeDescriptor} {bytes : Bytes}
    {next following : TraceContext} {number counterpart : Nat} (linked : first.Linked stack second)
    (numbers : first.session.context.Numbers label type bytes number next)
    (numbersToo : second.session.context.Numbers label type bytes counterpart following) :
    (first.withConstant next number).Linked stack (second.withConstant following counterpart) := by
  have later := linked.later ⟨next, first.session.journal⟩ ⟨following, second.session.journal⟩
    numbers.keepsKeys numbersToo.keepsKeys numbersToo.continues.stack
  have ⟨entries, known, rest⟩ := later.alike
  refine ⟨⟨entries, ?_, ?_⟩, later.stack, later.distinct, later.distinctToo⟩
  · apply forall₂_addNew known ⟨_, numbers.found, numbersToo.found⟩
    · exact fun matched same => matched.unique later.distinctToo same
    · exact fun matched same => matched.symm.unique later.distinct same.symm
  · rw [Recorder.withConstant, linked.alike.rest]
    rfl

theorem Linked.withCallee (linked : first.Linked stack second) (id : FunctionId)
    {session other : Session} (keeps : first.session.context.KeepsKeys session.context)
    (kept : other.context = second.session.context) :
    (first.withCallee id session).Linked stack (second.withCallee id other) := by
  have keepsToo : second.session.context.KeepsKeys other.context := kept.symm ▸ .refl _
  have later := linked.later session other keeps keepsToo (congrArg TraceContext.stack kept)
  have ⟨entries, known, rest⟩ := later.alike
  refine ⟨⟨entries, known, ?_⟩, later.stack, later.distinct, later.distinctToo⟩
  rw [Recorder.withCallee, linked.alike.rest]
  rfl

end Recorder

/-! ## Answers in two contexts -/

/-- How a request is answered in two contexts: both times with a recording, or with the same
failure. The context of the second answer is left as it was. -/
inductive Tracing.Echoes (context : TraceContext) :
    EStateM.Result ShaderError Session RecordedFunction →
      EStateM.Result ShaderError Session RecordedFunction → Prop where
  | ok {recorded answer : RecordedFunction} {finish final : Session}
      (kept : final.context = context) : Echoes context (.ok recorded finish) (.ok answer final)
  | error {error : ShaderError} {finish final : Session} (kept : final.context = context) :
      Echoes context (.error error finish) (.error error final)

/-- A way of recording echoes the answer to a request in all sessions with the given functions
on the stack. -/
def Request.Echoed (request : Request) (stack : List ShaderFunction)
    (trace other : ShaderFunction → Tracing RecordedFunction) : Prop :=
  ∀ session : Session, session.context.stack = stack →
    Tracing.Echoes session.context (trace request.function request.session)
      (other request.function session)

namespace Recording

open Recorder

variable {stack : List ShaderFunction} {α β γ δ : Type} {first second : Recorder}

/-- How one script ends in two contexts: both times with results that are alike, or with the
same failure. -/
inductive Together (stack : List ShaderFunction) (post : (Nat → Nat → Prop) → α → β → Prop) :
    EStateM.Result ShaderError Recorder α → EStateM.Result ShaderError Recorder β → Prop where
  | ok {result : α} {answer : β} {finish final : Recorder} (linked : finish.Linked stack final)
      (holds : post (finish.session.context.Matches final.session.context) result answer) :
      Together stack post (.ok result finish) (.ok answer final)
  | error {error : ShaderError} {finish final : Recorder} :
      Together stack post (.error error finish) (.error error final)

abbrev Same (_ : Nat → Nat → Prop) (result answer : α) : Prop := result = answer

theorem Twins.together {post : (Nat → Nat → Prop) → α → β → Prop} {work : Recording α}
    {other : Recording β}
    (twins : Twins (first.session.context.Matches second.session.context)
      (post (first.session.context.Matches second.session.context)) work other first second)
    (linked : first.Linked stack second) : Together stack post (work first) (other second) := by
  unfold Twins at twins
  cases ran : work first <;> cases otherRan : other second <;> rw [ran, otherRan] at twins
  case ok.ok =>
    cases twins with
    | ok holds alike kept keptToo =>
        rw [← kept, ← keptToo] at holds alike
        exact .ok ⟨alike, keptToo ▸ linked.stack, kept ▸ linked.distinct,
          keptToo ▸ linked.distinctToo⟩ holds
  case error.error =>
    cases twins
    exact .error
  all_goals cases twins

theorem Uniform.together {work : Recording α}
    (uniform : Uniform (first.session.context.Matches second.session.context) work first second)
    (linked : first.Linked stack second) : Together stack Same (work first) (work second) :=
  Twins.together uniform linked

namespace Together

theorem bind {middle : (Nat → Nat → Prop) → α → β → Prop}
    {post : (Nat → Nat → Prop) → γ → δ → Prop} {work : Recording α} {other : Recording β}
    {next : α → Recording γ} {following : β → Recording δ}
    (begun : Together stack middle (work first) (other second))
    (rest : ∀ result answer finish final, work first = .ok result finish →
      middle (finish.session.context.Matches final.session.context) result answer →
        finish.Linked stack final →
          Together stack post (next result finish) (following answer final)) :
    Together stack post ((work >>= next) first) ((other >>= following) second) := by
  cases ran : work first <;> cases otherRan : other second <;> rw [ran, otherRan] at begun
  case ok.ok =>
    rw [bind_of_ok ran, bind_of_ok otherRan]
    cases begun with
    | ok linked holds => exact rest _ _ _ _ ran holds linked
  case error.error =>
    rw [bind_of_error ran, bind_of_error otherRan]
    cases begun
    exact .error
  all_goals cases begun

end Together

/-! ## Constants and calls -/

variable (function : ShaderFunction)

theorem constant_together (label : Option String) (type : TypeDescriptor) (value : HostValue)
    (linked : first.Linked stack second) :
    Together stack Same (constant function label type value first)
      (constant function label type value second) := by
  have refused (fault : RecordingFault) :
      Together stack Same ((refuse function fault : Recording Node) first)
        ((refuse function fault : Recording Node) second) :=
    Uniform.together (Uniform.refuse function fault linked.alike) linked
  unfold constant
  split
  next => exact refused _
  next constructible =>
    split
    next => exact refused _
    next =>
      rw [Bool.not_eq_true, Bool.not_eq_false'] at constructible
      have got (recorder : Recorder) :
        (get : Recording Recorder) recorder = .ok recorder recorder := rfl
      rw [bind_of_ok (got first), bind_of_ok (got second)]
      -- whether the value can be encoded is the same in both contexts
      rcases TraceContext.internConstant_cases constructible label value with
        ⟨cause, failed⟩ | ⟨bytes, numbered⟩
      · rw [failed, failed]
        exact .error
      · have ⟨number, next, interned, numbers⟩ := numbered first.session.context
        have ⟨counterpart, following, internedToo, numbersToo⟩ := numbered second.session.context
        rw [interned, internedToo]
        have matched : next.Matches following number counterpart :=
          ⟨_, numbers.found, numbersToo.found⟩
        have later := linked.withConstant numbers numbersToo
        have added : Together stack Same (addValue function (.constant number) type _)
            (addValue function (.constant counterpart) type _) :=
          Twins.together (addExpression_twins function type none (.constant matched) later.alike)
            later
        exact added

theorem noteCallee_together {trace other : ShaderFunction → Tracing RecordedFunction}
    {callee : ShaderFunction} (linked : first.Linked stack second)
    (keeps : (trace callee).Passes TraceContext.KeepsKeys first.session)
    (echoed : Request.Echoed ⟨callee, first.session⟩ stack trace other) :
    Together stack Same (noteCallee trace callee first) (noteCallee other callee second) := by
  have echoes := echoed second.session linked.stack
  cases ran : trace callee first.session <;> cases otherRan : other callee second.session <;>
    rw [ran, otherRan] at echoes
  case ok.ok =>
    rw [noteCallee_of_ok ran, noteCallee_of_ok otherRan]
    cases echoes with
    | ok kept => exact .ok (linked.withCallee callee.id (keeps.ok ran) kept) rfl
  case error.error =>
    rw [noteCallee_of_error ran, noteCallee_of_error otherRan]
    cases echoes
    exact .error
  all_goals cases echoes

theorem calling_together {around : Surroundings}
    {other : ShaderFunction → Tracing RecordedFunction} {id : FunctionId} {sources : List Operand}
    {next : ShaderFunction × List Node → Recording Unit} (linked : first.Linked stack second)
    (keeps : RecordsWithin (fun _ => True) TraceContext.KeepsKeys around.trace)
    (uniform : ∀ same prepared finish final, finish.Alike same final →
      Uniform same (next prepared) finish final)
    (echoed : ∀ request, CallAsks around id sources first request →
      request.Echoed stack around.trace other) :
    Together stack Same (calling around id sources next first)
      (calling (around.asking other) id sources next second) := by
  have prepares : Together stack Same (called around id sources first)
      (called (around.asking other) id sources second) :=
    Uniform.together (called_uniform around id sources linked.alike) linked
  apply Together.bind prepares
  rintro prepared _ finish final ran rfl prepared
  apply Together.bind (noteCallee_together prepared (keeps _ _ trivial) _)
  · rintro _ _ _ _ _ _ noted
    exact Uniform.together (uniform _ _ _ _ noted.alike) noted
  · exact echoed _ ⟨_, _, ran, rfl⟩

/-! ## Blocks -/

theorem linked_opened (linked : first.Linked stack second) (deeper : Nat) :
    (first.opened deeper).Linked stack (second.opened deeper) :=
  ⟨alike_opened linked.alike deeper, linked.stack, linked.distinct, linked.distinctToo⟩

theorem linked_closed (linked : first.Linked stack second) (deeper : Nat) :
    (first.closed deeper).Linked stack (second.closed deeper) :=
  ⟨alike_closed linked.alike deeper, linked.stack, linked.distinct, linked.distinctToo⟩

theorem inside_together {deeper : Nat} {body other : Recording Unit}
    (together : Together stack Same (body (first.opened deeper)) (other (second.opened deeper))) :
    Together stack Same (inside deeper body first) (inside deeper other second) := by
  unfold inside
  cases ran : body (first.opened deeper) <;> cases otherRan : other (second.opened deeper) <;>
    rw [ran, otherRan] at together
  case ok.ok =>
    cases together with
    | ok linked => exact .ok (linked_closed linked deeper) (openBlock_of_alike linked.alike).symm
  case error.error =>
    cases together
    exact .error
  all_goals cases together

end Recording

/-! ## Scripts -/

open Recording

mutual
def Action.adopts : Action → Bool
  | .branch _ accept reject => accept.adopts || reject.adopts
  | .loop body => body.adopts
  | .range _ _ _ body => body.adopts
  | .attempt body => body.adopts
  | .adopt .. => true
  | _ => false

def Script.adopts : Script → Bool
  | .done => false
  | .step action rest => action.adopts || rest.adopts
end

def ShaderFunction.adopts (function : ShaderFunction) : Bool :=
  match function.implementation with
  | .script body _ => body.adopts
  | .raw _ _ => false

mutual
theorem Action.perform_together {around : Surroundings}
    {other : ShaderFunction → Tracing RecordedFunction} {stack : List ShaderFunction}
    (keeps : RecordsWithin (fun _ => True) TraceContext.KeepsKeys around.trace) :
    ∀ (action : Action) {first second : Recorder},
    action.swallows = false → action.adopts = false → first.Linked stack second →
      (∀ request, action.Asks around first request → request.Echoed stack around.trace other) →
        Together stack Same (action.perform around first)
          (action.perform (around.asking other) second) := by
  intro action first second strict own linked echoed
  cases action with
  | constant out label type value =>
      have named := Uniform.together (named_uniform type linked.alike) linked
      apply Together.bind named
      rintro type _ finish final _ rfl later
      apply Together.bind (constant_together around.function label type value later)
      rintro node _ finish final _ rfl last
      exact Uniform.together (assign_uniform out node last.alike) last
  | call out id sources =>
      rw [perform_call, perform_call]
      refine calling_together linked keeps ?_ echoed
      intro same prepared finish final alike
      exact keep_twins out (callResult_uniform around.function prepared.1 prepared.2 alike)
  | callVoid id sources =>
      rw [perform_callVoid, perform_callVoid]
      refine calling_together linked keeps ?_ echoed
      intro same prepared finish final alike
      exact addStatement_uniform _ alike
  | branch test accept reject =>
      have ⟨acceptStrict, rejectStrict⟩ := Bool.or_eq_false_iff.mp strict
      have ⟨acceptOwn, rejectOwn⟩ := Bool.or_eq_false_iff.mp own
      have tested := Uniform.together (condition_uniform around.function test linked.alike) linked
      apply Together.bind tested
      rintro node _ middle _ testRan rfl middleLinked
      rw [inBlock_eq, inBlock_eq, inBlock_eq, inBlock_eq]
      have accepted := accept.perform_together keeps acceptStrict acceptOwn
        (linked_opened middleLinked 0) fun request asks =>
          echoed request ⟨node, middle, testRan, .inl asks⟩
      apply Together.bind (inside_together accepted)
      rintro block _ accepted _ acceptRan rfl acceptedLinked
      have rejected := reject.perform_together keeps rejectStrict rejectOwn
        (linked_opened acceptedLinked 0) fun request asks =>
          echoed request ⟨node, middle, testRan, .inr ⟨block, accepted, acceptRan, asks⟩⟩
      apply Together.bind (inside_together rejected)
      rintro _ _ _ _ _ rfl last
      exact Uniform.together (addStatement_uniform _ last.alike) last
  | loop body =>
      simp only [Action.perform, loop, looped_eq]
      have looped := body.perform_together keeps strict own (linked_opened linked 1) echoed
      apply Together.bind (inside_together looped)
      rintro _ _ _ _ _ rfl last
      exact Uniform.together (addStatement_uniform _ last.alike) last
  | range counter start stop body =>
      simp only [Action.perform, range_eq]
      have headed := Uniform.together
        (rangeHead_uniform around.function start stop linked.alike) linked
      apply Together.bind headed
      rintro head _ middle final headRan rfl middleLinked
      have opened := linked_opened middleLinked 1
      have bodies : Together stack Same
          ((do
            let node ← counterValue around.function head.counter head.type
            assign counter node
            body.perform around) (middle.opened 1))
          ((do
            let node ← counterValue around.function head.counter head.type
            assign counter node
            body.perform (around.asking other)) (final.opened 1)) := by
        apply Together.bind (Uniform.together (counterValue_uniform _ _ _ opened.alike) opened)
        rintro node _ state _ counted rfl countedLinked
        apply Together.bind (Uniform.together (assign_uniform _ _ countedLinked.alike) countedLinked)
        rintro _ _ _ _ assigned _ later
        cases assigned
        exact body.perform_together keeps strict own later fun request asks =>
          echoed request ⟨head, middle, node, state, headRan, counted, asks⟩
      apply Together.bind (inside_together bodies)
      rintro _ _ _ _ _ rfl last
      exact Uniform.together (addStatement_uniform _ last.alike) last
  | attempt body => cases strict
  | adopt name out body => cases own
  | _ => exact Uniform.together (Action.perform_uniform around rfl linked.alike) linked

theorem Script.perform_together {around : Surroundings}
    {other : ShaderFunction → Tracing RecordedFunction} {stack : List ShaderFunction}
    (keeps : RecordsWithin (fun _ => True) TraceContext.KeepsKeys around.trace) :
    ∀ (script : Script) {first second : Recorder},
    script.swallows = false → script.adopts = false → first.Linked stack second →
      (∀ request, script.Asks around first request → request.Echoed stack around.trace other) →
        Together stack Same (script.perform around first)
          (script.perform (around.asking other) second) := by
  intro script first second strict own linked echoed
  cases script with
  | done => exact .ok linked rfl
  | step action rest =>
      have ⟨actionStrict, restStrict⟩ := Bool.or_eq_false_iff.mp strict
      have ⟨actionOwn, restOwn⟩ := Bool.or_eq_false_iff.mp own
      apply Together.bind (action.perform_together keeps actionStrict actionOwn linked
        fun request asks => echoed request (.inl asks))
      rintro _ _ middle _ ran _ later
      exact rest.perform_together keeps restStrict restOwn later fun request asks =>
        echoed request (.inr ⟨middle, ran, asks⟩)
end

/-! ## Recordings -/

namespace Tracing

/-- How work ends in two contexts: both times with results that are alike, or with the same
failure. -/
inductive Mirrors {α : Type} (post : (Nat → Nat → Prop) → α → α → Prop) :
    EStateM.Result ShaderError Session α → EStateM.Result ShaderError Session α → Prop where
  | ok {result answer : α} {finish final : Session}
      (holds : post (finish.context.Matches final.context) result answer) :
      Mirrors post (.ok result finish) (.ok answer final)
  | error {error : ShaderError} {finish final : Session} :
      Mirrors post (.error error finish) (.error error final)

variable {around : Surroundings} {other : ShaderFunction → Tracing RecordedFunction}
  {stack : List ShaderFunction} {start second : Session}

theorem linked_empty (distinct : start.context.constantKeys.values.Nodup)
    (distinctToo : second.context.constantKeys.values.Nodup)
    (begun : second.context.stack = stack) :
    Recorder.Linked stack { session := start } { session := second } :=
  ⟨⟨.nil, .nil, rfl⟩, begun, distinct, distinctToo⟩

theorem scriptWork_together {first second : Recorder} {body : Script} {result : Option Operand}
    (keeps : RecordsWithin (fun _ => True) TraceContext.KeepsKeys around.trace)
    (strict : body.swallows = false) (own : body.adopts = false)
    (linked : first.Linked stack second)
    (echoed : ∀ request middle, addParameters around.function 0
      around.function.signature.parameters first = .ok () middle →
        body.Asks around middle request → request.Echoed stack around.trace other) :
    Together stack RecordedFunction.Alike (scriptWork around body result first)
      (scriptWork (around.asking other) body result second) := by
  have added := Uniform.together
    (addParameters_uniform around.function 0 around.function.signature.parameters linked.alike)
    linked
  apply Together.bind added
  rintro _ _ middle _ ran _ middleLinked
  apply Together.bind (body.perform_together keeps strict own middleLinked fun request asks =>
    echoed request middle ran asks)
  rintro _ _ _ _ _ _ performed
  apply Together.bind (Uniform.together (operand?_uniform around.function result performed.alike)
    performed)
  rintro node _ _ _ _ rfl last
  exact Twins.together (finish_twins around.function node last.alike) last

theorem Echoes.discard_bind {α : Type} {post : (Nat → Nat → Prop) → α → α → Prop}
    {work echo : Tracing RecordedFunction} {next following : Unit → Tracing α}
    (echoes : Echoes second.context (work start) (echo second))
    (rest : ∀ recorded finish final, work start = .ok recorded finish →
      final.context = second.context → Mirrors post (next () finish) (following () final)) :
    Mirrors post ((discard work >>= next) start) ((discard echo >>= following) second) := by
  cases ran : work start <;> cases echoRan : echo second <;> rw [ran, echoRan] at echoes
  case ok.ok =>
    rw [bind_of_ok (discard_ran_ok.mpr ⟨_, ran⟩), bind_of_ok (discard_ran_ok.mpr ⟨_, echoRan⟩)]
    cases echoes with
    | ok kept => exact rest _ _ _ ran kept
  case error.error =>
    rw [bind_of_error (discard_ran_error.mpr ran), bind_of_error (discard_ran_error.mpr echoRan)]
    cases echoes
    exact .error
  all_goals cases echoes

theorem recordReferences_mirrors {references : List (String × FunctionId)}
    {known : List FunctionId} (begun : second.context.stack = stack)
    (echoed : ∀ request, ReferencesAsk around references start request →
      request.Echoed stack around.trace other) :
    Mirrors Same (recordReferences around known references start)
      (recordReferences (around.asking other) known references second) := by
  induction references generalizing known start second with
  | nil => exact .ok rfl
  | cons reference rest induction =>
      unfold recordReferences
      cases found : around.program.find? reference.2 with
      | none =>
          have foundToo : (around.asking other).program.find? reference.2 = none := found
          rw [foundToo]
          exact .error
      | some callee =>
          have foundToo : (around.asking other).program.find? reference.2 = some callee := found
          have echoes := echoed ⟨callee, start⟩ ⟨callee, found, .inl rfl⟩ second begun
          rw [foundToo]
          apply echoes.discard_bind
          intro recorded finish final ran kept
          apply induction ((congrArg TraceContext.stack kept).trans begun)
          intro request asks
          exact echoed request ⟨callee, found, .inr ⟨recorded, finish, ran, asks⟩⟩

/-- A recording ends in the same way in two contexts that answer its requests alike. -/
theorem record_mirrors (keeps : RecordsWithin (fun _ => True) TraceContext.KeepsKeys around.trace)
    (strict : around.function.swallows = false) (own : around.function.adopts = false)
    (distinct : start.context.constantKeys.values.Nodup)
    (distinctToo : second.context.constantKeys.values.Nodup)
    (begun : second.context.stack = stack)
    (echoed : ∀ request, Asks around start request → request.Echoed stack around.trace other) :
    Mirrors RecordedFunction.Alike (record around start) (record (around.asking other) second) := by
  cases implemented : around.function.implementation with
  | script body result =>
      have implementedToo : (around.asking other).function.implementation = .script body result :=
        implemented
      rw [ShaderFunction.swallows, implemented] at strict
      rw [ShaderFunction.adopts, implemented] at own
      rw [record_of_script implemented, record_of_script implementedToo, recording, recording]
      have together : Together stack RecordedFunction.Alike
          (scriptWork around body result { session := start })
          (scriptWork (around.asking other) body result { session := second }) := by
        apply scriptWork_together keeps strict own (linked_empty distinct distinctToo begun)
        intro request middle ran asks
        exact echoed request ((asks_of_script implemented).mpr ⟨middle, ran, asks⟩)
      cases ran : scriptWork around body result { session := start } <;>
        cases ranToo : scriptWork (around.asking other) body result { session := second } <;>
          rw [ran, ranToo] at together
      case ok.ok =>
        cases together with
        | ok _ holds => exact .ok holds
      case error.error =>
        cases together
        exact .error
      all_goals cases together
  | raw text references =>
      have implementedToo : (around.asking other).function.implementation =
          .raw text references := implemented
      rw [record_of_raw implemented, record_of_raw implementedToo]
      have mirrors : Mirrors Same (recordReferences around [] references start)
          (recordReferences (around.asking other) [] references second) := by
        apply recordReferences_mirrors begun
        intro request asks
        exact echoed request ((asks_of_raw implemented).mpr asks)
      cases ran : recordReferences around [] references start <;>
        cases ranToo : recordReferences (around.asking other) [] references second <;>
          rw [ran, ranToo] at mirrors
      case ok.ok =>
        rw [bind_of_ok ran, bind_of_ok ranToo]
        cases mirrors with
        | ok same =>
            cases same
            exact .ok ⟨.nil, .nil, rfl⟩
      case error.error =>
        rw [bind_of_error ran, bind_of_error ranToo]
        cases mirrors
        exact .error
      all_goals cases mirrors

end Tracing

end ShaderKit
