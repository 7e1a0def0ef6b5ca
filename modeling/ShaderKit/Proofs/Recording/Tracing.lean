import ShaderKit.Proofs.Recording.Scripts
import ShaderKit.Recording.Trace

/-!
# Traces are sound

Tracing a function of a program gives a recording that follows the typing rules, in a
context whose recordings all do. The context only grows, so what was recorded against an
earlier context stays right.
-/

namespace ShaderKit

namespace TraceContext

variable {program : Program} {context : TraceContext}

theorem Sound.withStack (sound : context.Sound program) (stack : List ShaderFunction) :
    TraceContext.Sound { context with stack := stack } program ∧
      context.Grows { context with stack := stack } := by
  have grows : context.Grows { context with stack := stack } :=
    ⟨fun _ _ found => found, fun _ _ found => found⟩
  refine ⟨⟨fun id recorded found => ?_, sound.constants, sound.keys⟩, grows⟩
  rcases sound.finished id recorded found with ⟨known, recordedSound⟩
  exact ⟨known, recordedSound.mono grows⟩

def kept (context : TraceContext) (recorded : RecordedFunction) : TraceContext :=
  { context with finished := context.finished ++ [recorded] }

theorem find?_kept (context : TraceContext) (recorded : RecordedFunction) (id : FunctionId) :
    (context.kept recorded).find? id =
      (context.find? id).or (if recorded.id = id then some recorded else none) := by
  unfold find? kept
  rw [List.find?_append, List.find?_singleton]
  simp only [decide_eq_true_eq]

theorem grows_kept (context : TraceContext) (recorded : RecordedFunction) :
    context.Grows (context.kept recorded) where
  finished id known found := by
    rw [find?_kept, found]
    rfl
  constants _ _ found := found

theorem Sound.kept {recorded : RecordedFunction} (sound : context.Sound program)
    (known : program.find? recorded.id = some recorded.function)
    (recordedSound : recorded.Sound context) : (context.kept recorded).Sound program where
  finished id other found := by
    have grows := grows_kept context recorded
    rw [find?_kept] at found
    cases old : context.find? id with
    | some earlier =>
        rw [old] at found
        cases found
        rcases sound.finished id other old with ⟨otherKnown, otherSound⟩
        exact ⟨otherKnown, otherSound.mono grows⟩
    | none =>
        rw [old, Option.none_or] at found
        split at found
        next same =>
          cases found
          exact ⟨same ▸ known, recordedSound.mono grows⟩
        next => cases found
  constants := sound.constants
  keys := sound.keys

end TraceContext

namespace Tracing

/-! ## Rules -/

namespace Meets

variable {α β : Type} {program : Program} {start : Session}

theorem pure {value : α} {post : α → TraceContext → Prop}
    (sound : start.context.Sound program) (holds : post value start.context) :
    Meets program (pure value) start post :=
  of_ok rfl sound (.refl _) holds

theorem throw {error : ShaderError} {post : α → TraceContext → Prop}
    (sound : start.context.Sound program) : Meets program (throw error) start post :=
  of_error rfl sound (.refl _)

theorem bind {work : Tracing α} {next : α → Tracing β} {middle : α → TraceContext → Prop}
    {post : β → TraceContext → Prop} (first : Meets program work start middle)
    (rest : ∀ value state, state.context.Sound program → start.context.Grows state.context →
      middle value state.context → Meets program (next value) state post) :
    Meets program (work >>= next) start post := by
  rcases first.ends with ⟨value, state, ran, sound, grows, holds⟩ | ⟨error, state, ran, kept⟩
  · have same : (work >>= next) start = next value state := by
      simp only [Bind.bind, EStateM.bind, ran]
    rcases (rest value state sound grows holds).ends with
      ⟨result, finish, ran, sound, grown, holds⟩ | ⟨error, finish, ran, kept⟩
    · exact of_ok (same.trans ran) sound (grows.trans grown) holds
    · exact of_error (same.trans ran) kept.1 (grows.trans kept.2)
  · have same : (work >>= next) start = .error error state := by
      simp only [Bind.bind, EStateM.bind, ran]
    exact of_error same kept.1 kept.2

theorem get_bind {next : Session → Tracing α} {post : α → TraceContext → Prop}
    (meets : Meets program (next start) start post) : Meets program (get >>= next) start post :=
  meets

theorem discard {work : Tracing α} {post : α → TraceContext → Prop}
    (meets : Meets program work start post) :
    Meets program (discard work) start fun _ _ => True := by
  have mapped : Functor.discard work start = EStateM.map (fun _ => ()) work start := rfl
  rcases meets.ends with ⟨result, finish, ran, sound, grows, _⟩ | ⟨error, finish, ran, kept⟩
  · exact of_ok (by rw [mapped, EStateM.map, ran]) sound grows trivial
  · exact of_error (by rw [mapped, EStateM.map, ran]) kept.1 kept.2

end Meets

variable {program : Program} {function : ShaderFunction} {start : Session}

/-! ## Recording one function -/

def Records (function : ShaderFunction) (recorded : RecordedFunction)
    (context : TraceContext) : Prop :=
  recorded.function = function ∧ recorded.Sound context

theorem log_meets (sound : start.context.Sound program) (text : String) :
    Meets program (log text) start fun _ _ => True :=
  journal_meets sound fun journal => journal.log .trace text

theorem onStack_meets {work : Tracing RecordedFunction}
    (meets : ∀ session : Session, session.context.Sound program →
      Meets program work session (Records function))
    (sound : start.context.Sound program) :
    Meets program (onStack function work) start (Records function) := by
  let entered : Session := { start with
    context := { start.context with stack := function :: start.context.stack } }
  let leave (session : Session) : Session := { session with
    context := { session.context with stack := session.context.stack.tail } }
  rcases sound.withStack (function :: start.context.stack) with ⟨enteredSound, enteredGrows⟩
  rcases (meets entered enteredSound).ends with
    ⟨result, finish, ran, finishSound, grows, same, resultSound⟩ |
    ⟨error, finish, ran, finishSound, grows⟩
  · have answered : onStack function work start = .ok result (leave finish) := by
      simp only [onStack, entered] at ran ⊢
      rw [ran]
    rcases finishSound.withStack finish.context.stack.tail with ⟨leftSound, left⟩
    exact .of_ok answered leftSound ((enteredGrows.trans grows).trans left)
      ⟨same, resultSound.mono left⟩
  · have failed : onStack function work start = .error error (leave finish) := by
      simp only [onStack, entered] at ran ⊢
      rw [ran]
    rcases finishSound.withStack finish.context.stack.tail with ⟨leftSound, left⟩
    exact .of_error failed leftSound ((enteredGrows.trans grows).trans left)

theorem once_meets {record : Tracing RecordedFunction}
    (known : program.find? function.id = some function)
    (meets : ∀ session : Session, session.context.Sound program →
      Meets program record session (Records function))
    (sound : start.context.Sound program) :
    Meets program (once function record) start (IsRecordingOf function) := by
  apply Meets.get_bind
  split
  next recorded found =>
    rcases sound.finished function.id recorded found with ⟨program, recordedSound⟩
    rw [known] at program
    exact .pure sound ⟨(Option.some.inj program).symm, recordedSound, recorded, found⟩
  next =>
    split
    next =>
      dsimp only
      apply Meets.bind (log_meets sound _)
      intro _ start sound _ _
      apply Meets.bind (onStack_meets meets sound)
      rintro recorded start sound _ ⟨same, recordedSound⟩
      apply Meets.bind (log_meets sound _)
      intro _ finish finishSound grows _
      have recordedSound := recordedSound.mono grows
      have recordedKnown : program.find? recorded.id = some recorded.function := by
        rw [RecordedFunction.id, same]
        exact known
      have keptMeets : Meets program (keep recorded) finish fun _ context =>
          context = finish.context.kept recorded :=
        .of_ok rfl (finishSound.kept recordedKnown recordedSound)
          (finish.context.grows_kept recorded) rfl
      apply Meets.bind keptMeets
      rintro _ final finalSound _ kept
      refine .pure finalSound ⟨same, ?_, ?_⟩
      · rw [kept]
        exact recordedSound.mono (finish.context.grows_kept recorded)
      · have own : recorded.id = function.id := congrArg ShaderFunction.id same
        rw [kept, TraceContext.find?_kept, if_pos own]
        cases finish.context.find? function.id with
        | none => exact ⟨recorded, rfl⟩
        | some earlier => exact ⟨earlier, rfl⟩
    next => exact .throw sound

theorem sound_empty (sound : start.context.Sound program) (function : ShaderFunction) :
    Recorder.Sound { session := start } ⟨program, function, []⟩ where
  context := sound
  entries _ _ impossible := nomatch impossible
  opened := List.cons_ne_nil _ _
  checked := by
    change BlockChecked _ _ _ []
    simp only [BlockChecked]
  visible _ _ impossible := nomatch impossible
  nested := List.cons_ne_nil _ _
  counted scope member := by
    rw [List.mem_singleton.mp member]
    exact ⟨Nat.zero_lt_one, Nat.le_refl 1⟩
  bounded _ _ impossible := nomatch impossible

theorem recording_meets {α : Type} {work : Recording α} {post : α → TraceContext → Prop}
    (meets : Recording.Meets ⟨program, function, []⟩ work { session := start }
      fun result finish => post result finish.session.context) :
    Meets program (recording work) start post := by
  rcases meets.ends with ⟨result, finish, ran, sound, grows, holds⟩ | ⟨error, finish, ran, kept⟩
  · have same : recording work start = .ok result finish.session := by
      rw [recording, ran]
    exact .of_ok same sound.context grows.inventory.context holds
  · have same : recording work start = .error error finish.session := by
      rw [recording, ran]
    exact .of_error same kept.1.context kept.2.inventory.context

theorem addParameters_meets {setting : Setting} {parameters : List Parameter} {index : Nat}
    {start : Recorder} (sound : start.Sound setting)
    (declared : ∀ (offset : Nat) parameter, parameters[offset]? = some parameter →
      setting.function.signature.parameters[index + offset]? = some parameter) :
    Recording.Meets setting (addParameters setting.function index parameters) start
      fun _ _ => True := by
  induction parameters generalizing index start with
  | nil => exact .pure sound trivial
  | cons parameter rest induction =>
      have types : (start.inventory setting.function).Types (.parameter index) parameter.type
          none := .parameter (declared 0 parameter rfl)
      unfold addParameters
      apply Recording.Meets.bind
        (Recording.addValue_meets sound types (Recording.fits_nil rfl fun _ => nofun))
      intro node start sound _ _
      apply Recording.Meets.bind (Recording.assign_meets sound _ node)
      intro _ start sound _ _
      apply induction sound
      intro offset other found
      have placed := declared (offset + 1) other found
      rw [Nat.add_assoc, Nat.add_comm 1]
      exact placed

theorem recordScript_meets {around : Surroundings}
    (records : RecordsSoundly around.program around.trace)
    (sound : start.context.Sound around.program) (body : Script) (result : Option Operand) :
    Meets around.program (recordScript around body result) start
      (Records around.function) := by
  apply @recording_meets around.program around.function
  have empty := sound_empty sound around.function
  apply Recording.Meets.bind (addParameters_meets empty fun offset parameter found => by
    rw [Nat.zero_add]
    exact found)
  intro _ state stateSound stateGrows _
  apply Recording.Meets.bind (body.perform_keeps records [] state stateSound)
  intro _ later laterSound laterGrows _
  apply Recording.Meets.bind (Recording.operand?_meets laterSound result)
  intro node final finalSound finalGrows _
  have unlooped : final.loopDepth = 0 :=
    ((stateGrows.trans laterGrows).trans finalGrows).loopDepth
  exact Recording.finish_meets finalSound rfl unlooped node

theorem recordReferences_meets {around : Surroundings}
    (records : RecordsSoundly around.program around.trace)
    {references : List (String × FunctionId)} {known : List FunctionId}
    (sound : start.context.Sound around.program) :
    Meets around.program (recordReferences around known references) start
      fun _ _ => True := by
  induction references generalizing known start with
  | nil => exact .pure sound trivial
  | cons reference rest induction =>
      unfold recordReferences
      split
      next => exact .throw sound
      next callee found =>
        have calleeKnown : around.program.find? callee.id = some callee :=
          Program.find?_id found ▸ found
        apply Meets.bind (records callee start calleeKnown sound).discard
        intro _ state stateSound _ _
        exact induction stateSound

theorem record_meets {around : Surroundings}
    (records : RecordsSoundly around.program around.trace)
    (sound : start.context.Sound around.program) :
    Meets around.program (record around) start (Records around.function) := by
  unfold record
  split
  next body result _ => exact recordScript_meets records sound body result
  next text references _ =>
    apply Meets.bind (recordReferences_meets records sound)
    intro callees state stateSound _ _
    exact .pure stateSound ⟨rfl, fun _ _ impossible => (nomatch impossible), nofun, nofun⟩

end Tracing

/-! ## Tracing a program -/

theorem Program.traceWithin_records (program : Program) (depth : Nat) :
    RecordsSoundly program (program.traceWithin depth) := by
  induction depth with
  | zero =>
      intro function session known sound
      exact Tracing.once_meets known (fun session sound => .throw sound) sound
  | succ depth induction =>
      intro function session known sound
      exact Tracing.once_meets known (fun session sound =>
        @Tracing.record_meets session ⟨program, program.traceWithin depth, function⟩ induction
          sound) sound

theorem Tracing.ran_of_alone {α : Type} {work : Tracing α} {journal after : Journal} {result : α}
    {context : TraceContext} (ran : work.alone journal = .ok (result, context) after) :
    work { journal := journal } = .ok result ⟨context, after⟩ := by
  unfold alone at ran
  split at ran
  next worked =>
    cases ran
    exact worked
  next => cases ran

/-- A trace that succeeds gives a sound recording in a sound context. -/
theorem Program.trace_sound {program : Program} {function : ShaderFunction}
    {journal after : Journal} {recorded : RecordedFunction} {context : TraceContext}
    (known : program.find? function.id = some function)
    (traced : (program.trace function).alone journal = .ok (recorded, context) after) :
    context.Sound program ∧ recorded.function = function ∧ recorded.Sound context := by
  have meets := program.traceWithin_records (program.functions.length + 1) function
    { journal := journal } known (TraceContext.sound_empty program)
  have ran := Tracing.ran_of_alone traced
  rw [Program.trace] at ran
  rcases meets.ends with ⟨result, session, worked, sound, _, records⟩ | ⟨error, session, worked, _⟩
  · cases worked.symm.trans ran
    exact ⟨sound, records.1, records.2.1⟩
  · cases worked.symm.trans ran

end ShaderKit
