import ShaderKit.Proofs.Recording.Control
import ShaderKit.Recording.Perform

/-!
# Scripts keep the invariant

Whatever a script does, also after failures that it catches and with nodes that another
function published, the recording follows the rules.
-/

namespace ShaderKit

theorem Program.find?_id {program : Program} {id : FunctionId} {function : ShaderFunction}
    (found : program.find? id = some function) : function.id = id :=
  have holds := List.find?_some found
  of_decide_eq_true holds

theorem journal_meets {program : Program} {start : Session}
    (sound : start.context.Sound program) (change : Journal → Journal) :
    Tracing.Meets program
      (modify fun session => { session with journal := change session.journal }) start
      fun _ _ => True :=
  ⟨sound, .refl _, trivial⟩

namespace Recording

open Recorder

variable {setting : Setting} {start : Recorder}

theorem keep_meets {operation : Recording Node} {post : Node → Recorder → Prop}
    (meets : Meets setting operation start post) (out : Register) :
    Meets setting (keep out operation) start fun _ _ => True :=
  meets.bind fun node _ sound _ _ => assign_meets sound out node

theorem named_meets (sound : start.Sound setting) (type : NamedType) :
    Meets setting (named type) start fun _ _ => True := by
  cases type with
  | ok type => exact .pure sound trivial
  | error error => exact .throw sound

theorem operands_meets (sound : start.Sound setting) (sources : List Operand) :
    Meets setting (operands setting.function sources) start fun _ _ => True :=
  (Meets.mapM (fun _ _ _ => True) (fun _ _ _ _ _ _ => trivial)
    (fun source _ _ stateSound _ => operand_meets stateSound source) sound).imp
      fun _ _ _ => trivial

theorem operand?_meets (sound : start.Sound setting) (source : Option Operand) :
    Meets setting (operand? setting.function source) start fun _ _ => True := by
  cases source with
  | none => exact .pure sound trivial
  | some source =>
      apply Meets.bind (operand_meets sound source)
      intro node finish finishSound _ _
      exact .pure finishSound trivial

theorem callee_meets (sound : start.Sound setting) (id : FunctionId) :
    Meets setting (callee setting.function setting.program id) start fun callee _ =>
      setting.program.find? callee.id = some callee := by
  unfold callee
  split
  next callee found =>
    have same := Program.find?_id found
    exact .pure sound (same ▸ found)
  next => exact .refuse sound

theorem addNote_meets (sound : start.Sound setting) (note : Note) :
    Meets setting (addNote note) start fun _ _ => True :=
  (inSession_meets sound (journal_meets sound.context fun journal => journal.note note)).imp
    fun _ _ _ => trivial

theorem attempt_meets {work : Recording Unit} {post : Unit → Recorder → Prop}
    (meets : Meets setting work start post) :
    Meets setting (attempt work) start fun _ _ => True := by
  rcases meets.ends with ⟨_, state, ran, sound, grows, _⟩ | ⟨error, state, ran, sound, grows⟩
  · have same : attempt work start = addNote (.attempted none) state := by
      rw [attempt, ran]
    exact .later same grows (addNote_meets sound _)
  · have same : attempt work start = addNote (.attempted (some error)) state := by
      rw [attempt, ran]
    exact .later same grows (addNote_meets sound _)

theorem noteType_meets (sound : start.Sound setting) (source : Register) :
    Meets setting (noteType setting.function source) start fun _ _ => True := by
  apply Meets.bind (register_meets sound source)
  intro node start sound _ _
  apply Meets.bind (typeOf_meets sound node)
  intro type start sound _ _
  exact addNote_meets sound _

theorem publish_meets (sound : start.Sound setting) (name : String) (source : Register) :
    Meets setting (publish setting.function name source) start fun _ _ => True := by
  apply Meets.bind (register_meets sound source)
  intro node start sound _ _
  exact (inSession_meets sound (journal_meets sound.context fun journal =>
    journal.publish name node)).imp fun _ _ _ => trivial

theorem adopt_meets {body : Recording Unit}
    (keeps : Keeps setting.program setting.function body) (sound : start.Sound setting)
    (name : String) (out : Register) :
    Meets setting (adopt name out body) start fun _ _ => True := by
  apply Meets.get_bind
  split
  next => exact .pure sound trivial
  next node _ =>
    apply Meets.bind (assign_meets sound out node)
    intro _ state stateSound _ _
    exact keeps _ state stateSound

end Recording

open Recording

mutual
theorem Action.perform_keeps {around : Surroundings}
    (records : RecordsSoundly around.program around.trace) : ∀ action : Action,
    Keeps around.program around.function (action.perform around) := by
  intro action outer start sound
  cases action with
  | literal out value => exact keep_meets (literal_meets sound value) out
  | constant out label type value =>
      apply Meets.bind (named_meets sound type)
      intro type start sound _ _
      exact keep_meets (constant_meets sound label type value) out
  | zero out type =>
      apply Meets.bind (named_meets sound type)
      intro type start sound _ _
      exact keep_meets (zero_meets sound type) out
  | construct out type arguments =>
      apply Meets.bind (named_meets sound type)
      intro type start sound _ _
      apply Meets.bind (operands_meets sound arguments)
      intro nodes start sound _ _
      exact keep_meets (construct_meets sound type nodes) out
  | convert out source type =>
      apply Meets.bind (named_meets sound type)
      intro type start sound _ _
      apply Meets.bind (operand_meets sound source)
      intro node start sound _ _
      exact keep_meets (convert_meets sound node type) out
  | declare out name value => exact keep_meets (declareWith_meets sound name value) out
  | declareZero out type =>
      apply Meets.bind (named_meets sound type)
      intro type start sound _ _
      exact keep_meets (declare_meets sound none type none fun _ impossible =>
        nomatch impossible) out
  | load out source =>
      apply Meets.bind (register_meets sound source)
      intro node start sound _ _
      exact keep_meets (load_meets sound node) out
  | store target value =>
      apply Meets.bind (register_meets sound target)
      intro node start sound _ _
      exact store_meets sound node value
  | unary out operator source => exact keep_meets (unary_meets sound operator source) out
  | binary out operator left right =>
      exact keep_meets (binary_meets sound operator left right) out
  | member out base name =>
      apply Meets.bind (register_meets sound base)
      intro node start sound _ _
      exact keep_meets (member_meets sound node name) out
  | index out base position =>
      apply Meets.bind (register_meets sound base)
      intro node start sound _ _
      exact keep_meets (index_meets sound node position) out
  | swizzle out base pattern =>
      apply Meets.bind (register_meets sound base)
      intro node start sound _ _
      exact keep_meets (swizzle_meets sound node pattern) out
  | call out id arguments =>
      apply Meets.bind (callee_meets sound id)
      intro callee start sound _ known
      apply Meets.bind (operands_meets sound arguments)
      intro nodes start sound _ _
      exact keep_meets (call_meets records known sound nodes) out
  | callVoid id arguments =>
      apply Meets.bind (callee_meets sound id)
      intro callee start sound _ known
      apply Meets.bind (operands_meets sound arguments)
      intro nodes start sound _ _
      exact callVoid_meets records known sound nodes
  | standard out function arguments =>
      apply Meets.bind (operands_meets sound arguments)
      intro nodes start sound _ _
      exact keep_meets (standard_meets sound function nodes) out
  | closeTo out left right precision =>
      exact keep_meets (closeTo_meets sound left right precision) out
  | bind out entry => exact keep_meets (bind_meets sound entry) out
  | branch condition accept reject =>
      exact branch_meets (accept.perform_keeps records) (reject.perform_keeps records) sound
        condition
  | loop body => exact loop_meets (body.perform_keeps records) sound
  | range counter first last body =>
      apply range_meets _ sound first last
      intro node outer start sound
      apply Meets.bind (assign_meets sound counter node)
      intro _ state stateSound _ _
      exact body.perform_keeps records outer state stateSound
  | leaveLoop => exact leaveLoop_meets sound
  | nextRound => exact nextRound_meets sound
  | giveBack value =>
      apply Meets.bind (operand?_meets sound value)
      intro node state stateSound _ _
      exact giveBack_meets stateSound node
  | discard => exact discardFragment_meets sound
  | attempt body => exact attempt_meets (body.perform_keeps records outer start sound)
  | noteType source => exact noteType_meets sound source
  | publish name source => exact publish_meets sound name source
  | adopt name out body => exact adopt_meets (body.perform_keeps records) sound name out

theorem Script.perform_keeps {around : Surroundings}
    (records : RecordsSoundly around.program around.trace) : ∀ script : Script,
    Keeps around.program around.function (script.perform around) := by
  intro script outer start sound
  cases script with
  | done => exact .pure sound trivial
  | step action rest =>
      apply Meets.bind (action.perform_keeps records outer start sound)
      intro _ state stateSound _ _
      exact rest.perform_keeps records outer state stateSound
end

end ShaderKit
