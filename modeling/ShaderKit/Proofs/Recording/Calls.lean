import ShaderKit.Proofs.Recording.Values

/-!
# Calls keep the invariant

Recording a call records the callee in the same session, so a call is recorded over a
context that has a finished recording of its callee.
-/

namespace ShaderKit

/-- Work in a session that keeps its context sound and only makes it grow. -/
def Tracing.Meets {α : Type} (program : Program) (work : Tracing α) (start : Session)
    (post : α → TraceContext → Prop) : Prop :=
  match work start with
  | .ok result finish => finish.context.Sound program ∧ start.context.Grows finish.context ∧
      post result finish.context
  | .error _ finish => finish.context.Sound program ∧ start.context.Grows finish.context

namespace Tracing.Meets

variable {α : Type} {program : Program} {work : Tracing α} {start : Session}
  {post : α → TraceContext → Prop}

theorem of_ok {result : α} {finish : Session} (ran : work start = .ok result finish)
    (sound : finish.context.Sound program) (grows : start.context.Grows finish.context)
    (holds : post result finish.context) : Meets program work start post := by
  unfold Meets
  rw [ran]
  exact ⟨sound, grows, holds⟩

theorem of_error {error : ShaderError} {finish : Session}
    (ran : work start = .error error finish) (sound : finish.context.Sound program)
    (grows : start.context.Grows finish.context) : Meets program work start post := by
  unfold Meets
  rw [ran]
  exact ⟨sound, grows⟩

theorem ends (meets : Meets program work start post) :
    (∃ result finish, work start = .ok result finish ∧ finish.context.Sound program ∧
      start.context.Grows finish.context ∧ post result finish.context) ∨
    ∃ error finish, work start = .error error finish ∧ finish.context.Sound program ∧
      start.context.Grows finish.context := by
  unfold Meets at meets
  cases ran : work start with
  | ok result finish =>
      rw [ran] at meets
      exact .inl ⟨result, finish, rfl, meets⟩
  | error error finish =>
      rw [ran] at meets
      exact .inr ⟨error, finish, rfl, meets⟩

end Tracing.Meets

def IsRecordingOf (function : ShaderFunction) (recorded : RecordedFunction)
    (context : TraceContext) : Prop :=
  recorded.function = function ∧ recorded.Sound context ∧
    ∃ kept, context.find? function.id = some kept

/-- A way of recording functions that keeps contexts sound. -/
def RecordsSoundly (program : Program) (trace : ShaderFunction → Tracing RecordedFunction) :
    Prop :=
  ∀ function session, program.find? function.id = some function →
    session.context.Sound program →
      (trace function).Meets program session (IsRecordingOf function)

namespace Recording

open Recorder

variable {setting : Setting} {start : Recorder}

theorem withSession_sound {session : Session} (sound : start.Sound setting)
    (contextSound : session.context.Sound setting.program)
    (grows : start.session.context.Grows session.context) :
    Recorder.Sound { start with session := session } setting ∧
      start.Grows { start with session := session } setting.function := by
  have inventory : (start.inventory setting.function).Extends
      (Recorder.inventory { start with session := session } setting.function) :=
    ⟨grows, rfl, fun _ _ found => found, fun _ _ found => found⟩
  have agrees : start.Agrees { start with session := session } := ⟨rfl, rfl, rfl, rfl, rfl⟩
  exact ⟨agrees.sound inventory contextSound sound, agrees.grows inventory⟩

theorem inSession_meets {α : Type} {work : Tracing α} {post : α → TraceContext → Prop}
    (sound : start.Sound setting) (meets : work.Meets setting.program start.session post) :
    Meets setting (inSession work) start fun result finish =>
      post result finish.session.context := by
  rcases meets.ends with
    ⟨result, session, ran, contextSound, grows, holds⟩ | ⟨error, session, ran, contextSound, grows⟩
  · have same : inSession work start = .ok result { start with session := session } := by
      rw [inSession, ran]
    rcases withSession_sound sound contextSound grows with ⟨kept, grown⟩
    exact .of_ok same kept grown holds
  · have same : inSession work start = .error error { start with session := session } := by
      rw [inSession, ran]
    rcases withSession_sound sound contextSound grows with ⟨kept, grown⟩
    exact .of_error same kept grown

theorem arguments_meets {callee : ShaderFunction} : ∀ {nodes : List Node}
    {parameters : List Parameter} {start : Recorder}, start.Sound setting →
      nodes.length = parameters.length →
      Meets setting (arguments setting.function callee nodes parameters) start
        fun values finish =>
          List.Forall₂ (finish.Operand setting) values (parameters.map Parameter.type)
  | [], [], _, sound, _ => by
      unfold arguments
      exact .pure sound .nil
  | [], _ :: _, _, _, counted => nomatch counted
  | _ :: _, [], _, _, counted => nomatch counted
  | node :: nodes, parameter :: parameters, _, sound, counted => by
      unfold arguments
      apply Meets.bind (value_operand sound node)
      intro argument start sound _ known
      apply Meets.bind (typeOf_operand sound known)
      rintro type start _ _ ⟨rfl, operand⟩
      split
      next => exact .throw sound
      next fits =>
        have fits : type = parameter.type := Decidable.not_not.mp fits
        apply Meets.bind (arguments_meets sound (Nat.succ.inj counted))
        intro rest finish finishSound grows operands
        exact .pure finishSound (.cons (fits ▸ operand.grow grows) operands)

theorem discard_meets {α : Type} {work : Recording α} {post : α → Recorder → Prop}
    (meets : Meets setting work start post) :
    Meets setting (discard work) start fun _ finish => ∃ result, post result finish := by
  have mapped : discard work start = EStateM.map (fun _ => ()) work start := rfl
  rcases meets.ends with ⟨result, finish, ran, sound, grows, holds⟩ | ⟨error, finish, ran, kept⟩
  · exact .of_ok (by rw [mapped, EStateM.map, ran]) sound grows ⟨result, holds⟩
  · exact .of_error (by rw [mapped, EStateM.map, ran]) kept.1 kept.2

variable {trace : ShaderFunction → Tracing RecordedFunction} {callee : ShaderFunction}

def Prepared (setting : Setting) (callee : ShaderFunction) (values : List Node)
    (finish : Recorder) : Prop :=
  ∃ recorded, finish.session.context.find? callee.id = some recorded ∧
    recorded.signature = callee.signature ∧
    List.Forall₂ (finish.Operand setting) values (recorded.signature.parameters.map Parameter.type)

theorem prepareCall_meets (records : RecordsSoundly setting.program trace)
    (known : setting.program.find? callee.id = some callee) (sound : start.Sound setting)
    (nodes : List Node) :
    Meets setting (prepareCall setting.function trace callee nodes) start
      (Prepared setting callee) := by
  unfold prepareCall
  dsimp only
  split
  next => exact .refuse sound
  next =>
    split
    next => exact .throw sound
    next counted =>
      have counted : nodes.length = callee.signature.parameters.length :=
        Decidable.not_not.mp counted
      apply Meets.bind (arguments_meets sound counted)
      intro values start sound _ operands
      have traced := inSession_meets sound (records callee start.session known sound.context)
      apply Meets.bind (discard_meets traced)
      rintro _ start sound grows ⟨_, _, _, kept, found⟩
      have agrees : start.Agrees { start with
          callees := Recorder.addNew start.callees callee.id } :=
        ⟨rfl, rfl, rfl, rfl, rfl⟩
      apply Meets.bind (modify_meets sound agrees rfl)
      rintro _ finish finishSound added rfl
      have same : kept.function = callee := by
        have program := (sound.context.finished callee.id kept found).1
        rw [known] at program
        exact (Option.some.inj program).symm
      have signature : kept.signature = callee.signature := congrArg ShaderFunction.signature same
      refine .pure finishSound ⟨kept, found, signature, ?_⟩
      rw [signature]
      exact operands.imp fun _ _ operand => operand.grow (grows.trans added)

theorem call_meets (records : RecordsSoundly setting.program trace)
    (known : setting.program.find? callee.id = some callee) (sound : start.Sound setting)
    (nodes : List Node) :
    Meets setting (call setting.function trace callee nodes) start fun _ _ => True := by
  apply Meets.bind (prepareCall_meets records known sound nodes)
  rintro values start sound _ ⟨recorded, found, signature, operands⟩
  split
  next => exact .refuse sound
  next type result =>
    rw [← signature] at result
    refine Meets.imp (addValue_meets sound ?_ ?_) fun _ _ _ => trivial
    · exact .call found (operands.imp fun _ _ operand => operand.known) result
    · exact fits_all rfl operands fun _ => nofun

theorem callVoid_meets (records : RecordsSoundly setting.program trace)
    (known : setting.program.find? callee.id = some callee) (sound : start.Sound setting)
    (nodes : List Node) :
    Meets setting (callVoid setting.function trace callee nodes) start fun _ _ => True := by
  apply Meets.bind (prepareCall_meets records known sound nodes)
  rintro values start sound _ ⟨recorded, found, _, operands⟩
  refine Meets.imp (addStatement_meets sound ?_) fun _ _ _ => trivial
  simp only [Statement.Checked]
  exact ⟨recorded, found, operands⟩

/-! ## Standard functions and helpers -/

theorem standardArgument_meets (sound : start.Sound setting) (standard : StandardFunction)
    (node : Node) :
    Meets setting (standardArgument setting.function standard node) start fun result finish =>
      ∃ type reference, finish.Usable setting result type reference ∧
        (standard ≠ .arrayLength → reference = none) := by
  unfold standardArgument
  split
  next length =>
    apply Meets.bind (entry_meets sound node)
    rintro found start _ _ ⟨rfl, _, usable⟩
    split
    next => exact .refuse sound
    next => exact .pure sound ⟨_, _, usable, fun other => absurd length other⟩
  next =>
    apply (value_operand sound node).imp
    rintro result finish ⟨type, operand⟩
    exact ⟨type, none, operand, fun _ => rfl⟩

theorem standard_meets (sound : start.Sound setting) (function : StandardFunction)
    (nodes : List Node) :
    Meets setting (standard setting.function function nodes) start fun _ _ => True := by
  let Argument (_ result : Node) (finish : Recorder) : Prop :=
    ∃ type reference, finish.Usable setting result type reference ∧
      (function ≠ .arrayLength → reference = none)
  have arguments : Meets setting (nodes.mapM (standardArgument setting.function function)) start
      fun results finish => List.Forall₂ (fun node result => Argument node result finish)
        nodes results :=
    Meets.mapM Argument
      (fun _ _ _ _ grows ⟨type, reference, usable, values⟩ =>
        ⟨type, reference, usable.grow grows, values⟩)
      (fun node _ state stateSound _ => standardArgument_meets stateSound function node) sound
  apply Meets.bind arguments
  intro values start sound _ arguments
  have known : ∀ value ∈ values, ∃ node, Argument node value start :=
    fun _ member => exists_left_of_mem arguments member
  by_cases length : function = .arrayLength
  · have types : Meets setting (typesOf setting.function values) start fun _ finish =>
        ∀ value ∈ values, ∃ type reference, finish.Usable setting value type reference := by
      apply Meets.imp (Meets.mapM (fun value _ finish =>
        ∃ type reference, finish.Usable setting value type reference) _ _ sound)
      · intro types finish usable value member
        rcases exists_right_of_mem usable member with ⟨_, known⟩
        exact known
      · rintro _ _ _ _ grows ⟨type, reference, usable⟩
        exact ⟨type, reference, usable.grow grows⟩
      · intro value member state stateSound _
        apply (typeOf_meets stateSound value).imp
        rintro type finish ⟨rfl, reference, usable⟩
        exact ⟨type, reference, usable⟩
    apply Meets.bind types
    intro types start sound _ usable
    subst length
    split
    next => exact .refuse sound
    next type _ =>
      refine Meets.imp (addValue_meets sound (.arrayLength values type) ?_) fun _ _ _ => trivial
      exact .of_usable usable fun _ => nofun
  · have operands : ∀ value ∈ values, ∃ type, start.Operand setting value type := by
      intro value member
      rcases known value member with ⟨_, type, reference, usable, isValue⟩
      rw [isValue length] at usable
      exact ⟨type, usable⟩
    apply Meets.bind (typesOf_meets sound operands)
    intro types start sound _ operands
    split
    next => exact .refuse sound
    next type accepted =>
      refine Meets.imp (addValue_meets sound ?_ ?_) fun _ _ _ => trivial
      · exact .standard (operands.imp fun _ _ operand => operand.known) length accepted
      · exact fits_all rfl operands fun _ => nofun

theorem closeTo_meets (sound : start.Sound setting) (left right precision : Operand) :
    Meets setting (closeTo setting.function left right precision) start fun _ _ => True := by
  apply Meets.bind (operandValue_meets sound left)
  rintro left start sound _ ⟨leftKnown, leftOperand⟩
  apply Meets.bind (operandValue_meets sound right)
  rintro right start sound rightGrows ⟨rightKnown, rightOperand⟩
  apply Meets.bind (operandValue_meets sound precision)
  intro precision start sound grows precisionKnown
  have leftOperand := (leftOperand.grow rightGrows).grow grows
  apply Meets.bind (typeOf_operand sound ⟨leftKnown, leftOperand⟩)
  rintro type start _ _ ⟨rfl, leftOperand⟩
  apply Meets.bind (typeOf_operand sound ⟨rightKnown, rightOperand.grow grows⟩)
  rintro rightType start _ _ ⟨rfl, rightOperand⟩
  apply Meets.bind (typeOf_operand sound precisionKnown)
  rintro precisionType start _ _ ⟨rfl, precisionOperand⟩
  dsimp only
  split
  next => exact .refuse sound
  next accepted =>
    rw [Bool.or_eq_true, not_or, Bool.not_eq_true, Bool.not_eq_false', decide_eq_true_eq,
      Decidable.not_not] at accepted
    rcases accepted with ⟨comparable, same⟩
    have agrees : start.Agrees { start with
        helpers := Recorder.addNew start.helpers (Helper.isCloseTo type) } :=
      ⟨rfl, rfl, rfl, rfl, rfl⟩
    apply Meets.bind (modify_meets sound agrees rfl)
    rintro _ finish finishSound grows rfl
    have operands : List.Forall₂ (start.Operand setting) [left, right, precision]
        (Helper.isCloseTo type).parameterTypes := by
      rw [same]
      exact .cons leftOperand (.cons rightOperand (.cons precisionOperand .nil))
    have operands := operands.imp fun _ _ operand => operand.grow grows
    refine Meets.imp (addValue_meets finishSound ?_ ?_) fun _ _ _ => trivial
    · exact .helper (operands.imp fun _ _ operand => operand.known) comparable
    · exact fits_all rfl operands fun _ => nofun

theorem bind_meets (sound : start.Sound setting) (entry : BindingEntry) :
    Meets setting (bind setting.function entry) start fun _ _ => True := by
  have agrees : start.Agrees { start with
      bindings := Recorder.addNew start.bindings entry } :=
    ⟨rfl, rfl, rfl, rfl, rfl⟩
  apply Meets.bind (modify_meets sound agrees rfl)
  rintro _ finish finishSound _ rfl
  refine Meets.imp (addExpression_meets finishSound ?_ ?_) fun _ _ _ => trivial
  · exact .binding entry.slot entry.type entry.access.referenceAccess
  · exact fits_nil rfl fun _ => nofun

end Recording

end ShaderKit
