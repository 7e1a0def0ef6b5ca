import ShaderKit.Proofs.Host.Soundness

/-!
# Every moment of an evaluation is typed

Each step from one moment to the next keeps the types of nodes and variables, also where it
begins a round of a loop or a call. By induction they hold at every moment.
-/

namespace ShaderKit

open Evaluation

/-- What every step from moment to moment keeps. -/
structure Moment.Sound (moment : Moment) (program : Program) : Prop where
  activation : moment.activation.Sound program
  frame : moment.frame.Sound moment.activation
  block : ∃ bound inLoop, moment.frame.Provides bound ∧
    BlockChecked moment.activation.inventory inLoop bound moment.block

section

variable {program : Program}

theorem Activation.Sound.callees {activation : Activation} (sound : activation.Sound program)
    (passable : program.Passable) (fuel : Nat) : activation.CalleesMeet fuel :=
  sound.callees_of_answers passable (sound.context.answers passable fuel)

theorem Moment.Sound.outcome {moment : Moment} (sound : moment.Sound program)
    (passable : program.Passable) {fuel : Nat} {result : Frame × Flow}
    (ran : moment.run fuel = .ok result) :
    ∃ inLoop, Outcome moment.activation inLoop (leaveLoopIn moment.block)
      (blockReturns moment.block) moment.frame result := by
  rcases sound.block with ⟨bound, inLoop, provides, checked⟩
  have meets := @runBlock_meets moment.activation program fuel sound.activation
    (sound.activation.callees passable fuel) moment.block bound inLoop moment.frame sound.frame
    provides checked
  exact ⟨inLoop, meets.of_eq_ok ran⟩

/-! ## What is given to a callee -/

theorem values_typed {activation : Activation} {frame : Frame} (sound : activation.Sound program)
    (frameSound : frame.Sound activation) {arguments : List Node} {types : List TypeDescriptor}
    {values : List HostValue}
    (argumentsAt : List.Forall₂ activation.inventory.ValueAt arguments types)
    (given : arguments.mapM (activation.value frame) = .ok values) :
    List.Forall₂ HasType types values := by
  have meets : Meets (arguments.mapM (activation.value frame)) (fun _ => True)
      (List.Forall₂ HasType types) := by
    apply Meets.mapM
    apply argumentsAt.imp
    intro argument type argumentAt
    have meaning := @Activation.meaning_meets activation frame program [] type none sound frameSound
      (fun _ impossible => nomatch impossible) argument argumentAt
    exact (Activation.value_meets meaning).forgive fun _ _ => trivial
  exact meets.of_eq_ok given

theorem Inventory.Types.of_call {inventory : Inventory} {callee : FunctionId}
    {arguments : List Node} {type : TypeDescriptor} {reference : Option Reference}
    (types : inventory.Types (.call callee arguments) type reference) :
    ∃ recorded, inventory.context.find? callee = some recorded ∧
      List.Forall₂ inventory.ValueAt arguments
        (recorded.signature.parameters.map Parameter.type) := by
  cases types with
  | call finished argumentsAt _ => exact ⟨_, finished, argumentsAt⟩

theorem Moment.Sound.calls {moment : Moment} (sound : moment.Sound program)
    {recorded : RecordedFunction} {values : List HostValue}
    (calls : moment.Calls recorded values) :
    (∃ callee, moment.activation.context.find? callee = some recorded) ∧
      List.Forall₂ HasType (recorded.signature.parameters.map Parameter.type) values := by
  cases calls with
  | @value activation frame node rest entry callee arguments _ _ found same known given =>
      have types := (sound.activation.recorded.entries node.index entry found).types
      rw [same] at types
      rcases types.of_call with ⟨other, finished, argumentsAt⟩
      cases known.symm.trans finished
      exact ⟨⟨callee, known⟩, values_typed sound.activation sound.frame argumentsAt given⟩
  | @void activation frame rest callee arguments _ _ known given =>
      rcases sound.block with ⟨bound, inLoop, _, checked⟩
      simp only [BlockChecked, Statement.Checked] at checked
      rcases checked with ⟨⟨other, finished, operands⟩, _⟩
      change activation.context.find? callee = some other at finished
      cases known.symm.trans finished
      exact ⟨⟨callee, known⟩, values_typed sound.activation sound.frame
        (operands.imp fun _ _ operand => operand.known) given⟩

theorem RecordedFunction.Begins.sound {recorded : RecordedFunction} {context : TraceContext}
    {arguments : List HostValue} {moment : Moment}
    (begins : recorded.Begins context arguments moment) (contextSound : context.Sound program)
    (recordedSound : recorded.Sound context) (passable : recorded.signature.Passable)
    (encode : List.Forall₂ Encodes arguments (recorded.signature.parameters.map Parameter.type)) :
    moment.Sound program := by
  rcases begins with ⟨block, values, accepted, rfl⟩
  cases body : recorded.body with
  | raw text =>
      rw [RecordedFunction.accept, body] at accepted
      cases accepted
  | statements statements =>
      rcases accept_of_encodes passable body encode with ⟨canonical, found, typed⟩
      cases found.symm.trans accepted
      exact ⟨⟨contextSound, recordedSound, typed⟩, recorded.frame_sound values, [], False,
        fun _ impossible => absurd impossible List.not_mem_nil, recordedSound.checked block body⟩

/-! ## Steps -/

/-- Before every round of a loop with a counter, the counter is an integer and the frame is
typed. -/
theorem Moment.Counts.sound {activation : Activation} {counter : Nat} {limit start : Scalar}
    {body : Block} {frame : Frame} {declared : LocalVariable} {kind : ScalarKind}
    {bound : List Binder} (passable : program.Passable) (sound : activation.Sound program)
    (frameSound : frame.Sound activation) (provides : frame.Provides bound)
    (checked : BlockChecked activation.inventory True (bound ++ [.variable counter]) body)
    (known : activation.recorded.locals[counter]? = some declared)
    (typed : declared.type = .scalar kind) (integer : kind.isInteger = true)
    (startKind : start.kind = kind) {current : Scalar} {before : Frame}
    (counts : Counts activation counter limit body start frame current before) :
    current.kind = kind ∧ before.Sound activation ∧ frame.Keeps before := by
  induction counts with
  | first => exact ⟨startKind, frameSound, .refl frame⟩
  | @next current following before after flow fuel _ _ ran _ counted induction =>
      rcases induction with ⟨same, beforeSound, keeps⟩
      have currentTyped : HasType declared.type (.scalar current) := by
        rw [typed]
        exact hasType_scalar.mpr ⟨current, rfl, same⟩
      have provided : (Activation.setVariable before counter (.scalar current)).Provides
          (bound ++ [.variable counter]) := (provides.keep keeps).variable counter
      have roundSound : Moment.Sound
          ⟨activation, Activation.setVariable before counter (.scalar current), body⟩ program :=
        ⟨sound, beforeSound.setVariable known currentTyped, _, True, provided, checked⟩
      rcases roundSound.outcome passable ran with ⟨_, outcome⟩
      rcases add_one integer same with ⟨other, otherCounted, otherKind⟩
      cases counted.symm.trans otherCounted
      exact ⟨otherKind, outcome.sound, keeps.trans outcome.keeps⟩

theorem Moment.Leads.sound {moment next : Moment} (leads : moment.Leads next)
    (passable : program.Passable) (sound : moment.Sound program) : next.Sound program := by
  have activationSound := sound.activation
  have frameSound := sound.frame
  rcases sound.block with ⟨bound, inLoop, provides, checked⟩
  cases leads with
  | @next activation frame after statement rest fuel ran =>
      simp only [BlockChecked] at checked
      have meets := @Statement.run_meets activation program fuel activationSound
        (activationSound.callees passable fuel) statement rest bound inLoop frame frameSound
        provides checked.1
      rcases meets.of_eq_ok ran with ⟨outcome, provided⟩
      exact ⟨activationSound, outcome.sound, _, inLoop, provided rfl, checked.2⟩
  | accept held =>
      simp only [BlockChecked, Statement.Checked] at checked
      exact ⟨activationSound, frameSound, bound, inLoop, provides, checked.1.2.1⟩
  | reject held =>
      simp only [BlockChecked, Statement.Checked] at checked
      exact ⟨activationSound, frameSound, bound, inLoop, provides, checked.1.2.2⟩
  | loop =>
      simp only [BlockChecked, Statement.Checked] at checked
      exact ⟨activationSound, frameSound, bound, True, provides, checked.1⟩
  | @again activation frame after body rest flow fuel ran _ =>
      have inner := checked
      simp only [BlockChecked, Statement.Checked] at inner
      have bodySound : Moment.Sound ⟨activation, frame, body⟩ program :=
        ⟨activationSound, frameSound, bound, True, provides, inner.1⟩
      rcases bodySound.outcome passable ran with ⟨_, outcome⟩
      exact ⟨activationSound, outcome.sound, bound, inLoop, provides.keep outcome.keeps, checked⟩
  | @round activation frame before counter first last body rest start limit current firstValue _
      counts _ =>
      simp only [BlockChecked, Statement.Checked] at checked
      rcases checked with ⟨⟨declared, known, integer, firstOperand, _, bodyChecked⟩, _⟩
      cases typed : declared.type with
      | scalar kind =>
          rw [typed] at integer firstOperand
          have startMeets := @scalar_excused activation frame program bound rest activationSound
            frameSound provides (.range counter first last body) first kind List.mem_cons_self
            firstOperand
          rcases counts.sound passable activationSound frameSound provides bodyChecked known typed
            integer (startMeets.of_eq_ok firstValue) with ⟨same, beforeSound, keeps⟩
          have currentTyped : HasType declared.type (.scalar current) := by
            rw [typed]
            exact hasType_scalar.mpr ⟨current, rfl, same⟩
          exact ⟨activationSound, beforeSound.setVariable known currentTyped, _, True,
            (provides.keep keeps).variable counter, bodyChecked⟩
      | _ =>
          rw [typed] at integer
          cases integer
  | @call _ _ recorded values calls begins =>
      rcases sound.calls calls with ⟨⟨callee, found⟩, typed⟩
      rcases activationSound.context.finished callee recorded found with ⟨known, recordedSound⟩
      have recordedPassable : recorded.signature.Passable := passable.find? known
      exact begins.sound activationSound.context recordedSound recordedPassable
        (recordedPassable.encodes typed)

/-- What holds at one moment holds at all that come after it. -/
theorem Moment.Passes.sound {moment last : Moment} (passes : moment.Passes last)
    (passable : program.Passable) (sound : moment.Sound program) : last.Sound program := by
  induction passes with
  | refl => exact sound
  | tail _ leads induction => exact leads.sound passable induction

/-! ## What a sound moment says -/

theorem Activation.Describes.holds {activation : Activation} {frame : Frame}
    {entry : ExpressionEntry} {meaning : Meaning} (frameSound : frame.Sound activation)
    (described : activation.Describes entry.type entry.reference meaning) :
    frame.Holds entry meaning := by
  cases meaning with
  | value value => exact described
  | place index path =>
      rcases described with ⟨reference, declared, known, followed⟩
      rcases frameSound.cells index declared known with ⟨whole, cell, typed⟩
      exact ⟨reference, whole, cell, typed.at? followed⟩

theorem Moment.Sound.typed {moment : Moment} (sound : moment.Sound program)
    (passable : program.Passable) : moment.Typed where
  nodes node entry meaning found given := by
    have known : moment.activation.inventory.At node entry.type entry.reference :=
      ⟨entry, found, rfl, rfl⟩
    have meets := @Activation.meaning_meets moment.activation moment.frame program [] entry.type
      entry.reference sound.activation sound.frame (fun _ impossible => nomatch impossible) node
      known
    exact (meets.of_eq_ok given).holds sound.frame
  cells := sound.frame.cells
  answer fuel after value ran := by
    rcases sound.outcome passable ran with ⟨_, outcome⟩
    exact outcome.giveBack value rfl

end

/-! ## Type safety -/

/-- A function over registered types whose trace succeeds is evaluated, for arguments that
have bytes, in typed moments only. It answers with a value of its result type, or fails for
a reason that lies in the function or in its arguments, however far it is run. -/
theorem evaluate_sound {program : Program} {function : ShaderFunction}
    {journal after : Journal} {recorded : RecordedFunction} {context : TraceContext}
    {arguments : List HostValue}
    (registered : ∀ other ∈ program.functions, other.signature.Registered)
    (known : program.find? function.id = some function)
    (traced : (program.trace function).alone journal = .ok (recorded, context) after)
    (encode : List.Forall₂ Encodes arguments
      (function.signature.parameters.map Parameter.type)) :
    (∀ moment, recorded.Reaches context arguments moment → moment.Typed) ∧
    ∀ fuel, Meets (program.evaluate fuel function arguments journal).1
      (recorded.Fails context arguments) function.signature.Answers := by
  have passable := Program.passable_of_registered registered
  rcases Program.trace_sound known traced with ⟨contextSound, rfl, recordedSound⟩
  have recordedPassable : recorded.signature.Passable := passable.find? known
  constructor
  · rintro moment ⟨first, begins, passes⟩
    have firstSound := begins.sound contextSound recordedSound recordedPassable encode
    exact (passes.sound passable firstSound).typed passable
  · intro fuel
    have evaluated : (program.evaluate fuel recorded.function arguments journal).1 =
        recorded.evaluate context fuel arguments := by
      rw [Program.evaluate, traced]
    rw [evaluated]
    exact contextSound.answers passable fuel recordedSound recordedPassable encode

def exampleTwice : ShaderFunction where
  id := ⟨1⟩
  signature := ⟨"twice", [⟨"number", .u32⟩], some .u32, none⟩
  implementation := .script
    (.ofList [.binary "sum" .add (.register "$0") (.register "$0")]) (some (.register "sum"))

def exampleTotal : ShaderFunction where
  id := ⟨0⟩
  signature := ⟨"total", [⟨"numbers", .array .u32 (.fixed 3)⟩], some .u32, none⟩
  implementation := .script
    (.ofList [
      .declare "copy" none (.register "$0"),
      .declare "total" none (.literal (.u32 0)),
      .range "position" (.literal (.u32 0)) (.literal (.u32 3)) (.ofList [
        .index "number" "copy" (.register "position"),
        .call "double" ⟨1⟩ [.register "number"],
        .binary "next" .add (.register "total") (.register "double"),
        .store "total" (.register "next")])])
    (some (.register "total"))

def exampleTotals : Program :=
  ⟨[exampleTotal, exampleTwice]⟩

def Program.traces (program : Program) (function : ShaderFunction) : Bool :=
  match (program.trace function).alone {} with
  | .ok _ _ => true
  | .error _ _ => false

theorem Program.exists_of_traces {program : Program} {function : ShaderFunction}
    (succeeds : program.traces function = true) :
    ∃ recorded context after,
      (program.trace function).alone {} = .ok (recorded, context) after := by
  unfold Program.traces at succeeds
  split at succeeds
  next answer after traced => exact ⟨answer.1, answer.2, after, traced⟩
  next => cases succeeds

theorem exampleTotals_registered :
    ∀ other ∈ exampleTotals.functions, other.signature.Registered := by
  have numbersValid : Identifier.isValid "numbers" = true := by decide +kernel
  have numberValid : Identifier.isValid "number" = true := by decide +kernel
  have resultRegistered : ∀ type ∈ some TypeDescriptor.u32, type.Registered := by
    rintro type ⟨⟩
    exact .scalar .u32
  intro other member
  rcases List.mem_cons.mp member with rfl | member
  · have built : Signature.plain "total" [⟨"numbers", .array .u32 (.fixed 3)⟩] (some .u32) =
        .ok exampleTotal.signature := by
      rw [Signature.plain, Signature.checkParameters, numbersValid]
      rfl
    apply Signature.Registered.plain _ resultRegistered built
    intro parameter inside
    rw [List.mem_singleton.mp inside]
    exact @TypeDescriptor.Registered.array .u32 _ (.fixed 3) (.scalar .u32) rfl
  · rw [List.mem_singleton.mp member]
    have built : Signature.plain "twice" [⟨"number", .u32⟩] (some .u32) =
        .ok exampleTwice.signature := by
      rw [Signature.plain, Signature.checkParameters, numberValid]
      rfl
    apply Signature.Registered.plain _ resultRegistered built
    intro parameter inside
    rw [List.mem_singleton.mp inside]
    exact .scalar .u32

theorem evaluate_sound_exampleTotals :
    ∃ recorded context after arguments,
      (exampleTotals.trace exampleTotal).alone {} = .ok (recorded, context) after ∧
      arguments = [HostValue.array [.scalar (.u32 1), .scalar (.u32 2), .scalar (.u32 4)]] ∧
      (∀ moment, recorded.Reaches context arguments moment → moment.Typed) ∧
      ∀ fuel, Meets (exampleTotals.evaluate fuel exampleTotal arguments {}).1
        (recorded.Fails context arguments) exampleTotal.signature.Answers := by
  have succeeds : exampleTotals.traces exampleTotal = true := by decide +kernel
  rcases Program.exists_of_traces succeeds with ⟨recorded, context, after, traced⟩
  have passable := Program.passable_of_registered exampleTotals_registered
  have typed : HasType (.array .u32 (.fixed 3))
      (.array [.scalar (.u32 1), .scalar (.u32 2), .scalar (.u32 4)]) := by
    simp [HasType, ArrayLength.accepts, Scalar.kind]
  have encode := encodes_of_hasType (passable exampleTotal List.mem_cons_self _ List.mem_cons_self)
    typed
  exact ⟨recorded, context, after, _, traced, rfl,
    evaluate_sound exampleTotals_registered rfl traced (.cons encode .nil)⟩

end ShaderKit
