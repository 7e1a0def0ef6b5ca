import ShaderKit.Proofs.Codec.Accepts
import ShaderKit.Proofs.Descriptor.Registered
import ShaderKit.Proofs.Host.Run
import ShaderKit.Proofs.Recording.Tracing

/-!
# Evaluations are type safe

A function that was traced is evaluated in typed moments only, and it answers with a value
of its result type or fails for a reason that lies in the function or in its arguments.
-/

namespace ShaderKit

open Evaluation

/-! ## Arguments -/

def Encodes (value : HostValue) (type : TypeDescriptor) : Prop :=
  ∃ bytes, encodeNew value type = .ok bytes

def TypeDescriptor.Passable (type : TypeDescriptor) : Prop :=
  type.Registered ∧ type.isSized = true

variable {program : Program} {context : TraceContext} {recorded : RecordedFunction}

theorem encodes_of_hasType {type : TypeDescriptor} {value : HostValue} (passable : type.Passable)
    (typed : HasType type value) : Encodes value type := by
  rcases passable.1.sized passable.2 with ⟨layout, size, laid, sized⟩
  exact laid.encodeNew_ok sized (typed.accepts passable.1.distinct)

/-- A value that has bytes has a canonical form, which is of the type. -/
theorem canonical_of_encodes {type : TypeDescriptor} {value : HostValue} (passable : type.Passable)
    (encodes : Encodes value type) :
    ∃ canonical, value.canonical type = .ok canonical ∧ HasType type canonical := by
  rcases passable.1.sized passable.2 with ⟨layout, size, laid, sized⟩
  rcases encodes with ⟨bytes, encoded⟩
  rcases laid.decode_encodeNew sized encoded with ⟨accepts, decoded⟩
  refine ⟨type.canon value, ?_, hasType_canon accepts⟩
  rw [HostValue.canonical, encoded]
  dsimp only
  rw [decoded]

theorem canonicalArguments_of_encodes {arguments : List HostValue} {parameters : List Parameter}
    (passable : ∀ parameter ∈ parameters, parameter.type.Passable)
    (encode : List.Forall₂ Encodes arguments (parameters.map Parameter.type)) :
    ∃ values, canonicalArguments arguments parameters = .ok values ∧
      List.Forall₂ HasType (parameters.map Parameter.type) values := by
  induction parameters generalizing arguments with
  | nil =>
      cases encode
      exact ⟨[], rfl, .nil⟩
  | cons parameter rest induction =>
      rcases encode with _ | ⟨first, others⟩
      rcases canonical_of_encodes (passable parameter List.mem_cons_self) first with
        ⟨canonical, found, typed⟩
      rcases induction (fun other member => passable other (List.mem_cons_of_mem _ member))
        others with ⟨values, foundOthers, othersTyped⟩
      refine ⟨canonical :: values, ?_, .cons typed othersTyped⟩
      rw [canonicalArguments, found]
      change (canonicalArguments _ rest >>= fun rest => Except.ok (canonical :: rest)) = _
      rw [foundOthers]
      rfl

def Signature.Passable (signature : Signature) : Prop :=
  ∀ parameter ∈ signature.parameters, parameter.type.Passable

theorem accept_of_encodes {arguments : List HostValue} {block : Block}
    (passable : recorded.signature.Passable) (body : recorded.body = .statements block)
    (encode : List.Forall₂ Encodes arguments (recorded.signature.parameters.map Parameter.type)) :
    ∃ values, recorded.accept arguments = .ok (block, values) ∧
      List.Forall₂ HasType (recorded.signature.parameters.map Parameter.type) values := by
  rcases canonicalArguments_of_encodes passable encode with ⟨values, found, typed⟩
  have counted : arguments.length = recorded.signature.parameters.length := by
    rw [encode.length_eq, List.length_map]
  refine ⟨values, ?_, typed⟩
  rw [RecordedFunction.accept, body]
  dsimp only
  rw [if_neg (not_not_intro counted), found]
  rfl

theorem Signature.Passable.encodes {signature : Signature} {values : List HostValue}
    (passable : signature.Passable)
    (typed : List.Forall₂ HasType (signature.parameters.map Parameter.type) values) :
    List.Forall₂ Encodes values (signature.parameters.map Parameter.type) := by
  apply List.Forall₂.flip
  apply forall₂_of_mem typed
  intro type member value given
  rcases List.mem_map.mp member with ⟨parameter, inside, rfl⟩
  exact encodes_of_hasType (passable parameter inside) given

/-! ## The first frame -/

theorem RecordedFunction.frame_sound (values : List HostValue) :
    recorded.frame.Sound ⟨context, recorded, values⟩ where
  cells index declared found := by
    refine ⟨declared.type.zero, ?_, hasType_zero declared.type⟩
    change (recorded.locals.map fun declared => declared.type.zero)[index]? = _
    rw [Array.getElem?_map]
    exact congrArg (Option.map fun declared => TypeDescriptor.zero declared.type) found
  meanings index entry meaning _ bound := by
    change (Array.replicate recorded.expressions.size none)[index]?.join = some meaning at bound
    rw [Array.getElem?_replicate] at bound
    split at bound <;> cases bound
  room := Array.size_replicate

/-! ## Evaluations -/

def Program.Passable (program : Program) : Prop :=
  ∀ function ∈ program.functions, function.signature.Passable

theorem Program.passable_of_registered
    (registered : ∀ function ∈ program.functions, function.signature.Registered) :
    program.Passable :=
  fun function member => (registered function member).parameters

theorem Program.Passable.find? (passable : program.Passable) {id : FunctionId}
    {function : ShaderFunction} (found : program.find? id = some function) :
    function.signature.Passable :=
  passable function (List.mem_of_find?_eq_some found)

/-- Recordings that are kept in a context answer as their signatures say, or fail for
reasons of their own, with a bound on rounds and depth. -/
def TraceContext.Answers (context : TraceContext) (fuel : Nat) : Prop :=
  ∀ {recorded : RecordedFunction} {arguments : List HostValue}, recorded.Sound context →
    recorded.signature.Passable →
      List.Forall₂ Encodes arguments (recorded.signature.parameters.map Parameter.type) →
        Meets (recorded.evaluate context fuel arguments) (recorded.Fails context arguments)
          recorded.signature.Answers

theorem Activation.Sound.callees_of_answers {activation : Activation} {fuel : Nat}
    (sound : activation.Sound program) (passable : program.Passable)
    (answers : activation.context.Answers fuel) : activation.CalleesMeet fuel := by
  intro callee recorded values found typed
  rcases sound.context.finished callee recorded found with ⟨known, recordedSound⟩
  have recordedPassable : recorded.signature.Passable := passable.find? known
  have called : activation.callee fuel callee values =
      recorded.evaluate activation.context fuel values := by
    simp only [Activation.callee, found]
  rw [called]
  exact answers recordedSound recordedPassable (recordedPassable.encodes typed)

theorem Outcome.answers {activation : Activation} {block : Block} {leaves : Bool}
    {before : Frame} {result : Frame × Flow}
    (outcome : Outcome activation False leaves (blockReturns block) before result)
    (sound : activation.recorded.Sound activation.context)
    (body : activation.recorded.body = .statements block) :
    activation.recorded.signature.Answers (RecordedFunction.resultOf result.2) := by
  cases flow : result.2 with
  | leaveLoop => exact (outcome.leaveLoop flow).1.elim
  | nextRound => exact (outcome.nextRound flow).elim
  | giveBack value => exact outcome.giveBack value flow
  | next =>
      apply Signature.answers_none
      cases declared : activation.recorded.signature.result with
      | none => rfl
      | some type =>
          have returns := sound.returns block body (by rw [declared]; rfl)
          rw [outcome.next flow] at returns
          cases returns

/-- A function answers as its signature says, or fails for a reason of its own. -/
theorem TraceContext.Sound.answers (sound : context.Sound program) (passable : program.Passable)
    (fuel : Nat) : context.Answers fuel := by
  induction fuel with
  | zero => exact fun _ _ _ => trivial
  | succ fuel induction =>
      intro recorded arguments recordedSound recordedPassable encode
      rw [RecordedFunction.evaluate_succ]
      cases body : recorded.body with
      | raw text =>
          have refused : recorded.accept arguments =
              .error (.unsupported recorded.signature.name (.host .rawBody)) := by
            rw [RecordedFunction.accept, body]
          rw [refused]
          exact .inl ⟨text, body, rfl⟩
      | statements block =>
          rcases accept_of_encodes recordedPassable body encode with ⟨values, accepted, typed⟩
          have activationSound : Activation.Sound ⟨context, recorded, values⟩ program :=
            ⟨sound, recordedSound, typed⟩
          have callees := activationSound.callees_of_answers passable induction
          have ran := @runBlock_meets _ program fuel activationSound callees block [] False
            recorded.frame (recorded.frame_sound values) (fun _ impossible => nomatch impossible)
            (recordedSound.checked block body)
          have fails : ∀ error, Moment.Excuses ⟨⟨context, recorded, values⟩, recorded.frame, block⟩
              error → recorded.Fails context arguments error := by
            rintro error ⟨last, passes, stops⟩
            exact .inr ⟨last, ⟨_, ⟨block, values, accepted, rfl⟩, passes⟩, stops⟩
          rw [accepted]
          apply Meets.bind (ran.forgive fails)
          intro result _ outcome
          exact .ok (outcome.answers recordedSound body)

end ShaderKit
