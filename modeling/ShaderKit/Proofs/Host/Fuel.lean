import ShaderKit.Proofs.Host.Moments

/-!
# More fuel changes no answer

Fuel bounds the rounds of each loop and the depth of calls. An evaluation that is not cut off gives
the same with more fuel, so all fuel that is enough leads to one answer.
-/

namespace ShaderKit

/-- An evaluation is cut off, or another one gives the same. -/
def Evaluation.Approaches {α : Type} (work more : Evaluation α) : Prop :=
  work = .error .outOfFuel ∨ more = work

namespace Evaluation.Approaches

variable {α β : Type} {work more : Evaluation α} {next following : α → Evaluation β}

theorem refl (work : Evaluation α) : Approaches work work :=
  .inr rfl

theorem cut : Approaches (.error .outOfFuel) more :=
  .inl rfl

theorem bind (first : Approaches work more)
    (rest : ∀ value, Approaches (next value) (following value)) :
    Approaches (work >>= next) (more >>= following) := by
  rcases first with rfl | rfl
  · exact .cut
  · cases more with
    | error interruption => exact .refl _
    | ok value => exact rest value

end Evaluation.Approaches

open Evaluation

/-! ## Single steps -/

namespace Activation

variable {activation : Activation} {call more : Callee}

theorem meaningOf_approaches
    (calls : ∀ callee values, Approaches (call callee values) (more callee values)) (frame : Frame)
    (operand : Node → Evaluation Meaning) (entry : ExpressionEntry) :
    Approaches (activation.meaningOf frame operand call entry)
      (activation.meaningOf frame operand more entry) := by
  rcases entry with ⟨expression, type, reference, scope⟩
  cases expression with
  | call callee arguments =>
      apply Approaches.bind (.refl _)
      intro values
      exact (calls callee values).bind fun _ => .refl _
  | swizzle source components =>
      match components with
      | [_] => exact .refl _
      | [] | _ :: _ :: _ => exact .refl _
  | _ => exact .refl _

theorem bind_approaches
    (calls : ∀ callee values, Approaches (call callee values) (more callee values)) (frame : Frame)
    (node : Node) :
    Approaches (activation.bind frame call node) (activation.bind frame more node) := by
  apply Approaches.bind (.refl _)
  intro entry
  exact (meaningOf_approaches calls frame _ entry).bind fun _ => .refl _

/-! ## Rounds -/

variable {round following : Frame → Evaluation (Frame × Flow)} {rounds enough : Nat}

theorem repeatRounds_approaches (each : ∀ frame, Approaches (round frame) (following frame))
    (fewer : rounds ≤ enough) (frame : Frame) :
    Approaches (repeatRounds round rounds frame) (repeatRounds following enough frame) := by
  induction rounds generalizing enough frame with
  | zero => exact .cut
  | succ rounds induction =>
      cases enough with
      | zero => exact absurd fewer (Nat.not_succ_le_zero rounds)
      | succ enough =>
          apply (each frame).bind
          rintro ⟨after, flow⟩
          dsimp only
          split
          next => exact .refl _
          next => exact induction (Nat.le_of_succ_le_succ fewer) after

theorem countRounds_approaches (each : ∀ frame, Approaches (round frame) (following frame))
    (counter : Nat) (bound : Scalar) (fewer : rounds ≤ enough) (current : Scalar) (frame : Frame) :
    Approaches (activation.countRounds round counter bound rounds current frame)
      (activation.countRounds following counter bound enough current frame) := by
  induction rounds generalizing enough current frame with
  | zero => exact .cut
  | succ rounds induction =>
      cases enough with
      | zero => exact absurd fewer (Nat.not_succ_le_zero rounds)
      | succ enough =>
          rw [countRounds, countRounds]
          dsimp only
          split
          next => exact .refl _
          next =>
            apply (each _).bind
            rintro ⟨after, flow⟩
            dsimp only
            split
            next => exact .refl _
            next =>
              apply Approaches.bind (.refl _)
              intro next
              exact induction (Nat.le_of_succ_le_succ fewer) next after

end Activation

/-! ## Statements and functions -/

mutual
theorem Statement.run_approaches {activation : Activation} {call more : Callee}
    {rounds enough : Nat}
    (calls : ∀ callee values, Approaches (call callee values) (more callee values))
    (fewer : rounds ≤ enough) : ∀ (statement : Statement) (frame : Frame),
      Approaches (statement.run activation call rounds frame)
        (statement.run activation more enough frame)
  | .emit node, frame => (activation.bind_approaches calls frame node).bind fun _ => .refl _
  | .callVoid callee arguments, frame => by
      apply Approaches.bind (.refl _)
      intro values
      apply Approaches.bind ((calls callee values).bind fun _ => .refl _)
      exact fun _ => .refl _
  | .branch condition accept reject, frame => by
      apply Approaches.bind (.refl _)
      intro held
      split
      next => exact runBlock_approaches calls fewer accept frame
      next => exact runBlock_approaches calls fewer reject frame
  | .loop body, frame =>
      Activation.repeatRounds_approaches (fun frame => runBlock_approaches calls fewer body frame)
        fewer frame
  | .range counter first last body, frame => by
      apply Approaches.bind (.refl _)
      intro bound
      apply Approaches.bind (.refl _)
      intro start
      exact Activation.countRounds_approaches
        (fun frame => runBlock_approaches calls fewer body frame) counter bound fewer start frame
  | .declare _ _, _ | .store _ _, _ | .leaveLoop, _ | .nextRound, _ | .giveBack none, _
  | .giveBack (some _), _ | .discard, _ => .refl _

theorem runBlock_approaches {activation : Activation} {call more : Callee}
    {rounds enough : Nat}
    (calls : ∀ callee values, Approaches (call callee values) (more callee values))
    (fewer : rounds ≤ enough) : ∀ (block : List Statement) (frame : Frame),
      Approaches (runBlock activation call rounds frame block)
        (runBlock activation more enough frame block)
  | [], _ => .refl _
  | statement :: rest, frame => by
      apply (statement.run_approaches calls fewer frame).bind
      rintro ⟨after, flow⟩
      cases flow with
      | next => exact runBlock_approaches calls fewer rest after
      | leaveLoop | nextRound | giveBack => exact .refl _
end

namespace RecordedFunction

theorem evaluate_approaches (context : TraceContext) {fuel enough : Nat} (less : fuel ≤ enough)
    (recorded : RecordedFunction) (arguments : List HostValue) :
    Approaches (recorded.evaluate context fuel arguments)
      (recorded.evaluate context enough arguments) := by
  induction fuel generalizing enough recorded arguments with
  | zero => exact .cut
  | succ fuel induction =>
      cases enough with
      | zero => exact absurd less (Nat.not_succ_le_zero fuel)
      | succ enough =>
          have fewer := Nat.le_of_succ_le_succ less
          rw [evaluate_succ, evaluate_succ]
          apply Approaches.bind (.refl _)
          rintro ⟨block, values⟩
          let activation : Activation := ⟨context, recorded, values⟩
          have calls (callee : FunctionId) (given : List HostValue) :
              Approaches (activation.callee fuel callee given)
                (activation.callee enough callee given) := by
            unfold Activation.callee
            split
            next => exact .refl _
            next other _ => exact induction fewer other given
          apply (runBlock_approaches calls fewer block recorded.frame).bind
          exact fun _ => .refl _

/-- All fuel that is enough for an evaluation gives the same. -/
theorem evaluate_of_le {context : TraceContext} {fuel enough : Nat} {recorded : RecordedFunction}
    {arguments : List HostValue}
    (ends : recorded.evaluate context fuel arguments ≠ .error .outOfFuel) (less : fuel ≤ enough) :
    recorded.evaluate context enough arguments = recorded.evaluate context fuel arguments := by
  rcases evaluate_approaches context less recorded arguments with cut | same
  · exact absurd cut ends
  · exact same

end RecordedFunction

end ShaderKit
