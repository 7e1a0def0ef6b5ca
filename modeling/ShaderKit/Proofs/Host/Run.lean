import ShaderKit.Proofs.Host.Statements

/-!
# Runs of blocks

A checked block that is run from a typed frame ends in a typed frame. It goes past its end
only if it does not return on every way, and it leaves a loop only inside one.
-/

namespace ShaderKit

open Evaluation

/-- How a statement or a block may end, given what its text says of it. -/
structure Outcome (activation : Activation) (inLoop : Prop) (leaves returns : Bool)
    (before : Frame) (result : Frame × Flow) : Prop where
  sound : result.1.Sound activation
  keeps : before.Keeps result.1
  next : result.2 = .next → returns = false
  leaveLoop : result.2 = .leaveLoop → inLoop ∧ leaves = true
  nextRound : result.2 = .nextRound → inLoop
  giveBack (value : Option HostValue) :
    result.2 = .giveBack value → activation.recorded.signature.Answers value

section

variable {activation : Activation} {inLoop : Prop} {leaves returns : Bool} {before : Frame}

theorem Outcome.of_next {after : Frame} (sound : after.Sound activation)
    (keeps : before.Keeps after) :
    Outcome activation inLoop leaves false before (after, .next) :=
  ⟨sound, keeps, fun _ => rfl, nofun, nofun, nofun⟩

theorem Outcome.of_giveBack {after : Frame} {value : Option HostValue}
    (sound : after.Sound activation) (keeps : before.Keeps after)
    (answers : activation.recorded.signature.Answers value) :
    Outcome activation inLoop leaves returns before (after, .giveBack value) :=
  ⟨sound, keeps, nofun, nofun, nofun, fun _ same => by cases same; exact answers⟩

theorem Outcome.weaken {middle : Frame} {result : Frame × Flow} {leavesMore returnsLess : Bool}
    (outcome : Outcome activation inLoop leaves returns middle result)
    (keeps : before.Keeps middle) (more : leaves = true → leavesMore = true)
    (less : returns = false → returnsLess = false) :
    Outcome activation inLoop leavesMore returnsLess before result where
  sound := outcome.sound
  keeps := keeps.trans outcome.keeps
  next flow := less (outcome.next flow)
  leaveLoop flow := ⟨(outcome.leaveLoop flow).1, more (outcome.leaveLoop flow).2⟩
  nextRound := outcome.nextRound
  giveBack := outcome.giveBack

end

/-! ## Loops -/

section

variable {activation : Activation} {program : Program} {fuel : Nat} {bound : List Binder}
  {inLoop : Prop} {body rest : Block}

def RoundsMeet (activation : Activation) (fuel : Nat) (bound : List Binder) (body : Block) : Prop :=
  ∀ frame : Frame, frame.Sound activation → frame.Provides bound →
    Meets (Moment.run ⟨activation, frame, body⟩ fuel) (Moment.Excuses ⟨activation, frame, body⟩)
      (Outcome activation True (leaveLoopIn body) (blockReturns body) frame)

theorem outcome_of_afterRound {returns : Bool} {before : Frame} {result : Frame × Flow}
    {ending : Flow}
    (outcome : Outcome activation True (leaveLoopIn body) returns before result)
    (ends : Activation.afterRound result.2 = some ending) :
    Outcome activation inLoop false (!leaveLoopIn body) before (result.1, ending) := by
  rcases result with ⟨after, flow⟩
  cases flow with
  | next => cases ends
  | nextRound => cases ends
  | leaveLoop =>
      cases ends
      rw [(outcome.leaveLoop rfl).2]
      exact .of_next outcome.sound outcome.keeps
  | giveBack value =>
      cases ends
      exact .of_giveBack outcome.sound outcome.keeps (outcome.giveBack value rfl)

theorem repeatRounds_meets (rounds : RoundsMeet activation fuel bound body) (count : Nat)
    {frame : Frame} (frameSound : frame.Sound activation) (provides : frame.Provides bound) :
    Meets (Activation.repeatRounds
        (fun frame => Moment.run ⟨activation, frame, body⟩ fuel) count frame)
      (Moment.Excuses ⟨activation, frame, .loop body :: rest⟩)
      (Outcome activation inLoop false (!leaveLoopIn body) frame) := by
  induction count generalizing frame with
  | zero => exact trivial
  | succ count induction =>
      have round := (rounds frame frameSound provides).forgive fun error excuses =>
        excuses.after (@Moment.Leads.loop activation frame body rest)
      apply Meets.bind round
      rintro ⟨after, flow⟩ ran outcome
      dsimp only
      split
      next ending ends => exact .ok (outcome_of_afterRound outcome ends)
      next again =>
        have later := induction outcome.sound (provides.keep outcome.keeps)
        apply (later.imp fun result outcomeLater =>
          outcomeLater.weaken outcome.keeps id id).forgive
        intro error excuses
        exact .after (.again fuel ran again) excuses

theorem add_one {kind : ScalarKind} {current : Scalar} (integer : kind.isInteger = true)
    (same : current.kind = kind) :
    ∃ following, Scalar.applyBinary .add current ((Scalar.u32 1).convert current.kind) =
      some following ∧ following.kind = kind := by
  have numeric : kind.isNumeric = true := by
    cases kind <;> first | rfl | cases integer
  apply BinaryOperator.combines_arithmetic rfl numeric current _ same
  rw [Scalar.kind_convert]
  exact same

/-- A loop with a counter counts up to its bound, unless a round of it ends the loop. -/
theorem countRounds_meets {counter : Nat} {first last : Node} {start limit : Scalar}
    {kind : ScalarKind} {frame : Frame} {declared : LocalVariable}
    (rounds : RoundsMeet activation fuel (bound ++ [.variable counter]) body)
    (known : activation.recorded.locals[counter]? = some declared)
    (typed : declared.type = .scalar kind) (integer : kind.isInteger = true)
    (firstValue : activation.scalar frame first = .ok start)
    (lastValue : activation.scalar frame last = .ok limit)
    (provides : frame.Provides bound) (count : Nat) {current : Scalar} {before : Frame}
    (same : current.kind = kind) (beforeSound : before.Sound activation)
    (keeps : frame.Keeps before)
    (counts : Moment.Counts activation counter limit body start frame current before) :
    Meets (activation.countRounds (fun frame => Moment.run ⟨activation, frame, body⟩ fuel) counter
        limit count current before)
      (Moment.Excuses ⟨activation, frame, .range counter first last body :: rest⟩)
      (Outcome activation inLoop false false frame) := by
  induction count generalizing current before with
  | zero => exact trivial
  | succ count induction =>
      have currentTyped : HasType declared.type (.scalar current) := by
        rw [typed]
        exact hasType_scalar.mpr ⟨current, rfl, same⟩
      have roundSound := beforeSound.setVariable known currentTyped
      unfold Activation.countRounds
      dsimp only
      split
      next => exact .ok (.of_next roundSound keeps)
      next notDone =>
        have less := Decidable.not_not.mp notDone
        have enter : Moment.Leads ⟨activation, frame, .range counter first last body :: rest⟩
            ⟨activation, Activation.setVariable before counter (.scalar current), body⟩ :=
          .round firstValue lastValue counts less
        have round := (rounds _ roundSound ((provides.keep keeps).variable counter)).forgive
          fun error excuses => excuses.after enter
        apply Meets.bind round
        rintro ⟨after, flow⟩ ran outcome
        have kept := keeps.trans outcome.keeps
        dsimp only
        split
        next ending ends =>
          exact .ok ((outcome_of_afterRound outcome ends).weaken keeps id fun _ => rfl)
        next again =>
          rcases add_one integer same with ⟨following, counted, followingKind⟩
          rw [counted]
          exact induction followingKind outcome.sound kept
            (.next fuel counts less ran again counted)

end

/-! ## Statements and blocks -/

mutual
theorem Statement.run_meets {activation : Activation} {program : Program} {fuel : Nat}
    (sound : activation.Sound program) (callees : activation.CalleesMeet fuel) :
    ∀ {statement : Statement} {rest : Block} {bound : List Binder} {inLoop : Prop} {frame : Frame},
      frame.Sound activation → frame.Provides bound →
      statement.Checked activation.inventory inLoop bound →
        Meets (statement.run activation (activation.callee fuel) fuel frame)
          (Moment.Excuses ⟨activation, frame, statement :: rest⟩) fun result =>
            Outcome activation inLoop statement.leavesLoop statement.returns frame result ∧
              (result.2 = .next → result.1.Provides (bound ++ statement.binds))
  | .emit node, rest, bound, inLoop, frame, frameSound, provides, checked => by
      apply Meets.bind (bind_meets sound callees frameSound provides checked)
      rintro after _ ⟨afterSound, keeps, binds⟩
      exact .ok ⟨.of_next afterSound keeps, fun _ => (provides.keep keeps).node binds⟩
  | .declare index initial, rest, bound, inLoop, frame, frameSound, provides, checked => by
      simp only [Statement.Checked] at checked
      rcases checked with ⟨declared, known, operand⟩
      have given : Meets (activation.initialValue frame index initial)
          (Moment.Excuses ⟨activation, frame, .declare index initial :: rest⟩)
          (HasType declared.type) := by
        cases initial with
        | some node =>
            exact operand_excused sound frameSound provides (List.mem_singleton_self node)
              (operand node rfl)
        | none =>
            rw [Activation.initialValue_none known]
            exact .ok (hasType_zero declared.type)
      apply Meets.bind given
      intro value _ typed
      exact .ok ⟨.of_next (frameSound.setVariable known typed) (.refl frame),
        fun _ => provides.variable index⟩
  | .store target source, rest, bound, inLoop, frame, frameSound, provides, checked => by
      simp only [Statement.Checked] at checked
      rcases checked with ⟨type, reference, usable, operand⟩
      apply Meets.bind (operand_excused sound frameSound provides
        (List.mem_cons_of_mem _ List.mem_cons_self) operand)
      intro value _ typed
      apply Meets.bind (store_meets sound frameSound provides usable typed)
      rintro after _ ⟨afterSound, keeps⟩
      exact .ok ⟨.of_next afterSound keeps, fun _ => (provides.keep keeps).unbound rfl⟩
  | .callVoid callee arguments, rest, bound, inLoop, frame, frameSound, provides, checked => by
      simp only [Statement.Checked] at checked
      rcases checked with ⟨recorded, known, operands⟩
      apply Meets.bind
        (arguments_excused sound frameSound provides (.callVoid callee arguments) operands)
      intro values given typed
      have called := (callees callee recorded values known typed).forgive fun error fails =>
        @Moment.Excuses.of_calls ⟨activation, frame, .callVoid callee arguments :: rest⟩
          recorded values error (.void known given) fails
      apply Meets.bind called.discard
      intro _ _ _
      exact .ok ⟨.of_next frameSound (.refl frame), fun _ => provides.unbound rfl⟩
  | .branch condition accept reject, rest, bound, inLoop, frame, frameSound, provides, checked => by
      simp only [Statement.Checked] at checked
      rcases checked with ⟨operand, acceptChecked, rejectChecked⟩
      apply Meets.bind (truth_excused sound frameSound provides List.mem_cons_self operand)
      intro held ran _
      have kept {result : Frame × Flow} (keeps : frame.Keeps result.1) :
          result.1.Provides (bound ++ Statement.binds (.branch condition accept reject)) :=
        (provides.keep keeps).unbound rfl
      cases held with
      | true =>
          have entered := (runBlock_meets sound callees frameSound provides acceptChecked).forgive
            fun error excuses => excuses.after
              (@Moment.Leads.accept activation frame condition accept reject rest ran)
          apply entered.imp
          intro result outcome
          refine ⟨outcome.weaken (.refl frame) ?_ ?_, fun _ => kept outcome.keeps⟩
          · intro leaves
            rw [Statement.leavesLoop, leaves, Bool.true_or]
          · intro returns
            rw [Statement.returns, returns, Bool.false_and]
      | false =>
          have entered := (runBlock_meets sound callees frameSound provides rejectChecked).forgive
            fun error excuses => excuses.after
              (@Moment.Leads.reject activation frame condition accept reject rest ran)
          apply entered.imp
          intro result outcome
          refine ⟨outcome.weaken (.refl frame) ?_ ?_, fun _ => kept outcome.keeps⟩
          · intro leaves
            rw [Statement.leavesLoop, leaves, Bool.or_true]
          · intro returns
            rw [Statement.returns, returns, Bool.and_false]
  | .loop body, rest, bound, inLoop, frame, frameSound, provides, checked => by
      simp only [Statement.Checked] at checked
      have rounds : RoundsMeet activation fuel bound body := fun frame frameSound provides =>
        runBlock_meets sound callees frameSound provides checked
      apply (@repeatRounds_meets activation fuel bound inLoop body rest rounds fuel frame
        frameSound provides).imp
      intro result outcome
      exact ⟨outcome, fun _ => (provides.keep outcome.keeps).unbound rfl⟩
  | .range counter first last body, rest, bound, inLoop, frame, frameSound, provides, checked => by
      simp only [Statement.Checked] at checked
      rcases checked with ⟨declared, known, integer, firstOperand, lastOperand, bodyChecked⟩
      have rounds : RoundsMeet activation fuel (bound ++ [.variable counter]) body :=
        fun frame frameSound provides =>
          runBlock_meets sound callees frameSound provides bodyChecked
      cases typed : declared.type with
      | scalar kind =>
          rw [typed] at integer firstOperand lastOperand
          apply Meets.bind (scalar_excused sound frameSound provides
            (List.mem_cons_of_mem _ List.mem_cons_self) lastOperand)
          intro limit lastValue _
          apply Meets.bind
            (scalar_excused sound frameSound provides List.mem_cons_self firstOperand)
          intro start firstValue same
          apply (countRounds_meets rounds known typed integer firstValue lastValue provides fuel
            same frameSound (.refl frame) .first).imp
          intro result outcome
          exact ⟨outcome, fun _ => (provides.keep outcome.keeps).unbound rfl⟩
      | _ =>
          rw [typed] at integer
          cases integer
  | .leaveLoop, rest, bound, inLoop, frame, frameSound, provides, checked => by
      simp only [Statement.Checked] at checked
      exact .ok ⟨⟨frameSound, .refl frame, nofun, fun _ => ⟨checked, rfl⟩, nofun, nofun⟩, nofun⟩
  | .nextRound, rest, bound, inLoop, frame, frameSound, provides, checked => by
      simp only [Statement.Checked] at checked
      exact .ok ⟨⟨frameSound, .refl frame, nofun, nofun, fun _ => checked, nofun⟩, nofun⟩
  | .giveBack none, rest, bound, inLoop, frame, frameSound, provides, checked => by
      simp only [Statement.Checked] at checked
      change activation.recorded.signature.result = none at checked
      exact .ok ⟨.of_giveBack frameSound (.refl frame) (Signature.answers_none checked), nofun⟩
  | .giveBack (some node), rest, bound, inLoop, frame, frameSound, provides, checked => by
      simp only [Statement.Checked] at checked
      rcases checked with ⟨type, result, operand⟩
      change activation.recorded.signature.result = some type at result
      apply Meets.bind (operand_excused sound frameSound provides
        (List.mem_singleton_self node) operand)
      intro value _ typed
      exact .ok ⟨.of_giveBack frameSound (.refl frame) (Signature.answers_some result typed), nofun⟩
  | .discard, rest, bound, inLoop, frame, frameSound, provides, checked =>
      Activation.refuse_meets (.here .discard)

theorem runBlock_meets {activation : Activation} {program : Program} {fuel : Nat}
    (sound : activation.Sound program) (callees : activation.CalleesMeet fuel) :
    ∀ {block : List Statement} {bound : List Binder} {inLoop : Prop} {frame : Frame},
      frame.Sound activation → frame.Provides bound →
      BlockChecked activation.inventory inLoop bound block →
        Meets (Moment.run ⟨activation, frame, block⟩ fuel)
          (Moment.Excuses ⟨activation, frame, block⟩)
          (Outcome activation inLoop (leaveLoopIn block) (blockReturns block) frame)
  | [], bound, inLoop, frame, frameSound, provides, checked =>
      .ok (.of_next frameSound (.refl frame))
  | statement :: rest, bound, inLoop, frame, frameSound, provides, checked => by
      simp only [BlockChecked] at checked
      apply Meets.bind (Statement.run_meets sound callees frameSound provides checked.1)
      rintro ⟨after, flow⟩ ran ⟨outcome, provided⟩
      have leaves : statement.leavesLoop = true → leaveLoopIn (statement :: rest) = true := by
        intro leaves
        rw [leaveLoopIn, leaves, Bool.true_or]
      cases flow with
      | next =>
          have later := runBlock_meets sound callees outcome.sound (provided rfl) checked.2
          apply (later.imp _).forgive
          · intro error excuses
            exact .after (.next fuel ran) excuses
          · intro result outcomeLater
            apply outcomeLater.weaken outcome.keeps
            · intro leavesLater
              rw [leaveLoopIn, leavesLater, Bool.or_true]
            · intro returns
              cases rest with
              | nil => exact outcome.next rfl
              | cons other others => exact returns
      | leaveLoop | nextRound | giveBack value =>
          exact .ok ⟨outcome.sound, outcome.keeps, nofun, fun flow =>
            ⟨(outcome.leaveLoop flow).1, leaves (outcome.leaveLoop flow).2⟩, outcome.nextRound,
            outcome.giveBack⟩
end

end ShaderKit
