import ShaderKit.Proofs.Host.Moments
import ShaderKit.Proofs.Recording.Accounts

/-!
# Numbers of constants do not matter

A recording may name the constants of its context by other numbers, if the numbers stand for the
same values in another context. Run on the host in that context it gives the same, as do the
functions that it calls.
-/

namespace ShaderKit

/-! ## Renumbering -/

def Expression.renumber (rename : Nat → Nat) : Expression → Expression
  | .constant number => .constant (rename number)
  | other => other

def ExpressionEntry.renumber (rename : Nat → Nat) (entry : ExpressionEntry) : ExpressionEntry :=
  { entry with expression := entry.expression.renumber rename }

def RecordedFunction.renumber (rename : Nat → Nat) (recorded : RecordedFunction) :
    RecordedFunction :=
  { recorded with
    expressions := recorded.expressions.map (ExpressionEntry.renumber rename)
    constants := recorded.constants.map rename }

theorem ExpressionEntry.isInlined_renumber (rename : Nat → Nat) (entry : ExpressionEntry) :
    (entry.renumber rename).isInlined = entry.isInlined := by
  rcases entry with ⟨expression, type, reference, scope⟩
  cases expression <;> rfl

theorem RecordedFunction.entry?_renumber (rename : Nat → Nat) (recorded : RecordedFunction)
    (node : Node) : RecordedFunction.entry? (recorded.renumber rename) node =
      (recorded.entry? node).map (ExpressionEntry.renumber rename) :=
  Array.getElem?_map

theorem RecordedFunction.frame_renumber (rename : Nat → Nat) (recorded : RecordedFunction) :
    (recorded.renumber rename).frame = recorded.frame := by
  simp only [frame, renumber, Array.size_map]

namespace Activation

variable {activation : Activation} {other : TraceContext} {rename : Nat → Nat} {frame : Frame}
  {call following : Callee}

def renumber (activation : Activation) (other : TraceContext) (rename : Nat → Nat) : Activation :=
  ⟨other, activation.recorded.renumber rename, activation.arguments⟩

def SameConstants (activation : Activation) (other : TraceContext) (rename : Nat → Nat) : Prop :=
  ∀ entry ∈ activation.recorded.expressions, ∀ number, entry.expression = .constant number →
    (other.constant? (rename number)).map ModuleConstant.value =
      (activation.context.constant? number).map ModuleConstant.value

def SameCalls (activation : Activation) (call following : Callee) : Prop :=
  ∀ entry ∈ activation.recorded.expressions, ∀ callee arguments,
    entry.expression = .call callee arguments → following callee = call callee

/-! ## Meanings -/

theorem memberName?_renumber (base : Node) (position : Nat) :
    (activation.renumber other rename).memberName? base position =
      activation.memberName? base position := by
  simp only [memberName?, renumber, RecordedFunction.entry?_renumber]
  cases activation.recorded.entry? base <;> rfl

theorem meaningOf_renumber {entry : ExpressionEntry} {operand : Node → Evaluation Meaning}
    (constants : ∀ number, entry.expression = .constant number →
      (other.constant? (rename number)).map ModuleConstant.value =
        (activation.context.constant? number).map ModuleConstant.value)
    (calls : ∀ callee arguments, entry.expression = .call callee arguments →
      following callee = call callee) :
    (activation.renumber other rename).meaningOf frame operand following (entry.renumber rename) =
      activation.meaningOf frame operand call entry := by
  rcases entry with ⟨expression, type, reference, scope⟩
  cases expression with
  | constant number =>
      have same := constants number rfl
      change (activation.require .unknownConstant
        ((other.constant? (rename number)).map ModuleConstant.value)).map Meaning.value = _
      rw [same]
      rfl
  | call callee arguments =>
      have same := calls callee arguments rfl
      simp only [meaningOf, ExpressionEntry.renumber, Expression.renumber, same]
      rfl
  | member base position =>
      simp only [meaningOf, ExpressionEntry.renumber, Expression.renumber, memberName?_renumber]
      rfl
  | swizzle source components =>
      match components with
      | [_] => rfl
      | [] | _ :: _ :: _ => rfl
  | _ => rfl

variable (constants : activation.SameConstants other rename)

include constants

theorem meaningWithin_renumber (depth : Nat) (node : Node) :
    (activation.renumber other rename).meaningWithin frame depth node =
      activation.meaningWithin frame depth node := by
  induction depth generalizing node with
  | zero => rfl
  | succ depth induction =>
      have same : (activation.renumber other rename).meaningWithin frame depth =
          activation.meaningWithin frame depth := funext induction
      have renumbered : (activation.renumber other rename).recorded.entry? node =
          (activation.recorded.entry? node).map (ExpressionEntry.renumber rename) :=
        activation.recorded.entry?_renumber rename node
      unfold meaningWithin
      rw [renumbered, same]
      cases found : activation.recorded.entry? node with
      | none => rfl
      | some entry =>
          have member := Array.mem_of_getElem? found
          cases frame.meanings[node.index]?.join with
          | some meaning => rfl
          | none =>
              dsimp only [Option.map_some]
              rw [entry.isInlined_renumber]
              split
              next => exact meaningOf_renumber (constants entry member) fun _ _ _ => rfl
              next => rfl

theorem meaning_renumber (node : Node) : (activation.renumber other rename).meaning frame node =
    activation.meaning frame node :=
  meaningWithin_renumber constants (node.index + 1) node

theorem value_renumber (node : Node) : (activation.renumber other rename).value frame node =
    activation.value frame node := by
  rw [value, meaning_renumber constants]
  rfl

theorem scalar_renumber (node : Node) : (activation.renumber other rename).scalar frame node =
    activation.scalar frame node := by
  rw [scalar, value_renumber constants]
  rfl

theorem truth_renumber (node : Node) : (activation.renumber other rename).truth frame node =
    activation.truth frame node := by
  rw [truth, scalar_renumber constants]
  rfl

theorem bind_renumber (calls : activation.SameCalls call following) (node : Node) :
    (activation.renumber other rename).bind frame following node =
      activation.bind frame call node := by
  have renumbered : (activation.renumber other rename).recorded.entry? node =
      (activation.recorded.entry? node).map (ExpressionEntry.renumber rename) :=
    activation.recorded.entry?_renumber rename node
  have same : (activation.renumber other rename).meaning frame = activation.meaning frame :=
    funext (meaning_renumber constants)
  unfold bind
  rw [renumbered, same]
  cases found : activation.recorded.entry? node with
  | none => rfl
  | some entry =>
      have member := Array.mem_of_getElem? found
      have meanings := @meaningOf_renumber activation other rename frame call following entry
        (activation.meaning frame) (constants entry member) (calls entry member)
      change (do
        let meaning ← (activation.renumber other rename).meaningOf frame (activation.meaning frame)
          following (entry.renumber rename)
        .ok { frame with meanings := frame.meanings.setIfInBounds node.index (some meaning) }) = _
      rw [meanings]
      rfl

theorem initialValue_renumber (index : Nat) (initial : Option Node) :
    (activation.renumber other rename).initialValue frame index initial =
      activation.initialValue frame index initial := by
  cases initial with
  | none => rfl
  | some node => exact value_renumber constants node

theorem store_renumber (target : Node) (new : HostValue) :
    (activation.renumber other rename).store frame target new =
      activation.store frame target new := by
  rw [store, meaning_renumber constants]
  rfl

omit constants in
theorem countRounds_renumber (round : Frame → Evaluation (Frame × Flow)) (counter : Nat)
    (bound : Scalar) (rounds : Nat) (current : Scalar) :
    (activation.renumber other rename).countRounds round counter bound rounds current frame =
      activation.countRounds round counter bound rounds current frame := by
  induction rounds generalizing current frame with
  | zero => rfl
  | succ rounds induction =>
      simp only [countRounds, induction]
      rfl

end Activation

open Activation

mutual
/-- A statement does the same in the run of a renumbered recording. -/
theorem Statement.run_renumber {activation : Activation} {other : TraceContext}
    {rename : Nat → Nat} {call following : Callee}
    (constants : activation.SameConstants other rename)
    (calls : activation.SameCalls call following) (rounds : Nat) :
    ∀ (statement : Statement) (frame : Frame),
      (∀ callee ∈ statement.calls, following callee = call callee) →
        statement.run (activation.renumber other rename) following rounds frame =
          statement.run activation call rounds frame := by
  intro statement frame same
  cases statement with
  | emit node =>
      simp only [Statement.run, bind_renumber constants calls]
  | declare index initial =>
      simp only [Statement.run, initialValue_renumber constants]
  | store target source =>
      simp only [Statement.run, value_renumber constants, store_renumber constants]
  | callVoid callee arguments =>
      have outcome := same callee List.mem_cons_self
      have values : (activation.renumber other rename).value frame = activation.value frame :=
        funext (value_renumber constants)
      simp only [Statement.run, values, outcome]
  | branch condition accept reject =>
      have acceptSame := runBlock_renumber constants calls rounds accept frame fun callee member =>
        same callee (List.mem_append_left _ member)
      have rejectSame := runBlock_renumber constants calls rounds reject frame fun callee member =>
        same callee (List.mem_append_right _ member)
      simp only [Statement.run, truth_renumber constants, acceptSame, rejectSame]
  | loop body =>
      have bodySame := fun frame => runBlock_renumber constants calls rounds body frame same
      simp only [Statement.run, bodySame]
  | range counter first last body =>
      have bodySame := fun frame => runBlock_renumber constants calls rounds body frame same
      simp only [Statement.run, scalar_renumber constants, bodySame, countRounds_renumber]
  | giveBack value =>
      cases value with
      | none => rfl
      | some node => simp only [Statement.run, value_renumber constants]
  | leaveLoop | nextRound | discard => rfl

theorem runBlock_renumber {activation : Activation} {other : TraceContext}
    {rename : Nat → Nat} {call following : Callee}
    (constants : activation.SameConstants other rename)
    (calls : activation.SameCalls call following) (rounds : Nat) :
    ∀ (block : List Statement) (frame : Frame),
      (∀ callee ∈ blockCalls block, following callee = call callee) →
        runBlock (activation.renumber other rename) following rounds frame block =
          runBlock activation call rounds frame block := by
  intro block frame same
  cases block with
  | nil => rfl
  | cons statement rest =>
      have first := statement.run_renumber constants calls rounds frame fun callee member =>
        same callee (List.mem_append_left _ member)
      have restSame := fun frame => runBlock_renumber constants calls rounds rest frame
        fun callee member => same callee (List.mem_append_right _ member)
      simp only [runBlock, first, restSame]
end

/-! ## Functions -/

/-- Another context where every function that is finished in both has the same recording up to
numbers, and the numbers in the recordings stand for the same values. -/
structure TraceContext.Renumbers (context other : TraceContext) (rename : Nat → Nat) : Prop where
  recordings : ∀ {id recorded answer}, context.find? id = some recorded →
    other.find? id = some answer → answer = recorded.renumber rename
  constants : ∀ {id recorded answer}, context.find? id = some recorded →
    other.find? id = some answer → ∀ entry ∈ recorded.expressions, ∀ number,
      entry.expression = .constant number →
        (other.constant? (rename number)).map ModuleConstant.value =
          (context.constant? number).map ModuleConstant.value

namespace RecordedFunction

variable {context other : TraceContext} {rename : Nat → Nat}

theorem body_of_accept {recorded : RecordedFunction} {arguments values : List HostValue}
    {block : Block} (accepted : recorded.accept arguments = .ok (block, values)) :
    recorded.body = .statements block := by
  unfold accept at accepted
  split at accepted
  next => cases accepted
  next statements body =>
    dsimp only at accepted
    split at accepted
    next => cases accepted
    next =>
      cases canonical : canonicalArguments arguments recorded.signature.parameters <;>
        rw [canonical] at accepted <;> cases accepted
      exact body

theorem exists_callee (ordered : context.Ordered) {id : FunctionId} {recorded : RecordedFunction}
    (found : context.find? id = some recorded) {callee : FunctionId}
    (listed : callee ∈ recorded.callees) : ∃ kept, context.find? callee = some kept := by
  have precedes := ordered.inOrder.earlier id (TraceContext.mem_order_of_find? found) callee
    ⟨recorded, found, listed⟩
  exact Option.isSome_iff_exists.mp (TraceContext.mem_order_iff.mp precedes.1)

/-- A function that is finished in two contexts gives the same on the host, if its recordings
differ in numbers only. -/
theorem evaluate_renumber (ordered : context.Ordered) (orderedToo : other.Ordered)
    (renumbers : context.Renumbers other rename) (fuel : Nat) {id : FunctionId}
    {recorded answer : RecordedFunction} (found : context.find? id = some recorded)
    (foundToo : other.find? id = some answer) (arguments : List HostValue) :
    answer.evaluate other fuel arguments = recorded.evaluate context fuel arguments := by
  induction fuel generalizing id recorded answer arguments with
  | zero => rfl
  | succ fuel induction =>
      have constants := renumbers.constants found foundToo
      have accounted := ordered.accounted recorded (TraceContext.find?_mem found).1
      cases renumbers.recordings found foundToo
      have accepted : (recorded.renumber rename).accept arguments = recorded.accept arguments := rfl
      rw [evaluate_succ, evaluate_succ, accepted, recorded.frame_renumber]
      cases accept : recorded.accept arguments with
      | error error =>
          have failed (next : Block × List HostValue → Evaluation (Option HostValue)) :
              ((Except.error error).mapError Interruption.failed >>= next) =
                .error (.failed error) := rfl
          rw [failed, failed]
      | ok given =>
          let activation : Activation := ⟨context, recorded, given.2⟩
          -- callees of a finished function are finished in both contexts
          have same : ∀ callee ∈ recorded.callees,
              (activation.renumber other rename).callee fuel callee =
                activation.callee fuel callee := by
            intro callee listed
            have ⟨kept, known⟩ := exists_callee ordered found listed
            have ⟨keptToo, knownToo⟩ := exists_callee orderedToo foundToo listed
            funext values
            simp only [Activation.callee, Activation.renumber, activation, known, knownToo]
            exact induction known knownToo values
          have calls : activation.SameCalls (activation.callee fuel)
              ((activation.renumber other rename).callee fuel) := by
            intro entry member callee arguments called
            exact same callee (accounted.covers member called)
          have constants : activation.SameConstants other rename := constants
          have ran := runBlock_renumber constants calls fuel given.1 recorded.frame
            fun callee called =>
              same callee (accounted.calls given.1 (body_of_accept accept) callee called)
          change (Moment.run ⟨activation.renumber other rename, _, _⟩ fuel >>= _) = _
          rw [Moment.run, ran]
          rfl

end RecordedFunction

end ShaderKit
