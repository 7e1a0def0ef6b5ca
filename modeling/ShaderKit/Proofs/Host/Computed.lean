import ShaderKit.Proofs.Host.Soundness

/-!
# Values are computed before they are read

Where the definitions of a function stand before their uses, an evaluation never reads a value
that was not computed. This asks nothing of types or arguments: an evaluation that fails for
another reason has read nothing too early until then.
-/

namespace ShaderKit

open Evaluation

/-- An error other than that of a value that is read before it was computed. -/
def ShaderError.Computed (error : ShaderError) : Prop :=
  ∀ name, error ≠ .unsupported name (.host .notComputed)

/-- An evaluation that never reads a value before it was computed. -/
abbrev Evaluation.Computes {α : Type} (work : Evaluation α) (post : α → Prop) : Prop :=
  Meets work ShaderError.Computed post

def Anything {α : Type} (_ : α) : Prop :=
  True

theorem Evaluation.mapM_computes {α β : Type} {work : α → Evaluation β} {items : List α}
    (each : ∀ item ∈ items, Computes (work item) Anything) :
    Computes (items.mapM work) Anything := by
  have all := @Meets.mapM α β α ShaderError.Computed work items items (fun _ _ => True)
    (List.forall₂_same.mpr each)
  exact all.imp fun _ _ => trivial

/-- A run with an argument for each parameter that its expressions mention. Operands stand
before the expressions that they belong to. -/
structure Activation.Prepared (activation : Activation) : Prop where
  ordered : Activation.Ordered activation.recorded.expressions
  arguments : ∀ (index : Nat) (entry : ExpressionEntry) (number : Nat),
    activation.recorded.expressions[index]? = some entry →
      entry.expression = .parameter number → number < activation.arguments.length

structure Frame.Continues (before after : Frame) : Prop where
  room : after.meanings.size = before.meanings.size
  keeps : before.Keeps after

theorem Frame.Continues.refl (frame : Frame) : frame.Continues frame :=
  ⟨rfl, .refl frame⟩

theorem Frame.Continues.trans {before middle after : Frame} (first : before.Continues middle)
    (second : middle.Continues after) : before.Continues after :=
  ⟨second.room.trans first.room, first.keeps.trans second.keeps⟩

theorem Frame.continues_setVariable (frame : Frame) (index : Nat) (value : HostValue) :
    frame.Continues (Activation.setVariable frame index value) :=
  ⟨rfl, fun _ bound => bound⟩

namespace Activation

variable {activation : Activation} {frame : Frame} {bound : List Binder} {inLoop : Prop}

/-! ## Expressions -/

theorem refuse_computes {α : Type} {post : α → Prop} {fault : HostFault}
    (other : fault ≠ .notComputed) : Computes (activation.refuse fault) post := by
  rintro name ⟨⟩
  exact other rfl

theorem require_computes {α : Type} (fault : HostFault) {answer : Option α}
    (other : fault ≠ .notComputed) : Computes (activation.require fault answer) Anything := by
  cases answer with
  | none => exact refuse_computes other
  | some answer => exact .ok trivial

theorem answer_computes {fault : HostFault} {result : Option HostValue}
    (other : fault ≠ .notComputed) :
    Computes ((activation.require fault result).map Meaning.value) Anything := by
  cases result with
  | none => exact refuse_computes other
  | some value => exact .ok trivial

theorem valueOf_computes (meaning : Meaning) :
    Computes (activation.valueOf frame meaning) Anything := by
  cases meaning with
  | value value => exact .ok trivial
  | place index path => exact require_computes .readPath nofun

theorem positionOf_computes (value : HostValue) :
    Computes (activation.positionOf value) Anything := by
  unfold positionOf
  split
  next => exact .ok trivial
  next =>
    split
    next => exact refuse_computes nofun
    next => exact .ok trivial
  next => exact refuse_computes nofun
  next => exact refuse_computes nofun

theorem project_computes (segment : PathSegment) (meaning : Meaning) :
    Computes (activation.project segment meaning) Anything := by
  cases meaning with
  | place index path => exact .ok trivial
  | value value =>
      apply Meets.bind (require_computes .outOfBounds nofun)
      intro part _ _
      exact .ok trivial

theorem meaningOf_computes {operand : Node → Evaluation Meaning} {call : Callee}
    {entry : ExpressionEntry}
    (operands : ∀ node ∈ entry.expression.operands, Computes (operand node) Anything)
    (argument : ∀ number, entry.expression = .parameter number →
      number < activation.arguments.length)
    (calls : ∀ callee arguments values, entry.expression = .call callee arguments →
      Computes (call callee values) Anything) :
    Computes (activation.meaningOf frame operand call entry) Anything := by
  rcases entry with ⟨expression, type, reference, scope⟩
  dsimp only at operands argument calls
  have value {node : Node} (member : node ∈ expression.operands) :
      Computes (operand node >>= activation.valueOf frame) Anything := by
    apply Meets.bind (operands node member)
    intro meaning _ _
    exact valueOf_computes meaning
  have values {nodes : List Node} (made : expression.operands = nodes) :
      Computes (nodes.mapM fun node => operand node >>= activation.valueOf frame) Anything :=
    mapM_computes fun node member => value (made ▸ member)
  cases expression with
  | parameter number =>
      have given := List.getElem?_eq_getElem (argument number rfl)
      unfold meaningOf
      dsimp only
      rw [given]
      exact .ok trivial
  | literal | localVariable | zero => exact .ok trivial
  | constant => exact answer_computes nofun
  | binding => exact refuse_computes nofun
  | load source =>
      apply Meets.bind (value List.mem_cons_self)
      intro _ _ _
      exact .ok trivial
  | compose arguments | helper _ arguments =>
      apply Meets.bind (values rfl)
      intro _ _ _
      exact answer_computes nofun
  | unary _ source | convert source =>
      apply Meets.bind (value List.mem_cons_self)
      intro _ _ _
      exact answer_computes nofun
  | binary _ left right =>
      apply Meets.bind (value List.mem_cons_self)
      intro _ _ _
      apply Meets.bind (value (List.mem_cons_of_mem _ List.mem_cons_self))
      intro _ _ _
      exact answer_computes nofun
  | member base position =>
      apply Meets.bind (require_computes .memberAccess nofun)
      intro name _ _
      apply Meets.bind (operands base List.mem_cons_self)
      intro meaning _ _
      exact project_computes _ meaning
  | index base position =>
      apply Meets.bind (value (List.mem_cons_of_mem _ List.mem_cons_self))
      intro given _ _
      apply Meets.bind (positionOf_computes given)
      intro number _ _
      apply Meets.bind (operands base List.mem_cons_self)
      intro meaning _ _
      exact project_computes _ meaning
  | swizzle source components =>
      have picked : Computes (operand source >>= activation.valueOf frame >>= fun value =>
          (activation.require .swizzle (pick components value)).map Meaning.value) Anything := by
        apply Meets.bind (value List.mem_cons_self)
        intro _ _ _
        exact answer_computes nofun
      match components with
      | [component] =>
          apply Meets.bind (operands source List.mem_cons_self)
          intro meaning _ _
          exact project_computes _ meaning
      | [] | _ :: _ :: _ => exact picked
  | call callee arguments =>
      apply Meets.bind (values rfl)
      intro given _ _
      apply Meets.bind (calls callee arguments given rfl)
      intro _ _ _
      exact answer_computes nofun
  | standard function arguments =>
      unfold meaningOf
      dsimp only
      split
      next => exact refuse_computes nofun
      next =>
        apply Meets.bind (values rfl)
        intro _ _ _
        exact answer_computes nofun

/-- A node that is available is computed, by induction on the way in which it is spelled out. -/
theorem meaning_computes (prepared : activation.Prepared) (provides : frame.Provides bound)
    {index : Nat} (ready : Ready activation.recorded.expressions bound index) :
    ∀ node : Node, node.index = index → Computes (activation.meaning frame node) Anything := by
  induction ready with
  | bound available =>
      rintro node rfl
      rcases provides node.index available with ⟨meaning, known⟩
      rw [meaning_of_bound known]
      exact .ok trivial
  | @inlined index entry found inlined _ _ operands =>
      rintro node rfl
      cases state : frame.meanings[node.index]?.join with
      | some meaning =>
          rw [meaning_of_bound state]
          exact .ok trivial
      | none =>
          rw [meaning_of_inlined prepared.ordered state found inlined]
          apply meaningOf_computes
          · exact fun operand member => operands operand member operand rfl
          · exact fun number => prepared.arguments node.index entry number found
          · intro callee arguments values same
            rw [ExpressionEntry.isInlined, same] at inlined
            cases inlined

variable (prepared : activation.Prepared) (provides : frame.Provides bound)

include prepared provides

theorem value_computes {node : Node}
    (ready : Ready activation.recorded.expressions bound node.index) :
    Computes (activation.value frame node) Anything := by
  apply Meets.bind (meaning_computes prepared provides ready node rfl)
  intro meaning _ _
  exact valueOf_computes meaning

theorem scalar_computes {node : Node}
    (ready : Ready activation.recorded.expressions bound node.index) :
    Computes (activation.scalar frame node) Anything := by
  apply Meets.bind (value_computes prepared provides ready)
  intro _ _ _
  exact require_computes .notScalar nofun

theorem truth_computes {node : Node}
    (ready : Ready activation.recorded.expressions bound node.index) :
    Computes (activation.truth frame node) Anything := by
  apply Meets.bind (scalar_computes prepared provides ready)
  intro scalar _ _
  cases scalar with
  | bool truth => exact .ok trivial
  | _ => exact refuse_computes nofun

/-! ## Statements -/

theorem bind_computes {call : Callee} {node : Node}
    (room : frame.meanings.size = activation.recorded.expressions.size)
    (calls : ∀ callee values, Computes (call callee values) Anything)
    (checked : (Statement.emit node).Checked activation.inventory inLoop bound) :
    Computes (activation.bind frame call node) fun after =>
      frame.Continues after ∧ after.Binds node.index := by
  simp only [Statement.Checked] at checked
  rcases checked with ⟨entry, found, _, ready⟩
  change activation.recorded.entry? node = some entry at found
  have inside : node.index < frame.meanings.size := by
    rw [room]
    exact (Array.getElem?_eq_some_iff.mp found).1
  unfold Activation.bind
  rw [found]
  apply Meets.bind (meaningOf_computes
    (fun operand member => meaning_computes prepared provides (ready operand member) operand rfl)
    (fun number => prepared.arguments node.index entry number found)
    fun callee _ values _ => calls callee values)
  intro meaning _ _
  have lookup := frame.join_withMeaning meaning inside
  refine .ok ⟨⟨Array.size_setIfInBounds, ?_⟩, meaning, ?_⟩
  · rintro other ⟨old, bound⟩
    change (frame.withMeaning node.index meaning).Binds other
    rw [Frame.Binds, lookup]
    split
    next => exact ⟨meaning, rfl⟩
    next => exact ⟨old, bound⟩
  · exact (lookup node.index).trans (if_pos rfl)

theorem store_computes {target : Node} (new : HostValue)
    (ready : Ready activation.recorded.expressions bound target.index) :
    Computes (activation.store frame target new) frame.Continues := by
  apply Meets.bind (meaning_computes prepared provides ready target rfl)
  intro meaning _ _
  cases meaning with
  | value value => exact refuse_computes nofun
  | place index path =>
      apply Meets.bind (require_computes .storePath nofun)
      intro whole _ _
      apply Meets.bind (require_computes .storePath nofun)
      intro replaced _ _
      exact .ok (frame.continues_setVariable index replaced)

end Activation

/-! ## Blocks -/

abbrev Keeping (before : Frame) (result : Frame × Flow) : Prop :=
  before.Continues result.1

section

variable {activation : Activation} {bound : List Binder}

def RoundsCompute (activation : Activation) (bound : List Binder)
    (round : Frame → Evaluation (Frame × Flow)) : Prop :=
  ∀ frame : Frame, frame.meanings.size = activation.recorded.expressions.size →
    frame.Provides bound → Computes (round frame) (Keeping frame)

variable {round : Frame → Evaluation (Frame × Flow)} {frame : Frame}

theorem repeatRounds_computes (rounds : RoundsCompute activation bound round) (count : Nat)
    (room : frame.meanings.size = activation.recorded.expressions.size)
    (provides : frame.Provides bound) :
    Computes (Activation.repeatRounds round count frame) (Keeping frame) := by
  induction count generalizing frame with
  | zero => exact trivial
  | succ count induction =>
      apply Meets.bind (rounds frame room provides)
      rintro ⟨after, flow⟩ _ continues
      dsimp only
      split
      next => exact .ok continues
      next =>
        apply (induction (continues.room.trans room) (provides.keep continues.keeps)).imp
        exact fun _ later => continues.trans later

theorem countRounds_computes (rounds : RoundsCompute activation bound round) (counter : Nat)
    (limit : Scalar) (count : Nat) (current : Scalar)
    (room : frame.meanings.size = activation.recorded.expressions.size)
    (provides : frame.Provides bound) :
    Computes (activation.countRounds round counter limit count current frame)
      (Keeping frame) := by
  induction count generalizing frame current with
  | zero => exact trivial
  | succ count induction =>
      have counts := frame.continues_setVariable counter (.scalar current)
      unfold Activation.countRounds
      dsimp only
      split
      next => exact .ok counts
      next =>
        apply Meets.bind (rounds _ (counts.room.trans room) (provides.keep counts.keeps))
        rintro ⟨after, flow⟩ _ round
        have continues := counts.trans round
        dsimp only
        split
        next => exact .ok continues
        next =>
          apply Meets.bind (Activation.require_computes .loopIncrement nofun)
          intro following _ _
          apply (induction following (continues.room.trans room)
            (provides.keep continues.keeps)).imp
          exact fun _ later => continues.trans later

end

mutual
theorem Statement.run_computes {activation : Activation} {call : Callee} {fuel : Nat}
    (prepared : activation.Prepared)
    (calls : ∀ callee values, Computes (call callee values) Anything) :
    ∀ {statement : Statement} {bound : List Binder} {inLoop : Prop} {frame : Frame},
      frame.meanings.size = activation.recorded.expressions.size → frame.Provides bound →
      statement.Checked activation.inventory inLoop bound →
        Computes (statement.run activation call fuel frame) fun result =>
          Keeping frame result ∧ (result.2 = .next → result.1.Provides (bound ++ statement.binds))
  | .emit node, bound, inLoop, frame, room, provides, checked => by
      apply Meets.bind (Activation.bind_computes prepared provides room calls checked)
      rintro after _ ⟨continues, binds⟩
      exact .ok ⟨continues, fun _ => (provides.keep continues.keeps).node binds⟩
  | .declare index initial, bound, inLoop, frame, room, provides, checked => by
      simp only [Statement.Checked] at checked
      rcases checked with ⟨declared, known, operand⟩
      have given : Computes (activation.initialValue frame index initial) Anything := by
        cases initial with
        | some node => exact Activation.value_computes prepared provides (operand node rfl).ready
        | none =>
            rw [Activation.initialValue_none known]
            exact .ok trivial
      apply Meets.bind given
      intro value _ _
      exact .ok ⟨frame.continues_setVariable index value, fun _ => provides.variable index⟩
  | .store target source, bound, inLoop, frame, room, provides, checked => by
      simp only [Statement.Checked] at checked
      rcases checked with ⟨_, _, usable, operand⟩
      apply Meets.bind (Activation.value_computes prepared provides operand.ready)
      intro value _ _
      apply Meets.bind (Activation.store_computes prepared provides value usable.ready)
      intro after _ continues
      exact .ok ⟨continues, fun _ => (provides.keep continues.keeps).unbound rfl⟩
  | .callVoid callee arguments, bound, inLoop, frame, room, provides, checked => by
      simp only [Statement.Checked] at checked
      rcases checked with ⟨_, _, operands⟩
      apply Meets.bind (mapM_computes fun argument member => by
        rcases exists_right_of_mem operands member with ⟨_, operand⟩
        exact Activation.value_computes prepared provides operand.ready)
      intro values _ _
      apply Meets.bind (calls callee values).discard
      intro _ _ _
      exact .ok ⟨.refl frame, fun _ => provides.unbound rfl⟩
  | .branch condition accept reject, bound, inLoop, frame, room, provides, checked => by
      simp only [Statement.Checked] at checked
      rcases checked with ⟨operand, acceptChecked, rejectChecked⟩
      apply Meets.bind (Activation.truth_computes prepared provides operand.ready)
      intro truth _ _
      cases truth with
      | true =>
          apply (runBlock_computes prepared calls room provides acceptChecked).imp
          intro result continues
          exact ⟨continues, fun _ => (provides.keep continues.keeps).unbound rfl⟩
      | false =>
          apply (runBlock_computes prepared calls room provides rejectChecked).imp
          intro result continues
          exact ⟨continues, fun _ => (provides.keep continues.keeps).unbound rfl⟩
  | .loop body, bound, inLoop, frame, room, provides, checked => by
      simp only [Statement.Checked] at checked
      have rounds : RoundsCompute activation bound (runBlock activation call fuel · body) :=
        fun frame room provides => runBlock_computes prepared calls room provides checked
      apply (repeatRounds_computes rounds fuel room provides).imp
      intro result continues
      exact ⟨continues, fun _ => (provides.keep continues.keeps).unbound rfl⟩
  | .range counter first last body, bound, inLoop, frame, room, provides, checked => by
      simp only [Statement.Checked] at checked
      rcases checked with ⟨declared, known, integer, firstOperand, lastOperand, bodyChecked⟩
      have rounds : RoundsCompute activation bound (runBlock activation call fuel · body) :=
        fun frame room provides =>
          runBlock_computes prepared calls room (provides.variable counter) bodyChecked
      cases typed : declared.type with
      | scalar kind =>
          rw [typed] at firstOperand lastOperand
          apply Meets.bind (Activation.scalar_computes prepared provides lastOperand.ready)
          intro limit _ _
          apply Meets.bind (Activation.scalar_computes prepared provides firstOperand.ready)
          intro start _ _
          apply (countRounds_computes rounds counter limit fuel start room provides).imp
          intro result continues
          exact ⟨continues, fun _ => (provides.keep continues.keeps).unbound rfl⟩
      | _ =>
          rw [typed] at integer
          cases integer
  | .leaveLoop, bound, inLoop, frame, room, provides, checked =>
      .ok ⟨.refl frame, nofun⟩
  | .nextRound, bound, inLoop, frame, room, provides, checked =>
      .ok ⟨.refl frame, nofun⟩
  | .giveBack none, bound, inLoop, frame, room, provides, checked =>
      .ok ⟨.refl frame, nofun⟩
  | .giveBack (some node), bound, inLoop, frame, room, provides, checked => by
      simp only [Statement.Checked] at checked
      rcases checked with ⟨_, _, operand⟩
      apply Meets.bind (Activation.value_computes prepared provides operand.ready)
      intro value _ _
      exact .ok ⟨.refl frame, nofun⟩
  | .discard, bound, inLoop, frame, room, provides, checked =>
      Activation.refuse_computes nofun

theorem runBlock_computes {activation : Activation} {call : Callee} {fuel : Nat}
    (prepared : activation.Prepared)
    (calls : ∀ callee values, Computes (call callee values) Anything) :
    ∀ {block : List Statement} {bound : List Binder} {inLoop : Prop} {frame : Frame},
      frame.meanings.size = activation.recorded.expressions.size → frame.Provides bound →
      BlockChecked activation.inventory inLoop bound block →
        Computes (runBlock activation call fuel frame block) (Keeping frame)
  | [], bound, inLoop, frame, room, provides, checked => .ok (.refl frame)
  | statement :: rest, bound, inLoop, frame, room, provides, checked => by
      simp only [BlockChecked] at checked
      apply Meets.bind (Statement.run_computes prepared calls room provides checked.1)
      rintro ⟨after, flow⟩ _ ⟨continues, provided⟩
      cases flow with
      | next =>
          apply (runBlock_computes prepared calls (continues.room.trans room) (provided rfl)
            checked.2).imp
          exact fun _ later => continues.trans later
      | leaveLoop | nextRound | giveBack value => exact .ok continues
end

/-! ## Functions -/

theorem HostValue.canonical_error {value : HostValue} {type : TypeDescriptor} {error : ShaderError}
    (failed : value.canonical type = .error error) : error.Computed := by
  unfold canonical at failed
  split at failed
  next =>
    cases failed
    exact nofun
  next =>
    split at failed
    next =>
      cases failed
      exact nofun
    next => cases failed

theorem canonicalArguments_cases (arguments : List HostValue) (parameters : List Parameter)
    (counted : arguments.length = parameters.length) :
    (∃ values, canonicalArguments arguments parameters = .ok values ∧
      values.length = parameters.length) ∨
    ∃ error, canonicalArguments arguments parameters = .error error ∧ error.Computed := by
  induction arguments generalizing parameters with
  | nil =>
      cases parameters with
      | nil => exact .inl ⟨[], rfl, rfl⟩
      | cons parameter parameters => cases counted
  | cons argument arguments induction =>
      cases parameters with
      | nil => cases counted
      | cons parameter parameters =>
          rw [canonicalArguments]
          cases first : argument.canonical parameter.type with
          | error error => exact .inr ⟨error, rfl, HostValue.canonical_error first⟩
          | ok value =>
              rcases induction parameters (Nat.succ.inj counted) with
                ⟨values, given, length⟩ | ⟨error, failed, computed⟩
              · rw [given]
                exact .inl ⟨value :: values, rfl, congrArg Nat.succ length⟩
              · rw [failed]
                exact .inr ⟨error, rfl, computed⟩

theorem RecordedFunction.Sound.prepared {recorded : RecordedFunction} {context : TraceContext}
    {values : List HostValue} (sound : recorded.Sound context)
    (counted : values.length = recorded.signature.parameters.length) :
    Activation.Prepared ⟨context, recorded, values⟩ where
  ordered index entry found := (sound.entries index entry found).earlier
  arguments index entry number found same := by
    rcases entry with ⟨expression, type, reference, scope⟩
    dsimp only at same
    subst same
    cases (sound.entries index _ found).types with
    | parameter declared =>
        change number < values.length
        rw [counted]
        exact (List.getElem?_eq_some_iff.mp declared).1

/-- Evaluating a recorded function never reads a value before it was computed, by induction on
the bound on rounds and depth. -/
theorem TraceContext.Sound.evaluate_computes {program : Program} {context : TraceContext}
    (sound : context.Sound program) (fuel : Nat) : ∀ {recorded : RecordedFunction},
    recorded.Sound context → ∀ arguments : List HostValue,
      Computes (recorded.evaluate context fuel arguments) Anything := by
  induction fuel with
  | zero => exact fun _ _ => trivial
  | succ fuel induction =>
      intro recorded recordedSound arguments
      rw [RecordedFunction.evaluate_succ, RecordedFunction.accept]
      split
      next => rintro _ ⟨⟩
      next block body =>
        dsimp only
        split
        next => rintro _ ⟨⟩
        next counted =>
          rcases canonicalArguments_cases arguments recorded.signature.parameters
            (Decidable.not_not.mp counted) with ⟨values, given, length⟩ | ⟨error, failed, computed⟩
          · rw [given]
            have calls (callee : FunctionId) (values : List HostValue) :
                Computes (Activation.callee ⟨context, recorded, values⟩ fuel callee values)
                  Anything := by
              unfold Activation.callee
              split
              next =>
                apply Activation.refuse_computes
                rintro ⟨⟩
              next other found => exact induction (sound.finished callee other found).2 values
            have room : recorded.frame.meanings.size = recorded.expressions.size :=
              Array.size_replicate
            have ran := @runBlock_computes ⟨context, recorded, values⟩ _ fuel
              (recordedSound.prepared length) calls block [] False recorded.frame room
              (fun _ impossible => absurd impossible List.not_mem_nil)
              (recordedSound.checked block body)
            apply Meets.bind ran
            intro _ _ _
            exact .ok trivial
          · rw [failed]
            exact computed

end ShaderKit
