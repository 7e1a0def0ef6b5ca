import ShaderKit.Proofs.Codec.Restoring
import ShaderKit.Proofs.Host.Fuel
import ShaderKit.Proofs.Host.RangeLoops
import ShaderKit.Proofs.Host.Renumbering
import ShaderKit.Proofs.Host.Safety
import ShaderKit.Proofs.Recording.CallTree

/-!
# Evaluations without unconditional loops end

A function from which no unconditional loop is reached ends on every list of arguments. Nodes are
spelled out downwards along their indices, blocks are finite, a range loop has fewer rounds than
its integers have values, and a call leads to a function that was finished before.
-/

namespace ShaderKit

/-! ## Evaluations that are not cut off -/

/-- An evaluation that is not cut off, and gives what is described if it gives anything. -/
def Evaluation.Ends {α : Type} (work : Evaluation α) (post : α → Prop) : Prop :=
  match work with
  | .ok result => post result
  | .error (.failed _) => True
  | .error .outOfFuel => False

namespace Evaluation.Ends

variable {α β : Type} {work : Evaluation α} {next : α → Evaluation β} {middle other : α → Prop}
  {post : β → Prop}

theorem ok {value : α} (holds : middle value) : Ends (.ok value) middle :=
  holds

theorem failed {error : ShaderError} : Ends (.error (.failed error)) middle :=
  trivial

theorem notCut (ends : Ends work middle) : work ≠ .error .outOfFuel := by
  rintro rfl
  exact ends

theorem meets (ends : Ends work middle) : Meets work (fun _ => True) middle := by
  match work, ends with
  | .ok _, holds => exact holds
  | .error (.failed _), _ => trivial

theorem of_ok (ends : Ends work Anything) (holds : ∀ value, work = .ok value → middle value) :
    Ends work middle := by
  match work, ends with
  | .ok value, _ => exact holds value rfl
  | .error (.failed _), _ => trivial

theorem anything (ends : Ends work middle) : Ends work Anything := by
  match work, ends with
  | .ok _, _ => trivial
  | .error (.failed _), _ => trivial

theorem bind (first : Ends work middle)
    (rest : ∀ value, work = .ok value → middle value → Ends (next value) post) :
    Ends (work >>= next) post := by
  match work, first with
  | .ok value, holds => exact rest value rfl holds
  | .error (.failed _), _ => trivial

theorem andThen (first : Ends work Anything) (rest : ∀ value, Ends (next value) post) :
    Ends (work >>= next) post :=
  first.bind fun value _ _ => rest value

theorem discard (ends : Ends work Anything) : Ends (discard work) Anything := by
  match work, ends with
  | .ok _, _ => trivial
  | .error (.failed _), _ => trivial

theorem mapM {items : List α} {work : α → Evaluation β}
    (each : ∀ item ∈ items, Ends (work item) Anything) : Ends (items.mapM work) Anything := by
  induction items with
  | nil => exact .ok trivial
  | cons item rest induction =>
      rw [List.mapM_cons]
      apply (each item List.mem_cons_self).andThen
      intro result
      apply (induction fun other member => each other (List.mem_cons_of_mem _ member)).andThen
      exact fun _ => .ok trivial

end Evaluation.Ends

open Evaluation

/-! ## Expressions -/

namespace Activation

variable {activation : Activation} {frame : Frame}

theorem require_ends {α : Type} (fault : HostFault) (answer : Option α) :
    Ends (activation.require fault answer) Anything := by
  cases answer with
  | none => exact .failed
  | some answer => exact .ok trivial

theorem answer_ends (fault : HostFault) (result : Option HostValue) :
    Ends ((activation.require fault result).map Meaning.value) Anything := by
  cases result with
  | none => exact .failed
  | some value => exact .ok trivial

theorem valueOf_ends (meaning : Meaning) : Ends (activation.valueOf frame meaning) Anything := by
  cases meaning with
  | value value => exact .ok trivial
  | place index path => exact require_ends _ _

theorem positionOf_ends (value : HostValue) : Ends (activation.positionOf value) Anything := by
  unfold positionOf
  split
  next => exact .ok trivial
  next =>
    split
    next => exact .failed
    next => exact .ok trivial
  next => exact .failed
  next => exact .failed

theorem project_ends (segment : PathSegment) (meaning : Meaning) :
    Ends (activation.project segment meaning) Anything := by
  cases meaning with
  | place index path => exact .ok trivial
  | value value => exact (require_ends _ _).andThen fun _ => .ok trivial

theorem meaningOf_ends {operand : Node → Evaluation Meaning} {call : Callee}
    {entry : ExpressionEntry}
    (operands : ∀ node ∈ entry.expression.operands, Ends (operand node) Anything)
    (calls : ∀ callee arguments values, entry.expression = .call callee arguments →
      Ends (call callee values) Anything) :
    Ends (activation.meaningOf frame operand call entry) Anything := by
  rcases entry with ⟨expression, type, reference, scope⟩
  dsimp only at operands calls
  have value {node : Node} (member : node ∈ expression.operands) :
      Ends (operand node >>= activation.valueOf frame) Anything :=
    (operands node member).andThen valueOf_ends
  have values {nodes : List Node} (made : expression.operands = nodes) :
      Ends (nodes.mapM fun node => operand node >>= activation.valueOf frame) Anything :=
    .mapM fun node member => value (made ▸ member)
  cases expression with
  | parameter | constant => exact answer_ends _ _
  | literal | localVariable | zero => exact .ok trivial
  | binding => exact .failed
  | load source => exact (value List.mem_cons_self).andThen fun _ => .ok trivial
  | compose arguments | helper _ arguments => exact (values rfl).andThen fun _ => answer_ends _ _
  | unary _ source | convert source =>
      exact (value List.mem_cons_self).andThen fun _ => answer_ends _ _
  | binary _ left right =>
      apply (value List.mem_cons_self).andThen
      intro _
      apply (value (List.mem_cons_of_mem _ List.mem_cons_self)).andThen
      exact fun _ => answer_ends _ _
  | member base position =>
      apply (require_ends _ _).andThen
      intro _
      exact (operands base List.mem_cons_self).andThen (project_ends _)
  | index base position =>
      apply (value (List.mem_cons_of_mem _ List.mem_cons_self)).andThen
      intro given
      apply (positionOf_ends given).andThen
      intro _
      exact (operands base List.mem_cons_self).andThen (project_ends _)
  | swizzle source components =>
      have picked : Ends (operand source >>= activation.valueOf frame >>= fun value =>
          (activation.require .swizzle (pick components value)).map Meaning.value) Anything :=
        (value List.mem_cons_self).andThen fun _ => answer_ends _ _
      match components with
      | [component] => exact (operands source List.mem_cons_self).andThen (project_ends _)
      | [] | _ :: _ :: _ => exact picked
  | call callee arguments =>
      apply (values rfl).andThen
      intro given
      exact (calls callee arguments given rfl).andThen fun _ => answer_ends _ _
  | standard function arguments =>
      unfold meaningOf
      dsimp only
      split
      next => exact .failed
      next => exact (values rfl).andThen fun _ => answer_ends _ _

/-- What is spelled out contains no call. -/
theorem meaningWithin_ends (depth : Nat) (node : Node) :
    Ends (activation.meaningWithin frame depth node) Anything := by
  induction depth generalizing node with
  | zero => exact .failed
  | succ depth induction =>
      unfold meaningWithin
      split
      next => exact .ok trivial
      next =>
        split
        next => exact .failed
        next =>
          split
          next => exact meaningOf_ends (fun operand _ => induction operand) fun _ _ _ _ => .failed
          next => exact .failed

theorem value_ends (node : Node) : Ends (activation.value frame node) Anything :=
  (meaningWithin_ends _ node).andThen valueOf_ends

theorem scalar_ends (node : Node) : Ends (activation.scalar frame node) Anything :=
  (value_ends node).andThen fun _ => require_ends _ _

theorem truth_ends (node : Node) : Ends (activation.truth frame node) Anything := by
  apply (scalar_ends node).andThen
  intro scalar
  cases scalar with
  | bool truth => exact .ok trivial
  | _ => exact .failed

end Activation

/-! ## Runs of statements -/

/-- The body of a recording calls a function, for a result or for none. -/
inductive RecordedFunction.Invokes (recorded : RecordedFunction) (callee : FunctionId) : Prop where
  | call {entry : ExpressionEntry} {arguments : List Node} (member : entry ∈ recorded.expressions)
      (called : entry.expression = .call callee arguments) : Invokes recorded callee
  | statement {block : Block} (body : recorded.body = .statements block)
      (called : callee ∈ blockCalls block) : Invokes recorded callee

theorem RecordedFunction.Invokes.refers {recorded : RecordedFunction} {callee : FunctionId}
    (invokes : recorded.Invokes callee) : recorded.Refers callee := by
  cases invokes with
  | call member called => exact .call member called
  | statement body called => exact .statement body called

/-- The end of a run: a frame in which everything has its type, and an answer of the result type
if one is given back. -/
structure Activation.Settled (activation : Activation) (result : Frame × Flow) : Prop where
  sound : result.1.Sound activation
  giveBack (value : Option HostValue) :
    result.2 = .giveBack value → activation.recorded.signature.Answers value

/-- A run of a function whose calls end, with enough rounds for all integers. -/
structure Activation.Bounded (activation : Activation) (program : Program) (call : Callee)
    (rounds : Nat) : Prop where
  sound : activation.Sound program
  calls (callee : FunctionId) (recorded : RecordedFunction) (values : List HostValue) :
    activation.recorded.Invokes callee → activation.context.find? callee = some recorded →
      Ends (call callee values) recorded.signature.Answers
  enough : UInt32.size ≤ rounds

namespace Activation

variable {activation : Activation} {program : Program} {call : Callee} {rounds : Nat}
  {frame : Frame} {node : Node} {type : TypeDescriptor}

theorem Settled.next (sound : frame.Sound activation) : activation.Settled (frame, .next) :=
  ⟨sound, nofun⟩

theorem Settled.afterRound {result : Frame × Flow} {ending : Flow}
    (settled : activation.Settled result) (ends : Activation.afterRound result.2 = some ending) :
    activation.Settled (result.1, ending) := by
  refine ⟨settled.sound, ?_⟩
  rintro value rfl
  apply settled.giveBack value
  cases flow : result.2 with
  | next | nextRound | leaveLoop =>
      rw [flow] at ends
      cases ends
  | giveBack other =>
      rw [flow] at ends
      cases ends
      rfl

/-! ### Typed operands -/

section

variable (sound : activation.Sound program) (frameSound : frame.Sound activation)
include sound frameSound

theorem meaning_typed {reference : Option Reference}
    (known : activation.inventory.At node type reference) :
    Ends (activation.meaning frame node) (activation.Describes type reference) := by
  have provides : frame.Provides [] := fun _ impossible => nomatch impossible
  apply Ends.of_ok (meaningWithin_ends _ node)
  intro meaning ran
  exact (meaning_meets sound frameSound provides known).of_eq_ok ran

theorem value_typed (known : activation.inventory.ValueAt node type) :
    Ends (activation.value frame node) (HasType type) := by
  apply Ends.of_ok (value_ends node)
  intro value ran
  exact (value_meets (meaning_typed sound frameSound known).meets).of_eq_ok ran

theorem scalar_typed {kind : ScalarKind}
    (known : activation.inventory.ValueAt node (.scalar kind)) :
    Ends (activation.scalar frame node) fun value => value.kind = kind :=
  .of_ok (scalar_ends node) fun _ ran => kind_of_scalar sound frameSound known ran

theorem store_typed {target : Node} {reference : Option Reference} {new : HostValue}
    (known : activation.inventory.At target type reference) (typed : HasType type new) :
    Ends (activation.store frame target new) fun after => after.Sound activation := by
  apply (meaning_typed sound frameSound known).bind
  intro meaning _ described
  cases meaning with
  | value value => exact .failed
  | place index path =>
      dsimp only
      cases cell : frame.cells[index]? with
      | none => exact .failed
      | some whole =>
          change Ends (activation.require .storePath (HostValue.setAt? new whole path) >>= _) _
          cases done : HostValue.setAt? new whole path with
          | none => exact .failed
          | some replaced => exact .ok (frameSound.store described cell typed done)

end

/-! ### Statements -/

theorem bind_ends (bounded : activation.Bounded program call rounds)
    (frameSound : frame.Sound activation) {entry : ExpressionEntry}
    (found : activation.recorded.entry? node = some entry) :
    Ends (activation.bind frame call node) fun after => after.Sound activation := by
  have sound := bounded.sound
  have types := (sound.recorded.entries node.index entry found).types
  have invokes (callee : FunctionId) (arguments : List Node)
      (same : entry.expression = .call callee arguments) : activation.recorded.Invokes callee :=
    .call (Array.mem_of_getElem? found) same
  have ends : Ends (activation.meaningOf frame (activation.meaning frame) call entry) Anything := by
    apply meaningOf_ends fun operand _ => meaningWithin_ends _ operand
    intro callee arguments values same
    have invokes := invokes callee arguments same
    rw [same] at types
    obtain ⟨recorded, finished, _⟩ := types.of_call
    exact (bounded.calls callee recorded values invokes finished).anything
  have described : Meets (activation.meaningOf frame (activation.meaning frame) call entry)
      (fun _ => True) (activation.Describes entry.type entry.reference) := by
    apply meaningOf_meets sound frameSound types
    · intro operand _ type reference known
      exact (meaning_typed sound frameSound known).meets
    · exact fun _ _ => trivial
    · intro callee arguments recorded values type same finished _ _ result
      have invokes := invokes callee arguments same
      exact (bounded.calls callee recorded values invokes finished).meets.imp fun _ answers =>
        answers.yields result
  unfold Activation.bind
  rw [found]
  apply Ends.bind ends
  intro meaning ran _
  exact .ok (frameSound.withMeaning found (described.of_eq_ok ran)).1

theorem visitEach_ends {round : Frame → Evaluation (Frame × Flow)} {counter : Nat}
    {declared : LocalVariable} {final : Scalar} {values : List Scalar}
    (known : activation.recorded.locals[counter]? = some declared)
    (finalTyped : HasType declared.type (.scalar final))
    (typed : ∀ value ∈ values, HasType declared.type (.scalar value))
    (each : ∀ frame : Frame, frame.Sound activation → Ends (round frame) activation.Settled)
    (frameSound : frame.Sound activation) :
    Ends (visitEach round counter final values frame) activation.Settled := by
  induction values generalizing frame with
  | nil => exact .ok (.next (frameSound.setVariable known finalTyped))
  | cons value rest induction =>
      apply (each _ (frameSound.setVariable known (typed value List.mem_cons_self))).bind
      rintro ⟨after, flow⟩ _ settled
      dsimp only
      split
      next ending ends => exact .ok (settled.afterRound ends)
      next =>
        exact induction (fun other member => typed other (List.mem_cons_of_mem _ member))
          settled.sound

end Activation

namespace Scalar

theorem distance_lt {start bound : Scalar} (isInteger : start.kind.isInteger = true)
    (same : bound.kind = start.kind) : (bound.integer - start.integer).toNat < UInt32.size := by
  cases start with
  | i32 low =>
      cases bound with
      | i32 high =>
          have lowLeast := low.le_toInt
          have highGreatest := high.toInt_lt
          simp only [integer, UInt32.size]
          omega
      | _ => cases same
  | u32 low =>
      cases bound with
      | u32 high =>
          have highGreatest := high.toNat_lt
          simp only [integer, UInt32.size]
          omega
      | _ => cases same
  | _ => cases isInteger

theorem kind_countEnd {start bound : Scalar} (same : bound.kind = start.kind) :
    (start.countEnd bound).kind = start.kind := by
  unfold countEnd
  split
  next => exact same
  next => rfl

end Scalar

def Statement.isLoop : Statement → Bool
  | .loop _ => true
  | _ => false

mutual
theorem Statement.run_ends {activation : Activation} {program : Program} {call : Callee}
    {rounds : Nat} (bounded : activation.Bounded program call rounds) :
    ∀ {statement : Statement} {bound : List Binder} {inLoop : Prop} {frame : Frame},
      frame.Sound activation → statement.Checked activation.inventory inLoop bound →
      (∀ callee ∈ statement.calls, activation.recorded.Invokes callee) →
      (∀ inner ∈ statement.all, inner.isLoop = false) →
        Ends (statement.run activation call rounds frame) activation.Settled
  | .emit node, bound, inLoop, frame, frameSound, checked, _, _ => by
      simp only [Statement.Checked] at checked
      obtain ⟨entry, found, _⟩ := checked
      apply (Activation.bind_ends bounded frameSound found).bind
      exact fun after _ afterSound => .ok (.next afterSound)
  | .declare index initial, bound, inLoop, frame, frameSound, checked, _, _ => by
      simp only [Statement.Checked] at checked
      obtain ⟨declared, known, operand⟩ := checked
      have given : Ends (activation.initialValue frame index initial) (HasType declared.type) := by
        cases initial with
        | some node =>
            exact Activation.value_typed bounded.sound frameSound (operand node rfl).known
        | none =>
            rw [Activation.initialValue_none known]
            exact .ok (hasType_zero declared.type)
      apply given.bind
      exact fun value _ typed => .ok (.next (frameSound.setVariable known typed))
  | .store target source, bound, inLoop, frame, frameSound, checked, _, _ => by
      simp only [Statement.Checked] at checked
      obtain ⟨type, reference, usable, operand⟩ := checked
      apply (Activation.value_typed bounded.sound frameSound operand.known).bind
      intro value _ typed
      apply (Activation.store_typed bounded.sound frameSound usable.known typed).bind
      exact fun after _ afterSound => .ok (.next afterSound)
  | .callVoid callee arguments, bound, inLoop, frame, frameSound, checked, invokes, _ => by
      simp only [Statement.Checked] at checked
      obtain ⟨recorded, known, _⟩ := checked
      apply Ends.andThen (.mapM fun node _ => Activation.value_ends node)
      intro values
      have called := bounded.calls callee recorded values (invokes callee List.mem_cons_self) known
      exact called.anything.discard.andThen fun _ => .ok (.next frameSound)
  | .branch condition accept reject, bound, inLoop, frame, frameSound, checked, invokes,
      loopless => by
      simp only [Statement.Checked] at checked
      obtain ⟨_, acceptChecked, rejectChecked⟩ := checked
      apply (Activation.truth_ends condition).andThen
      intro held
      split
      next =>
        apply runBlock_ends bounded frameSound acceptChecked
        · exact fun callee called => invokes callee (List.mem_append_left _ called)
        · exact fun inner inside =>
            loopless inner (List.mem_cons_of_mem _ (List.mem_append_left _ inside))
      next =>
        apply runBlock_ends bounded frameSound rejectChecked
        · exact fun callee called => invokes callee (List.mem_append_right _ called)
        · exact fun inner inside =>
            loopless inner (List.mem_cons_of_mem _ (List.mem_append_right _ inside))
  | .loop body, bound, inLoop, frame, frameSound, checked, _, loopless =>
      absurd (loopless (.loop body) List.mem_cons_self) (by simp [Statement.isLoop])
  | .range counter first last body, bound, inLoop, frame, frameSound, checked, invokes,
      loopless => by
      simp only [Statement.Checked] at checked
      obtain ⟨declared, known, isInteger, firstOperand, lastOperand, bodyChecked⟩ := checked
      have each (frame : Frame) (frameSound : frame.Sound activation) :
          Ends (runBlock activation call rounds frame body) activation.Settled :=
        runBlock_ends bounded frameSound bodyChecked invokes fun inner inside =>
          loopless inner (List.mem_cons_of_mem _ inside)
      cases typed : declared.type with
      | scalar kind =>
          rw [typed] at isInteger firstOperand lastOperand
          apply (Activation.scalar_typed bounded.sound frameSound lastOperand.known).bind
          intro limit _ limitKind
          apply (Activation.scalar_typed bounded.sound frameSound firstOperand.known).bind
          rintro start _ rfl
          have fits {value : Scalar} (same : value.kind = start.kind) :
              HasType declared.type (.scalar value) := by
            rw [typed]
            exact hasType_scalar.mpr ⟨value, rfl, same⟩
          -- there are more rounds than integers, so counting is not cut off
          have enough := Nat.lt_of_lt_of_le (Scalar.distance_lt isInteger limitKind) bounded.enough
          rw [Activation.countRounds_eq isInteger limitKind enough]
          apply Activation.visitEach_ends known (fits (Scalar.kind_countEnd limitKind)) _ each
            frameSound
          intro value visited
          exact fits ((Scalar.upTo_exact isInteger limitKind).2 value visited).1
      | _ =>
          rw [typed] at isInteger
          cases isInteger
  | .leaveLoop, bound, inLoop, frame, frameSound, checked, _, _ => .ok ⟨frameSound, nofun⟩
  | .nextRound, bound, inLoop, frame, frameSound, checked, _, _ => .ok ⟨frameSound, nofun⟩
  | .giveBack none, bound, inLoop, frame, frameSound, checked, _, _ => by
      simp only [Statement.Checked] at checked
      refine .ok ⟨frameSound, ?_⟩
      rintro value ⟨⟩
      exact Signature.answers_none checked
  | .giveBack (some node), bound, inLoop, frame, frameSound, checked, _, _ => by
      simp only [Statement.Checked] at checked
      obtain ⟨type, result, operand⟩ := checked
      apply (Activation.value_typed bounded.sound frameSound operand.known).bind
      intro value _ typed
      refine .ok ⟨frameSound, ?_⟩
      rintro answer ⟨⟩
      exact Signature.answers_some result typed
  | .discard, bound, inLoop, frame, frameSound, checked, _, _ => .failed

theorem runBlock_ends {activation : Activation} {program : Program} {call : Callee}
    {rounds : Nat} (bounded : activation.Bounded program call rounds) :
    ∀ {block : List Statement} {bound : List Binder} {inLoop : Prop} {frame : Frame},
      frame.Sound activation → BlockChecked activation.inventory inLoop bound block →
      (∀ callee ∈ blockCalls block, activation.recorded.Invokes callee) →
      (∀ inner ∈ blockAll block, inner.isLoop = false) →
        Ends (runBlock activation call rounds frame block) activation.Settled
  | [], bound, inLoop, frame, frameSound, checked, _, _ => .ok (.next frameSound)
  | statement :: rest, bound, inLoop, frame, frameSound, checked, invokes, loopless => by
      simp only [BlockChecked] at checked
      have first := Statement.run_ends bounded frameSound checked.1
        (fun callee called => invokes callee (List.mem_append_left _ called))
        (fun inner inside => loopless inner (List.mem_append_left _ inside))
      apply first.bind
      rintro ⟨after, flow⟩ _ settled
      cases flow with
      | next =>
          exact runBlock_ends bounded settled.sound checked.2
            (fun callee called => invokes callee (List.mem_append_right _ called))
            (fun inner inside => loopless inner (List.mem_append_right _ inside))
      | leaveLoop | nextRound | giveBack => exact .ok settled
end

/-! ## Arguments that are accepted -/

theorem HostValue.hasType_of_canonical {value canonical : HostValue} {type : TypeDescriptor}
    (found : value.canonical type = .ok canonical) : HasType type canonical := by
  unfold HostValue.canonical at found
  split at found
  next => cases found
  next =>
    split at found
    next => cases found
    next decoded =>
      cases found
      exact hasType_of_decode decoded

theorem hasType_of_canonicalArguments {arguments values : List HostValue}
    {parameters : List Parameter} (counted : arguments.length = parameters.length)
    (found : canonicalArguments arguments parameters = .ok values) :
    List.Forall₂ HasType (parameters.map Parameter.type) values := by
  induction parameters generalizing arguments values with
  | nil =>
      cases arguments with
      | nil =>
          cases found
          exact .nil
      | cons => cases counted
  | cons parameter rest induction =>
      cases arguments with
      | nil => cases counted
      | cons argument others =>
          obtain ⟨first, canonical, found⟩ := bind_eq_ok.mp found
          obtain ⟨later, canonicalLater, found⟩ := bind_eq_ok.mp found
          cases found
          exact .cons (HostValue.hasType_of_canonical canonical)
            (induction (Nat.succ.inj counted) canonicalLater)

theorem RecordedFunction.hasType_of_accept {recorded : RecordedFunction}
    {arguments values : List HostValue} {block : Block}
    (accepted : recorded.accept arguments = .ok (block, values)) :
    List.Forall₂ HasType (recorded.signature.parameters.map Parameter.type) values := by
  unfold accept at accepted
  split at accepted
  next => cases accepted
  next =>
    dsimp only at accepted
    split at accepted
    next => cases accepted
    next counted =>
      obtain ⟨canonical, found, same⟩ := bind_eq_ok.mp accepted
      cases same
      exact hasType_of_canonicalArguments (Decidable.not_not.mp counted) found

/-! ## Calls -/

def RecordedFunction.hasLoop (recorded : RecordedFunction) : Bool :=
  recorded.hasBlock fun block => (blockAll block).any Statement.isLoop

theorem RecordedFunction.isLoop_of_hasLoop {recorded : RecordedFunction} {block : Block}
    (loopless : recorded.hasLoop = false) (body : recorded.body = .statements block) :
    ∀ statement ∈ blockAll block, statement.isLoop = false := by
  intro statement inside
  simp only [hasLoop, hasBlock, body, List.any_eq_false, Bool.not_eq_true] at loopless
  exact loopless statement inside

def TraceContext.Invokes (context : TraceContext) (caller callee : FunctionId) : Prop :=
  ∃ recorded, context.find? caller = some recorded ∧ recorded.Invokes callee

/-- Neither a function nor any that it reaches by calls has unconditional loops. -/
def TraceContext.LooplessFrom (context : TraceContext) (id : FunctionId) : Prop :=
  ∀ callee recorded, Relation.ReflTransGen context.Invokes id callee →
    context.find? callee = some recorded → recorded.hasLoop = false

/-- How a body ends is how its function answers. -/
theorem Activation.Settled.answers {activation : Activation} {block : Block} {frame : Frame}
    {call : Callee} {rounds : Nat} {result : Frame × Flow} (settled : activation.Settled result)
    (sound : activation.recorded.Sound activation.context)
    (body : activation.recorded.body = .statements block)
    (ran : runBlock activation call rounds frame block = .ok result) :
    activation.recorded.signature.Answers (RecordedFunction.resultOf result.2) := by
  by_cases declared : activation.recorded.signature.result.isSome = true
  · obtain ⟨value, flow⟩ := (sound.givesBack body declared frame).holds ran
    rw [flow]
    exact settled.giveBack _ flow
  · have none := Option.not_isSome_iff_eq_none.mp declared
    cases flow : result.2 with
    | giveBack value => exact settled.giveBack value flow
    | next | leaveLoop | nextRound => exact Signature.answers_none none

/-- A function ends if none that it reaches has unconditional loops. Callees come before their
callers, so the depth of calls is less than the number of functions. -/
theorem TraceContext.evaluate_ends {program : Program} {context : TraceContext}
    (sound : context.Sound program) (ordered : context.Ordered) {fuel : Nat} {id : FunctionId}
    {recorded : RecordedFunction} (found : context.find? id = some recorded)
    (loopless : context.LooplessFrom id) (enough : UInt32.size + context.order.idxOf id < fuel)
    (arguments : List HostValue) :
    Ends (recorded.evaluate context fuel arguments) recorded.signature.Answers := by
  induction fuel generalizing id recorded arguments with
  | zero => exact absurd enough (Nat.not_lt_zero _)
  | succ fuel induction =>
      have recordedSound := (sound.finished id recorded found).2
      rw [RecordedFunction.evaluate_succ]
      cases accepted : recorded.accept arguments with
      | error error => exact .failed
      | ok given =>
          obtain ⟨block, values⟩ := given
          have body := RecordedFunction.body_of_accept accepted
          let activation : Activation := ⟨context, recorded, values⟩
          have calls (callee : FunctionId) (other : RecordedFunction) (given : List HostValue)
              (invokes : recorded.Invokes callee) (finished : context.find? callee = some other) :
              Ends (activation.callee fuel callee given) other.signature.Answers := by
            have before := (ordered.precedes (.single ⟨recorded, found, invokes.refers⟩)).2
            have called : activation.callee fuel callee given =
                other.evaluate context fuel given := by
              simp only [Activation.callee, activation, finished]
            rw [called]
            apply induction finished _ (by omega) given
            exact fun reached later path =>
              loopless reached later (path.head ⟨recorded, found, invokes⟩)
          have bounded : activation.Bounded program (activation.callee fuel) fuel :=
            ⟨⟨sound, recordedSound, RecordedFunction.hasType_of_accept accepted⟩, calls, by omega⟩
          have ends := runBlock_ends bounded (recorded.frame_sound values)
            (recordedSound.checked block body) (fun callee called => .statement body called)
            (RecordedFunction.isLoop_of_hasLoop (loopless id recorded .refl found) body)
          apply Ends.bind ends
          intro result ran settled
          exact .ok (settled.answers recordedSound body ran)

/-! ## Termination -/

/-- A function whose trace succeeds, and from which no unconditional loop is reached, ends on
every list of arguments: with fuel for all integers and all functions, it gives one answer,
whatever the fuel is. In all functions that were recorded, operands stand before their
expressions, so all depths beyond the index of a node give it the same meaning. -/
theorem Program.evaluate_terminates {program : Program} {function : ShaderFunction}
    {journal after : Journal} {recorded : RecordedFunction} {context : TraceContext}
    (known : program.find? function.id = some function)
    (traced : (program.trace function).alone journal = .ok (recorded, context) after)
    (loopless : context.LooplessFrom function.id) :
    (∀ arguments, ∃ answer, answer ≠ .error .outOfFuel ∧
      ∀ fuel, UInt32.size + context.order.length ≤ fuel →
        program.evaluate fuel function arguments journal = (answer, after)) ∧
    ∀ id other, context.find? id = some other → Activation.Ordered other.expressions ∧
      ∀ arguments frame depth node, node.index < depth →
        Activation.meaningWithin ⟨context, other, arguments⟩ frame depth node =
          Activation.meaning ⟨context, other, arguments⟩ frame node := by
  obtain ⟨sound, _, _⟩ := Program.trace_sound known traced
  have ran := Tracing.ran_of_alone traced
  have found := Program.find?_of_trace ran
  have orders := program.traceWithin_recordsInOrder (program.functions.length + 1) function
    { journal := journal } TraceContext.ordered_empty
  have ordered : context.Ordered := (orders.ok ran).1
  constructor
  · intro arguments
    have inside := List.idxOf_lt_length_of_mem (TraceContext.mem_order_of_find? found)
    have ends := (context.evaluate_ends sound ordered found loopless (Nat.add_lt_add_left inside _)
      arguments).notCut
    refine ⟨_, ends, fun fuel enough => ?_⟩
    rw [Program.evaluate, traced]
    exact congrArg (Prod.mk · after) (RecordedFunction.evaluate_of_le ends enough)
  · intro id other finished
    have entries := (sound.finished id other finished).2.entries
    have before : Activation.Ordered other.expressions := fun index entry found =>
      (entries index entry found).earlier
    exact ⟨before, fun arguments frame depth node => Activation.meaningWithin_eq before⟩

def exampleTriangle : ShaderFunction where
  id := ⟨0⟩
  signature := ⟨"triangle", [⟨"limit", .u32⟩], some .u32, none⟩
  implementation := .script
    (.ofList [
      .declare "total" none (.literal (.u32 0)),
      .range "row" (.literal (.u32 0)) (.register "$0") (.ofList [
        .range "column" (.literal (.u32 0)) (.register "row") (.ofList [
          .binary "parity" .rem (.register "column") (.literal (.u32 2)),
          .binary "odd" .equal (.register "parity") (.literal (.u32 1)),
          .branch (.register "odd") (.ofList [.nextRound]) .done,
          .call "double" ⟨1⟩ [.register "column"],
          .binary "next" .add (.register "total") (.register "double"),
          .store "total" (.register "next")])])])
    (some (.register "total"))

def Evaluation.gives (value : Scalar) : Evaluation (Option HostValue) → Bool
  | .ok (some (.scalar other)) => other = value
  | _ => false

theorem Evaluation.eq_of_gives {value : Scalar} {work : Evaluation (Option HostValue)}
    (given : gives value work = true) : work = .ok (some (.scalar value)) := by
  unfold gives at given
  split at given
  next => rw [of_decide_eq_true given]
  next => cases given

theorem evaluate_terminates_exampleTriangle :
    let program : Program := ⟨[exampleTriangle, exampleTwice]⟩
    ∃ answer after, answer = .ok (some (.scalar (.u32 8))) ∧
      ∀ fuel, UInt32.size + 2 ≤ fuel →
        program.evaluate fuel exampleTriangle [.scalar (.u32 5)] {} = (answer, after) := by
  intro program
  have succeeds : program.traces exampleTriangle = true := by decide +kernel
  obtain ⟨recorded, context, after, traced⟩ := Program.exists_of_traces succeeds
  have attempted : program.attempt {} exampleTriangle = ⟨context, after⟩ := by
    rw [Program.attempt, Tracing.ran_of_alone traced]
  have checked : (program.attempt {} exampleTriangle).context.order.length = 2 ∧
      (program.attempt {} exampleTriangle).context.finished.all
        (fun recorded => !recorded.hasLoop) = true := by decide +kernel
  rw [attempted] at checked
  obtain ⟨counted, plain⟩ := checked
  have loopless : context.LooplessFrom exampleTriangle.id := by
    intro callee other _ found
    have passes := List.all_eq_true.mp plain other (TraceContext.find?_mem found).1
    exact (Bool.not_eq_true' _).mp passes
  obtain ⟨terminates, _⟩ := Program.evaluate_terminates rfl traced loopless
  obtain ⟨answer, _, evaluated⟩ := terminates [.scalar (.u32 5)]
  rw [counted] at evaluated
  refine ⟨answer, after, ?_, evaluated⟩
  -- little fuel is enough for this list of arguments, and more fuel gives the same
  have little : Evaluation.gives (.u32 8)
      (program.evaluate 7 exampleTriangle [.scalar (.u32 5)] {}).1 = true := by decide +kernel
  have ran (fuel : Nat) : (program.evaluate fuel exampleTriangle [.scalar (.u32 5)] {}).1 =
      recorded.evaluate context fuel [.scalar (.u32 5)] := by
    rw [Program.evaluate, traced]
  have given : recorded.evaluate context 7 [.scalar (.u32 5)] = .ok (some (.scalar (.u32 8))) :=
    (ran 7).symm.trans (Evaluation.eq_of_gives little)
  have ends : recorded.evaluate context 7 [.scalar (.u32 5)] ≠ .error .outOfFuel := by
    simp [given]
  have more := RecordedFunction.evaluate_of_le ends (show 7 ≤ UInt32.size + 2 by decide)
  rw [given, ← ran, evaluated _ (Nat.le_refl _)] at more
  exact more

end ShaderKit
