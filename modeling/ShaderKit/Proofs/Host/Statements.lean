import ShaderKit.Proofs.Host.Expressions

/-!
# Statements keep frames typed

Running statements keeps the types of variables and bound nodes, binds what the statements
make available, and leaves a block only in the ways that its statements name. An error has
its reason at a moment that was passed on the way.
-/

namespace ShaderKit

open Evaluation

/-! ## Frames -/

def Frame.Keeps (before after : Frame) : Prop :=
  ∀ index, before.Binds index → after.Binds index

theorem Frame.Keeps.refl (frame : Frame) : frame.Keeps frame :=
  fun _ bound => bound

theorem Frame.Keeps.trans {before middle after : Frame} (first : before.Keeps middle)
    (second : middle.Keeps after) : before.Keeps after :=
  fun index bound => second index (first index bound)

theorem Frame.Provides.keep {before after : Frame} {bound : List Binder}
    (provides : before.Provides bound) (keeps : before.Keeps after) : after.Provides bound :=
  fun index available => keeps index (provides index available)

theorem Frame.Provides.variable {frame : Frame} {bound : List Binder}
    (provides : frame.Provides bound) (number : Nat) :
    frame.Provides (bound ++ [.variable number]) := by
  intro index available
  rcases List.mem_append.mp available with inside | last
  · exact provides index inside
  · cases List.mem_singleton.mp last

theorem Frame.Provides.unbound {frame : Frame} {bound : List Binder} {statement : Statement}
    (provides : frame.Provides bound) (binds : statement.binds = []) :
    frame.Provides (bound ++ statement.binds) := by
  rw [binds, List.append_nil]
  exact provides

theorem Frame.Provides.node {frame : Frame} {bound : List Binder} (provides : frame.Provides bound)
    {last : Nat} (binds : frame.Binds last) : frame.Provides (bound ++ [.node last]) := by
  intro index available
  rcases List.mem_append.mp available with inside | same
  · exact provides index inside
  · cases List.mem_singleton.mp same
    exact binds

theorem Frame.Sound.setVariable {activation : Activation} {frame : Frame}
    (sound : frame.Sound activation) {index : Nat} {declared : LocalVariable} {value : HostValue}
    (known : activation.recorded.locals[index]? = some declared)
    (typed : HasType declared.type value) :
    (Activation.setVariable frame index value).Sound activation where
  cells other declaredOther found := by
    rcases sound.cells other declaredOther found with ⟨old, cell, oldTyped⟩
    by_cases same : index = other
    · subst same
      rw [known] at found
      cases found
      have inside : index < frame.cells.size := (Array.getElem?_eq_some_iff.mp cell).1
      refine ⟨value, ?_, typed⟩
      rw [Activation.setVariable, Array.getElem?_setIfInBounds_self, if_pos inside]
    · refine ⟨old, ?_, oldTyped⟩
      rw [Activation.setVariable, Array.getElem?_setIfInBounds_ne same]
      exact cell
  meanings := sound.meanings
  room := sound.room

theorem Activation.initialValue_none {activation : Activation} {frame : Frame} {index : Nat}
    {declared : LocalVariable} (known : activation.recorded.locals[index]? = some declared) :
    activation.initialValue frame index none = .ok declared.type.zero := by
  unfold initialValue
  dsimp only
  rw [known]
  rfl

theorem Frame.Sound.store {activation : Activation} {frame : Frame}
    (sound : frame.Sound activation) {index : Nat} {path : ValuePath} {type : TypeDescriptor}
    {reference : Option Reference} {whole new replaced : HostValue}
    (described : activation.Describes type reference (.place index path))
    (cell : frame.cells[index]? = some whole) (typed : HasType type new)
    (done : HostValue.setAt? new whole path = some replaced) :
    (Activation.setVariable frame index replaced).Sound activation := by
  rcases described with ⟨_, declared, known, followed⟩
  rcases sound.cells index declared known with ⟨old, found, oldTyped⟩
  cases found.symm.trans cell
  rcases oldTyped.setAt? followed typed (HostValue.pathInRange_of_setAt? done) with
    ⟨same, found, replacedTyped⟩
  cases done.symm.trans found
  exact sound.setVariable known replacedTyped

def Frame.withMeaning (frame : Frame) (index : Nat) (meaning : Meaning) : Frame :=
  { frame with meanings := frame.meanings.setIfInBounds index (some meaning) }

theorem Frame.join_withMeaning {frame : Frame} {index : Nat} (meaning : Meaning)
    (inside : index < frame.meanings.size) (other : Nat) :
    (frame.withMeaning index meaning).meanings[other]?.join =
      if index = other then some meaning else frame.meanings[other]?.join := by
  unfold withMeaning
  split
  next same =>
    subst same
    rw [Array.getElem?_setIfInBounds_self, if_pos inside]
    rfl
  next different => rw [Array.getElem?_setIfInBounds_ne different]

theorem Frame.Sound.withMeaning {activation : Activation} {frame : Frame}
    (sound : frame.Sound activation) {index : Nat} {entry : ExpressionEntry} {meaning : Meaning}
    (found : activation.recorded.expressions[index]? = some entry)
    (described : activation.Describes entry.type entry.reference meaning) :
    (frame.withMeaning index meaning).Sound activation ∧
      frame.Keeps (frame.withMeaning index meaning) ∧
      (frame.withMeaning index meaning).Binds index := by
  have inside : index < frame.meanings.size := by
    rw [sound.room]
    exact (Array.getElem?_eq_some_iff.mp found).1
  have lookup := frame.join_withMeaning meaning inside
  refine ⟨⟨sound.cells, ?_, ?_⟩, ?_, meaning, ?_⟩
  · intro other otherEntry otherMeaning known given
    rw [lookup] at given
    split at given
    next same =>
      subst same
      cases given
      cases found.symm.trans known
      exact described
    next => exact sound.meanings other otherEntry otherMeaning known given
  · rw [Frame.withMeaning, Array.size_setIfInBounds]
    exact sound.room
  · rintro other ⟨old, bound⟩
    rw [Frame.Binds, lookup]
    split
    next => exact ⟨meaning, rfl⟩
    next => exact ⟨old, bound⟩
  · rw [lookup, if_pos rfl]

/-! ## Errors -/

def Moment.Excuses (moment : Moment) (error : ShaderError) : Prop :=
  ∃ last, moment.Passes last ∧ last.Stops error

namespace Moment.Excuses

theorem here {moment : Moment} {error : ShaderError} (stops : moment.Stops error) :
    moment.Excuses error :=
  ⟨moment, .refl, stops⟩

theorem after {first next : Moment} {error : ShaderError} (leads : first.Leads next)
    (excuses : next.Excuses error) : first.Excuses error := by
  rcases excuses with ⟨last, passes, stops⟩
  exact ⟨last, passes.head leads, stops⟩

/-- What makes a callee fail makes its caller fail. -/
theorem of_calls {moment : Moment} {recorded : RecordedFunction} {values : List HostValue}
    {error : ShaderError} (calls : moment.Calls recorded values)
    (fails : recorded.Fails moment.activation.context values error) : moment.Excuses error := by
  rcases fails with ⟨text, body, rfl⟩ | ⟨last, ⟨first, begins, passes⟩, stops⟩
  · exact here (.raw calls body)
  · exact after (.call calls begins) ⟨last, passes, stops⟩

theorem of_blocked {activation : Activation} {frame : Frame} {statement : Statement} {rest : Block}
    {node : Node} {error : ShaderError} (member : node ∈ statement.operands)
    (blocked : activation.Blocked frame node error) :
    Moment.Excuses ⟨activation, frame, statement :: rest⟩ error := by
  rcases blocked with ⟨entry, fault, found, inlined, obstacle, rfl⟩
  exact here (.operand member found inlined obstacle)

end Moment.Excuses

theorem Signature.answers_none {signature : Signature} (result : signature.result = none) :
    signature.Answers none := by
  unfold Answers
  rw [result]
  trivial

theorem Signature.answers_some {signature : Signature} {type : TypeDescriptor} {value : HostValue}
    (result : signature.result = some type) (typed : HasType type value) :
    signature.Answers (some value) := by
  unfold Answers
  rw [result]
  exact typed

theorem Signature.Answers.yields {signature : Signature} {answer : Option HostValue}
    {type : TypeDescriptor} (answers : signature.Answers answer)
    (result : signature.result = some type) : Yields type answer := by
  unfold Answers at answers
  rw [result] at answers
  cases answer with
  | none => cases answers
  | some value => exact ⟨value, rfl, answers⟩

def Activation.CalleesMeet (activation : Activation) (fuel : Nat) : Prop :=
  ∀ callee recorded values, activation.context.find? callee = some recorded →
    List.Forall₂ HasType (recorded.signature.parameters.map Parameter.type) values →
      Meets (activation.callee fuel callee values) (recorded.Fails activation.context values)
        recorded.signature.Answers

section

variable {activation : Activation} {frame : Frame} {program : Program} {fuel : Nat}
  {bound : List Binder} {inLoop : Prop} {rest : Block}

/-! ## Single statements -/

theorem bind_meets (sound : activation.Sound program) (callees : activation.CalleesMeet fuel)
    (frameSound : frame.Sound activation) (provides : frame.Provides bound) {node : Node}
    (checked : (Statement.emit node).Checked activation.inventory inLoop bound) :
    Meets (activation.bind frame (activation.callee fuel) node)
      (Moment.Excuses ⟨activation, frame, .emit node :: rest⟩) fun after =>
        after.Sound activation ∧ frame.Keeps after ∧ after.Binds node.index := by
  simp only [Statement.Checked] at checked
  rcases checked with ⟨entry, found, _, ready⟩
  change activation.recorded.entry? node = some entry at found
  have entrySound := sound.recorded.entries node.index entry found
  have meaning : Meets (activation.meaningOf frame (activation.meaning frame)
      (activation.callee fuel) entry) (Moment.Excuses ⟨activation, frame, .emit node :: rest⟩)
      (activation.Describes entry.type entry.reference) := by
    apply Activation.meaningOf_meets sound frameSound entrySound.types
    · intro operand member type reference operandAt
      apply (Activation.usable_meets sound frameSound provides
        ⟨operandAt, ready operand member⟩).forgive
      rintro error ⟨operandEntry, fault, known, inlined, obstacle, rfl⟩
      exact .here (.emit found (.operand member known inlined obstacle))
    · intro fault obstacle
      exact .here (.emit found obstacle)
    · intro callee arguments recorded values type same known given typed result
      apply ((callees callee recorded values known typed).imp fun answer answers =>
        answers.yields result).forgive
      intro error fails
      exact .of_calls (.value found same known given) fails
  unfold Activation.bind
  rw [found]
  apply Meets.bind meaning
  intro meaning _ described
  exact .ok (frameSound.withMeaning found described)

theorem operand_excused (sound : activation.Sound program) (frameSound : frame.Sound activation)
    (provides : frame.Provides bound) {statement : Statement} {node : Node}
    {type : TypeDescriptor} (member : node ∈ statement.operands)
    (operand : activation.inventory.Operand bound node type) :
    Meets (activation.value frame node)
      (Moment.Excuses ⟨activation, frame, statement :: rest⟩) (HasType type) :=
  (Activation.operand_meets sound frameSound provides operand).forgive fun _ blocked =>
    .of_blocked member blocked

theorem scalar_excused (sound : activation.Sound program) (frameSound : frame.Sound activation)
    (provides : frame.Provides bound) {statement : Statement} {node : Node} {kind : ScalarKind}
    (member : node ∈ statement.operands)
    (operand : activation.inventory.Operand bound node (.scalar kind)) :
    Meets (activation.scalar frame node)
      (Moment.Excuses ⟨activation, frame, statement :: rest⟩) fun scalar =>
        scalar.kind = kind := by
  apply Meets.bind (operand_excused sound frameSound provides member operand)
  intro value _ typed
  rcases hasType_scalar.mp typed with ⟨scalar, rfl, same⟩
  exact .ok same

theorem truth_excused (sound : activation.Sound program) (frameSound : frame.Sound activation)
    (provides : frame.Provides bound) {statement : Statement} {node : Node}
    (member : node ∈ statement.operands)
    (operand : activation.inventory.Operand bound node .bool) :
    Meets (activation.truth frame node)
      (Moment.Excuses ⟨activation, frame, statement :: rest⟩) fun _ => True := by
  apply Meets.bind (scalar_excused sound frameSound provides member operand)
  intro scalar _ same
  cases scalar with
  | bool truth => exact .ok trivial
  | _ => cases same

theorem arguments_excused (sound : activation.Sound program) (frameSound : frame.Sound activation)
    (provides : frame.Provides bound) (statement : Statement) {types : List TypeDescriptor}
    (operands : List.Forall₂ (activation.inventory.Operand bound) statement.operands types) :
    Meets (statement.operands.mapM (activation.value frame))
      (Moment.Excuses ⟨activation, frame, statement :: rest⟩) (List.Forall₂ HasType types) := by
  apply Meets.mapM
  apply forall₂_of_mem operands
  intro argument member type operand
  exact operand_excused sound frameSound provides member operand

theorem store_meets (sound : activation.Sound program) (frameSound : frame.Sound activation)
    (provides : frame.Provides bound) {target source : Node} {type : TypeDescriptor}
    {reference : Reference} {new : HostValue}
    (usable : activation.inventory.Usable bound target type (some reference))
    (typed : HasType type new) :
    Meets (activation.store frame target new)
      (Moment.Excuses ⟨activation, frame, .store target source :: rest⟩) fun after =>
        after.Sound activation ∧ frame.Keeps after := by
  have meaning := (Activation.usable_meets sound frameSound provides usable).forgive
    fun error blocked => @Moment.Excuses.of_blocked activation frame (.store target source) rest
      target error List.mem_cons_self blocked
  apply Meets.bind meaning
  intro meaning ran described
  cases meaning with
  | value value => cases described.1
  | place index path =>
      rcases described with ⟨referenced, declared, known, followed⟩
      rcases frameSound.cells index declared known with ⟨whole, cell, wholeTyped⟩
      dsimp only
      rw [cell]
      change Meets (activation.require .storePath (HostValue.setAt? new whole path) >>= _) _ _
      cases done : HostValue.setAt? new whole path with
      | some replaced =>
          have stored := frameSound.store ⟨referenced, declared, known, followed⟩ cell typed done
          exact .ok ⟨stored, .refl _⟩
      | none =>
          apply Activation.refuse_meets
          apply Moment.Excuses.here
          apply Moment.Stops.unwritable ran cell
          intro ranged
          rcases wholeTyped.setAt? followed typed ranged with ⟨_, found, _⟩
          rw [done] at found
          cases found

end

end ShaderKit
