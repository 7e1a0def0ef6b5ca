import ShaderKit.Proofs.AccessRights
import ShaderKit.Proofs.Host.Returning
import ShaderKit.Proofs.Host.Statements
import ShaderKit.Proofs.Recording.BoundOnce

/-!
# What runs leave unchanged

A run changes the variables that its statements declare, count with or may store into, and binds
the nodes that they emit. Everything else is after the run as before it. As for the ways in which
blocks end, nothing is asked of the types of values or of what callees do.
-/

namespace ShaderKit

open Evaluation

/-! ## What nodes stand for -/

/-- What an expression may stand for: one without a reference for a value, and one with a
reference for a place in a variable with the same rights. -/
def RecordedFunction.Denotes (recorded : RecordedFunction) (reference : Option Reference) :
    Meaning → Prop
  | .value _ => reference = none
  | .place number _ => reference.isSome = true ∧ ∃ root ∈ recorded.expressions,
      root.expression = .localVariable number ∧ root.reference = reference

/-- A frame as runs of a recording have it: each variable has a cell, and what is bound are
expressions that are not spelled where they are used. -/
structure Frame.Proper (frame : Frame) (recorded : RecordedFunction) : Prop where
  room : frame.cells.size = recorded.locals.size
  bound : ∀ (index : Nat) entry meaning, recorded.expressions[index]? = some entry →
    frame.meanings[index]?.join = some meaning →
      entry.isInlined = false ∧ recorded.Denotes entry.reference meaning

theorem RecordedFunction.frame_proper (recorded : RecordedFunction) :
    recorded.frame.Proper recorded where
  room := Array.size_map
  bound index entry meaning _ bound := by
    simp [frame, Array.getElem?_replicate, Option.join_eq_some_iff] at bound

theorem Frame.Proper.setVariable {frame : Frame} {recorded : RecordedFunction}
    (proper : frame.Proper recorded) (number : Nat) (value : HostValue) :
    (Activation.setVariable frame number value).Proper recorded where
  room := by
    rw [Activation.setVariable, Array.size_setIfInBounds]
    exact proper.room
  bound := proper.bound

namespace Activation

variable {activation : Activation} {frame : Frame} {context : TraceContext}
  {entry : ExpressionEntry} {reference : Option Reference}

theorem answer_denotes (fault : HostFault) (result : Option HostValue) :
    Gives ((activation.require fault result).map Meaning.value)
      (activation.recorded.Denotes none) := by
  cases result with
  | none => exact .error
  | some value => exact .ok rfl

theorem project_denotes {meaning : Meaning} (segment : PathSegment)
    (denotes : activation.recorded.Denotes reference meaning) :
    Gives (activation.project segment meaning) (activation.recorded.Denotes reference) := by
  cases meaning with
  | place number path => exact .ok denotes
  | value value => exact .after fun _ => .ok denotes

theorem meaningOf_denotes {call : Callee}
    (types : (activation.recorded.inventory context).Types entry.expression entry.type
      entry.reference)
    (member : ∀ index, entry.expression = .localVariable index →
      entry ∈ activation.recorded.expressions)
    (operands : ∀ operand ∈ entry.expression.operands, ∀ type reference,
      (activation.recorded.inventory context).At operand type reference →
        Gives (activation.meaning frame operand) (activation.recorded.Denotes reference)) :
    Gives (activation.meaningOf frame (activation.meaning frame) call entry)
      (activation.recorded.Denotes entry.reference) := by
  obtain ⟨expression, type, reference, scope⟩ := entry
  dsimp only at types operands
  have part {base : Node} {type : TypeDescriptor} {reference : Option Reference}
      (segment : PathSegment) (inside : base ∈ expression.operands)
      (baseAt : (activation.recorded.inventory context).At base type reference) :
      Gives (activation.meaning frame base >>= activation.project segment)
        (activation.recorded.Denotes reference) :=
    (operands base inside type reference baseAt).bind fun _ denotes =>
      project_denotes segment denotes
  cases types with
  | parameter | constant => exact answer_denotes _ _
  | literal | zero => exact .ok rfl
  | binding => exact .error
  | localVariable => exact .ok ⟨rfl, _, member _ rfl, rfl, rfl⟩
  | load => exact .after fun _ => .ok rfl
  | compose | unary | helper | convert => exact .after fun _ => answer_denotes _ _
  | binary | call => exact .after fun _ => .after fun _ => answer_denotes _ _
  | member baseAt => exact .after fun _ => part _ List.mem_cons_self baseAt
  | index baseAt => exact .after fun _ => .after fun _ => part _ List.mem_cons_self baseAt
  | component sourceAt => exact part _ List.mem_cons_self sourceAt
  | @swizzle _ _ _ _ components sourceAt =>
      rcases components with _ | ⟨_, _ | ⟨_, _⟩⟩
      · exact .after fun _ => answer_denotes _ _
      · exact part _ List.mem_cons_self sourceAt
      · exact .after fun _ => answer_denotes _ _
  | arrayLength => exact .error
  | standard _ known =>
      unfold meaningOf
      dsimp only
      rw [if_neg known]
      exact .after fun _ => answer_denotes _ _

theorem ordered_of_sound (sound : activation.recorded.Sound context) :
    Ordered activation.recorded.expressions :=
  fun index entry found => (sound.entries index entry found).earlier

theorem meaning_denotes {node : Node} {entry : ExpressionEntry}
    (sound : activation.recorded.Sound context) (proper : frame.Proper activation.recorded)
    (found : activation.recorded.entry? node = some entry) :
    Gives (activation.meaning frame node) (activation.recorded.Denotes entry.reference) := by
  have entrySound := sound.entries node.index entry found
  cases bound : frame.meanings[node.index]?.join with
  | some meaning =>
      rw [meaning_of_bound bound]
      exact .ok (proper.bound node.index entry meaning found bound).2
  | none =>
      by_cases inlined : entry.isInlined = true
      · rw [meaning_of_inlined (ordered_of_sound sound) bound found inlined]
        apply meaningOf_denotes entrySound.types fun _ _ => Array.mem_of_getElem? found
        intro operand member type reference known
        obtain ⟨operandEntry, foundOperand, _, rfl⟩ := known
        have earlier := entrySound.earlier operand member
        exact meaning_denotes sound proper foundOperand
      · rw [meaning_of_unbound bound found inlined]
        exact .error
termination_by node.index

/-- A node that is spelled where it is used, and is no reference, stands for the same in all
frames. -/
theorem meaning_of_spelled {node : Node} {before after : Frame}
    (sound : activation.recorded.Sound context) (beforeProper : before.Proper activation.recorded)
    (afterProper : after.Proper activation.recorded)
    (found : activation.recorded.entry? node = some entry) (plain : entry.reference = none)
    (inlined : entry.isInlined = true) :
    activation.meaning after node = activation.meaning before node := by
  have unbound {frame : Frame} (proper : frame.Proper activation.recorded) :
      frame.meanings[node.index]?.join = none := by
    rw [Option.eq_none_iff_forall_ne_some]
    intro meaning bound
    have notInlined := (proper.bound node.index entry meaning found bound).1
    rw [inlined] at notInlined
    cases notInlined
  have types := (sound.entries node.index entry found).types
  rw [meaning_of_inlined (ordered_of_sound sound) (unbound afterProper) found inlined,
    meaning_of_inlined (ordered_of_sound sound) (unbound beforeProper) found inlined]
  obtain ⟨expression, type, reference, scope⟩ := entry
  cases plain
  cases types with
  | parameter | literal | constant => rfl
  | _ => cases inlined

theorem meaning_of_emitted {node : Node} {before after : Frame}
    (found : activation.recorded.entry? node = some entry) (notInlined : ¬ entry.isInlined = true)
    (same : after.meanings[node.index]? = before.meanings[node.index]?) :
    activation.meaning after node = activation.meaning before node := by
  cases bound : before.meanings[node.index]?.join with
  | some meaning => rw [meaning_of_bound bound, meaning_of_bound ((congrArg _ same).trans bound)]
  | none =>
      rw [meaning_of_unbound bound found notInlined,
        meaning_of_unbound ((congrArg _ same).trans bound) found notInlined]

theorem value_congr {node : Node} {before after : Frame}
    (sound : activation.recorded.Sound context) (beforeProper : before.Proper activation.recorded)
    (found : activation.recorded.entry? node = some entry) (plain : entry.reference = none)
    (same : activation.meaning after node = activation.meaning before node) :
    activation.value after node = activation.value before node := by
  unfold value
  rw [same]
  cases ran : activation.meaning before node with
  | error interruption => rfl
  | ok meaning =>
      have denotes := (meaning_denotes sound beforeProper found).holds ran
      cases meaning with
      | value value => rfl
      | place number path =>
          rw [plain] at denotes
          cases denotes.1

end Activation

/-! ## What statements leave unchanged -/

/-- A variable that every reference to it may only read. -/
def RecordedFunction.ReadOnly (recorded : RecordedFunction) (number : Nat) : Prop :=
  ∀ entry ∈ recorded.expressions, entry.expression = .localVariable number →
    entry.reference = some ⟨.read, .localVariable⟩

/-- A node through which stores are allowed. -/
def RecordedFunction.Writable (recorded : RecordedFunction) (node : Node) : Prop :=
  ∃ entry reference, recorded.entry? node = some entry ∧ entry.reference = some reference ∧
    reference.access = .readWrite

/-- A later frame of a run that binds no more than some binders. The other nodes have their
meanings, and the other variables that are only read have their values. -/
structure Frame.Leaves (recorded : RecordedFunction) (binders : List Binder)
    (before after : Frame) : Prop where
  proper : after.Proper recorded
  cells : ∀ number, recorded.ReadOnly number → .variable number ∉ binders →
    after.cells[number]? = before.cells[number]?
  meanings : ∀ index, .node index ∉ binders → after.meanings[index]? = before.meanings[index]?

namespace Frame.Leaves

variable {recorded : RecordedFunction} {binders more : List Binder} {before middle after : Frame}

theorem refl (proper : before.Proper recorded) : Leaves recorded binders before before :=
  ⟨proper, fun _ _ _ => rfl, fun _ _ => rfl⟩

theorem trans (first : Leaves recorded binders before middle)
    (second : Leaves recorded binders middle after) : Leaves recorded binders before after where
  proper := second.proper
  cells number readOnly unbound :=
    (second.cells number readOnly unbound).trans (first.cells number readOnly unbound)
  meanings index unbound := (second.meanings index unbound).trans (first.meanings index unbound)

theorem widen (leaves : Leaves recorded binders before after)
    (wider : ∀ binder ∈ binders, binder ∈ more) : Leaves recorded more before after where
  proper := leaves.proper
  cells number readOnly unbound := leaves.cells number readOnly fun bound => unbound (wider _ bound)
  meanings index unbound := leaves.meanings index fun bound => unbound (wider _ bound)

theorem setVariable {number : Nat} (value : HostValue) (proper : before.Proper recorded)
    (changes : recorded.ReadOnly number → .variable number ∈ binders) :
    Leaves recorded binders before (Activation.setVariable before number value) where
  proper := proper.setVariable number value
  cells other readOnly unbound := by
    apply Array.getElem?_setIfInBounds_ne
    rintro rfl
    exact unbound (changes readOnly)
  meanings _ _ := rfl

theorem withMeaning {index : Nat} {entry : ExpressionEntry} {meaning : Meaning}
    (proper : before.Proper recorded) (found : recorded.expressions[index]? = some entry)
    (notInlined : entry.isInlined = false) (denotes : recorded.Denotes entry.reference meaning) :
    Leaves recorded [.node index] before (before.withMeaning index meaning) where
  proper := by
    refine ⟨proper.room, ?_⟩
    intro other otherEntry otherMeaning known bound
    unfold Frame.withMeaning at bound
    rw [Array.getElem?_setIfInBounds] at bound
    split at bound
    next same =>
      subst same
      cases found.symm.trans known
      split at bound
      next =>
        cases bound
        exact ⟨notInlined, denotes⟩
      next => cases bound
    next => exact proper.bound other otherEntry otherMeaning known bound
  cells _ _ _ := rfl
  meanings other unbound := by
    apply Array.getElem?_setIfInBounds_ne
    rintro rfl
    exact unbound List.mem_cons_self

end Frame.Leaves

namespace Activation

variable {activation : Activation} {context : TraceContext} {call : Callee} {frame : Frame}
  {binders : List Binder} {round : Frame → Evaluation (Frame × Flow)}

theorem bind_leaves {node : Node} {entry : ExpressionEntry}
    (sound : activation.recorded.Sound context) (proper : frame.Proper activation.recorded)
    (found : activation.recorded.entry? node = some entry) (notInlined : entry.isInlined = false) :
    Gives (activation.bind frame call node)
      (frame.Leaves activation.recorded [.node node.index]) := by
  unfold bind
  rw [found]
  apply Gives.bind (meaningOf_denotes (sound.entries node.index entry found).types
    (fun _ _ => Array.mem_of_getElem? found) _)
  · intro meaning denotes
    exact .ok (.withMeaning proper found notInlined denotes)
  · intro operand member type reference known
    obtain ⟨operandEntry, foundOperand, _, rfl⟩ := known
    exact meaning_denotes sound proper foundOperand

theorem store_leaves {target : Node} {new : HostValue}
    (sound : activation.recorded.Sound context) (proper : frame.Proper activation.recorded)
    (writable : activation.recorded.Writable target) :
    Gives (activation.store frame target new) (frame.Leaves activation.recorded binders) := by
  obtain ⟨entry, reference, found, same, access⟩ := writable
  apply Gives.bind (meaning_denotes sound proper found)
  intro meaning denotes
  cases meaning with
  | value value => exact .error
  | place number path =>
      obtain ⟨_, root, member, own, sameRights⟩ := denotes
      apply Gives.after
      intro whole
      apply Gives.after
      intro replaced
      apply Gives.ok
      apply Frame.Leaves.setVariable _ proper
      intro readOnly
      rw [same, readOnly root member own] at sameRights
      cases sameRights
      cases access

theorem repeatRounds_leaves
    (each : ∀ frame : Frame, frame.Proper activation.recorded → Gives (round frame) fun result =>
      frame.Leaves activation.recorded binders result.1)
    (rounds : Nat) (proper : frame.Proper activation.recorded) :
    Gives (repeatRounds round rounds frame) fun result =>
      frame.Leaves activation.recorded binders result.1 := by
  induction rounds generalizing frame with
  | zero => exact .error
  | succ rounds induction =>
      apply (each frame proper).bind
      intro result leaves
      dsimp only
      split
      next => exact .ok leaves
      next =>
        apply (induction leaves.proper).imp
        intro result later
        exact leaves.trans later

theorem countRounds_leaves
    (each : ∀ frame : Frame, frame.Proper activation.recorded → Gives (round frame) fun result =>
      frame.Leaves activation.recorded binders result.1)
    {counter : Nat} (counts : .variable counter ∈ binders) (bound : Scalar) (rounds : Nat)
    (current : Scalar) (proper : frame.Proper activation.recorded) :
    Gives (activation.countRounds round counter bound rounds current frame) fun result =>
      frame.Leaves activation.recorded binders result.1 := by
  induction rounds generalizing current frame with
  | zero => exact .error
  | succ rounds induction =>
      have begins : frame.Leaves activation.recorded binders
          (setVariable frame counter (.scalar current)) := .setVariable _ proper fun _ => counts
      rw [countRounds]
      split
      next => exact .ok begins
      next =>
        apply (each _ begins.proper).bind
        intro result leaves
        dsimp only
        split
        next => exact .ok (begins.trans leaves)
        next =>
          apply Gives.after
          intro next
          apply (induction next leaves.proper).imp
          intro result later
          exact (begins.trans leaves).trans later

end Activation

mutual
/-- A statement leaves unchanged what it does not bind, unless it may be stored into. -/
theorem Statement.run_leaves {activation : Activation} {context : TraceContext} {call : Callee}
    {rounds : Nat} (sound : activation.recorded.Sound context) :
    ∀ {statement : Statement} {bound : List Binder} {inLoop : Prop} {frame : Frame},
      statement.Checked (activation.recorded.inventory context) inLoop bound →
      (∀ target source, .store target source ∈ statement.all →
        activation.recorded.Writable target) →
      frame.Proper activation.recorded →
        Gives (statement.run activation call rounds frame) fun result =>
          frame.Leaves activation.recorded statement.binders result.1
  | .emit node, _, _, _, checked, _, proper => by
      simp only [Statement.Checked] at checked
      obtain ⟨entry, found, notInlined, _⟩ := checked
      exact (Activation.bind_leaves sound proper found notInlined).bind fun _ leaves => .ok leaves
  | .declare index _, _, _, _, _, _, proper =>
      .after fun value => .ok (.setVariable value proper fun _ => List.mem_cons_self)
  | .store target source, _, _, _, _, writes, proper => by
      apply Gives.after
      intro value
      apply (Activation.store_leaves sound proper (writes target source List.mem_cons_self)).bind
      exact fun _ leaves => .ok leaves
  | .callVoid _ _, _, _, _, _, _, proper => .after fun _ => .after fun _ => .ok (.refl proper)
  | .branch condition accept reject, _, _, frame, checked, writes, proper => by
      simp only [Statement.Checked] at checked
      rw [Statement.run]
      apply Gives.after
      intro held
      split
      next =>
        apply (runBlock_leaves sound checked.2.1 (fun target source member =>
          writes target source (List.mem_cons_of_mem _ (List.mem_append_left _ member))) proper).imp
        exact fun _ leaves => leaves.widen fun _ => List.mem_append_left _
      next =>
        apply (runBlock_leaves sound checked.2.2 (fun target source member =>
          writes target source (List.mem_cons_of_mem _ (List.mem_append_right _ member))) proper).imp
        exact fun _ leaves => leaves.widen fun _ => List.mem_append_right _
  | .loop body, _, _, _, checked, writes, proper => by
      simp only [Statement.Checked] at checked
      rw [Statement.run]
      exact Activation.repeatRounds_leaves (fun _ proper => runBlock_leaves sound checked
        (fun target source member => writes target source (List.mem_cons_of_mem _ member)) proper)
        rounds proper
  | .range counter first last body, _, _, _, checked, writes, proper => by
      simp only [Statement.Checked] at checked
      obtain ⟨_, _, _, _, _, bodyChecked⟩ := checked
      rw [Statement.run]
      apply Gives.after
      intro limit
      apply Gives.after
      intro start
      refine Activation.countRounds_leaves (fun frame proper => ?_) List.mem_cons_self limit rounds
        start proper
      apply (runBlock_leaves sound bodyChecked (fun target source member =>
        writes target source (List.mem_cons_of_mem _ member)) proper).imp
      exact fun _ leaves => leaves.widen fun _ => List.mem_cons_of_mem _
  | .leaveLoop, _, _, _, _, _, proper | .nextRound, _, _, _, _, _, proper
  | .giveBack none, _, _, _, _, _, proper => .ok (.refl proper)
  | .giveBack (some _), _, _, _, _, _, proper => .after fun _ => .ok (.refl proper)
  | .discard, _, _, _, _, _, _ => .error

theorem runBlock_leaves {activation : Activation} {context : TraceContext} {call : Callee}
    {rounds : Nat} (sound : activation.recorded.Sound context) :
    ∀ {block : List Statement} {bound : List Binder} {inLoop : Prop} {frame : Frame},
      BlockChecked (activation.recorded.inventory context) inLoop bound block →
      (∀ target source, .store target source ∈ blockAll block →
        activation.recorded.Writable target) →
      frame.Proper activation.recorded →
        Gives (runBlock activation call rounds frame block) fun result =>
          frame.Leaves activation.recorded (blockBinders block) result.1
  | [], _, _, _, _, _, proper => .ok (.refl proper)
  | statement :: rest, _, _, _, checked, writes, proper => by
      simp only [BlockChecked] at checked
      rw [runBlock]
      apply (Statement.run_leaves sound checked.1 (fun target source member =>
        writes target source (List.mem_append_left _ member)) proper).bind
      intro result first
      obtain ⟨after, flow⟩ := result
      have leaves : Frame.Leaves activation.recorded (blockBinders (statement :: rest)) _ after :=
        first.widen fun _ => List.mem_append_left _
      cases flow with
      | next =>
          apply (runBlock_leaves sound checked.2 (fun target source member =>
            writes target source (List.mem_append_right _ member)) leaves.proper).imp
          intro result later
          exact leaves.trans (later.widen fun _ => List.mem_append_right _)
      | leaveLoop | nextRound | giveBack => exact .ok leaves
end

/-! ## Statements of recordings -/

theorem mem_blockBinders {block : Block} {statement : Statement} {binder : Binder}
    (member : statement ∈ blockAll block) (binds : binder ∈ statement.binders) :
    binder ∈ blockBinders block := by
  obtain ⟨bound, stands⟩ := @exists_stands_of_mem_blockAll block [] statement member
  exact stands.sublist.subset (List.mem_append_right _ binds)

/-- Every statement of a recording leaves unchanged what it does not bind, unless it may be stored
into. -/
theorem RecordedFunction.Respects.run_leaves {activation : Activation} {context : TraceContext}
    {call : Callee} {rounds : Nat} {frame : Frame} {block : Block} {statement : Statement}
    (respects : activation.recorded.Respects) (sound : activation.recorded.Sound context)
    (body : activation.recorded.body = .statements block) (member : statement ∈ blockAll block)
    (proper : frame.Proper activation.recorded) :
    Gives (statement.run activation call rounds frame) fun result =>
      frame.Leaves activation.recorded statement.binders result.1 := by
  obtain ⟨bound, stands⟩ := @exists_stands_of_mem_blockAll block [] statement member
  obtain ⟨_, checked⟩ := stands.checked (sound.checked block body)
  exact Statement.run_leaves sound checked (fun target source stores =>
    respects.stores block target source body (stands.mem_blockAll_of_mem_all stores)) proper

end ShaderKit
