import ShaderKit.Proofs.Host.Moments
import ShaderKit.Proofs.Recording.Invariant

/-!
# Definitions dominate uses

In a checked body, whatever a statement uses was bound or declared earlier, in the block of the
statement or in a block around it.
-/

namespace ShaderKit

/-- A statement stands in a block, or in a block inside it, where some binders are available:
those of the statements before it in the same block and before the blocks around it, and the
counters of the loops around it. -/
inductive Stands : List Binder → Block → List Binder → Statement → Prop where
  | here {available : List Binder} {statement : Statement} {rest : Block} :
      Stands available (statement :: rest) available statement
  | later {available bound : List Binder} {first statement : Statement} {rest : Block}
      (stands : Stands (available ++ first.binds) rest bound statement) :
      Stands available (first :: rest) bound statement
  | accept {available bound : List Binder} {condition : Node} {accept reject rest : Block}
      {statement : Statement} (stands : Stands available accept bound statement) :
      Stands available (.branch condition accept reject :: rest) bound statement
  | reject {available bound : List Binder} {condition : Node} {accept reject rest : Block}
      {statement : Statement} (stands : Stands available reject bound statement) :
      Stands available (.branch condition accept reject :: rest) bound statement
  | loop {available bound : List Binder} {body rest : Block} {statement : Statement}
      (stands : Stands available body bound statement) :
      Stands available (.loop body :: rest) bound statement
  | range {available bound : List Binder} {counter : Nat} {first last : Node}
      {body rest : Block} {statement : Statement}
      (stands : Stands (available ++ [.variable counter]) body bound statement) :
      Stands available (.range counter first last body :: rest) bound statement

/-- The nodes that a statement uses: its operands, or those of the expression that it binds. -/
def RecordedFunction.uses (recorded : RecordedFunction) : Statement → List Node
  | .emit node => (recorded.entry? node).elim [] fun entry => entry.expression.operands
  | statement => statement.operands

theorem Stands.checked {inventory : Inventory} {available bound : List Binder} {block : Block}
    {statement : Statement} (stands : Stands available block bound statement) :
    ∀ {inLoop : Prop}, BlockChecked inventory inLoop available block →
      ∃ inner, statement.Checked inventory inner bound := by
  induction stands with
  | here =>
      intro inLoop checked
      simp only [BlockChecked] at checked
      exact ⟨inLoop, checked.1⟩
  | later _ induction =>
      intro inLoop checked
      simp only [BlockChecked] at checked
      exact induction checked.2
  | accept _ induction =>
      intro inLoop checked
      simp only [BlockChecked, Statement.Checked] at checked
      exact induction checked.1.2.1
  | reject _ induction =>
      intro inLoop checked
      simp only [BlockChecked, Statement.Checked] at checked
      exact induction checked.1.2.2
  | loop _ induction =>
      intro inLoop checked
      simp only [BlockChecked, Statement.Checked] at checked
      exact induction checked.1
  | range _ induction =>
      intro inLoop checked
      simp only [BlockChecked, Statement.Checked] at checked
      rcases checked.1 with ⟨_, _, _, _, _, body⟩
      exact induction body

/-- What a checked statement uses is available where it stands. -/
theorem Statement.Checked.ready {recorded : RecordedFunction} {context : TraceContext}
    {inLoop : Prop} {bound : List Binder} {statement : Statement}
    (checked : statement.Checked (recorded.inventory context) inLoop bound) :
    ∀ node ∈ recorded.uses statement, Ready recorded.expressions bound node.index := by
  intro node member
  cases statement with
  | emit emitted =>
      simp only [Statement.Checked] at checked
      rcases checked with ⟨entry, found, _, operands⟩
      change recorded.entry? emitted = some entry at found
      rw [RecordedFunction.uses, found] at member
      exact operands node member
  | declare index initial =>
      simp only [Statement.Checked] at checked
      rcases checked with ⟨_, _, operand⟩
      exact (operand node (Option.mem_toList.mp member)).ready
  | store target source =>
      simp only [Statement.Checked] at checked
      rcases checked with ⟨_, _, usable, operand⟩
      rcases List.mem_cons.mp member with rfl | member
      · exact usable.ready
      · rw [List.mem_singleton.mp member]
        exact operand.ready
  | callVoid callee arguments =>
      simp only [Statement.Checked] at checked
      rcases checked with ⟨_, _, operands⟩
      rcases exists_right_of_mem operands member with ⟨_, operand⟩
      exact operand.ready
  | branch condition accept reject =>
      simp only [Statement.Checked] at checked
      rw [List.mem_singleton.mp member]
      exact checked.1.ready
  | range counter first last body =>
      simp only [Statement.Checked] at checked
      rcases checked with ⟨_, _, _, firstOperand, lastOperand, _⟩
      rcases List.mem_cons.mp member with rfl | member
      · exact firstOperand.ready
      · rw [List.mem_singleton.mp member]
        exact lastOperand.ready
  | giveBack result =>
      cases result with
      | none => cases member
      | some value =>
          simp only [Statement.Checked] at checked
          rcases checked with ⟨_, _, operand⟩
          rw [List.mem_singleton.mp member]
          exact operand.ready
  | loop | leaveLoop | nextRound | discard => cases member

end ShaderKit
