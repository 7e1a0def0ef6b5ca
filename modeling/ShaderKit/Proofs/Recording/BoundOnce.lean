import ShaderKit.Proofs.Recording.Dominance
import ShaderKit.Proofs.Recording.Proceeding
import ShaderKit.Proofs.Recording.References

/-!
# Binders are bound once

Every node of a recording is bound by one statement at most, and every variable is declared, or
counts the rounds of a loop, in one place. A recorder numbers expressions and variables as it
adds them, so what a part of a script binds was not known before that part, and is known after
it.
-/

namespace ShaderKit

/-! ## Binders of a block -/

mutual
/-- What a statement binds, also inside its blocks, and the counters of its loops. -/
def Statement.binders : Statement → List Binder
  | .emit node => [.node node.index]
  | .declare index _ => [.variable index]
  | .branch _ accept reject => blockBinders accept ++ blockBinders reject
  | .loop body => blockBinders body
  | .range counter _ _ body => .variable counter :: blockBinders body
  | _ => []

def blockBinders : List Statement → List Binder
  | [] => []
  | statement :: rest => statement.binders ++ blockBinders rest
end

theorem blockBinders_append (block more : Block) :
    blockBinders (block ++ more) = blockBinders block ++ blockBinders more := by
  induction block with
  | nil => rfl
  | cons statement rest induction =>
      rw [List.cons_append, blockBinders, blockBinders, induction, List.append_assoc]

theorem blockBinders_singleton (statement : Statement) :
    blockBinders [statement] = statement.binders := by
  rw [blockBinders, blockBinders, List.append_nil]

theorem Statement.binds_sublist (statement : Statement) :
    statement.binds.Sublist statement.binders := by
  cases statement with
  | emit | declare => exact .refl _
  | _ => exact List.nil_sublist _

/-- What is available where a statement stands, and what the statement binds, stand apart in the
block. -/
theorem Stands.sublist {available bound : List Binder} {block : Block} {statement : Statement}
    (stands : Stands available block bound statement) :
    (bound ++ statement.binders).Sublist (available ++ blockBinders block) := by
  induction stands with
  | here =>
      rw [blockBinders]
      exact (List.sublist_append_left _ _).append_left _
  | @later available _ first _ rest _ induction =>
      rw [List.append_assoc] at induction
      rw [blockBinders]
      exact induction.trans ((first.binds_sublist.append_right _).append_left available)
  | accept _ induction =>
      rw [blockBinders, Statement.binders, List.append_assoc]
      exact induction.trans ((List.sublist_append_left _ _).append_left _)
  | reject _ induction =>
      rw [blockBinders, Statement.binders, List.append_assoc]
      exact induction.trans (((List.sublist_append_left _ _).trans
        (List.sublist_append_right _ _)).append_left _)
  | loop _ induction =>
      rw [blockBinders, Statement.binders]
      exact induction.trans ((List.sublist_append_left _ _).append_left _)
  | range _ induction =>
      rw [List.append_assoc] at induction
      rw [blockBinders, Statement.binders]
      exact induction.trans ((List.sublist_append_left _ _).append_left _)

namespace Recorder

variable {around : Surroundings} {recorder before middle after : Recorder}

/-! ## What is new -/

def Knows (recorder : Recorder) : Binder → Prop
  | .node index => index < recorder.expressions.size
  | .variable number => number < recorder.locals.size

def Keeps (before after : Recorder) : Prop :=
  ∀ binder, before.Knows binder → after.Knows binder

theorem Preserves.keeps (preserves : before.Preserves after) : before.Keeps after
  | .node index, known => by
      have found := preserves.expressions index _ (Array.getElem?_eq_getElem known)
      exact (Array.getElem?_eq_some_iff.mp found).1
  | .variable _, known => Nat.lt_of_lt_of_le known preserves.locals

theorem keeps_withExpression (recorder : Recorder) (function : ShaderFunction)
    (expression : Expression) (type : TypeDescriptor) (reference : Option Reference) :
    recorder.Keeps (recorder.withExpression function expression type reference)
  | .node _, known => by
      rw [Knows, expressions_withExpression, Array.size_push]
      exact Nat.lt_succ_of_lt known
  | .variable _, known => by
      rw [Knows, locals_withExpression]
      exact known

/-- Binders that are different from each other, unknown before and known after. -/
structure Numbers (before after : Recorder) (binders : List Binder) : Prop where
  once : binders.Nodup
  unknown : ∀ binder ∈ binders, ¬ before.Knows binder
  known : ∀ binder ∈ binders, after.Knows binder

theorem Numbers.nil : before.Numbers after [] :=
  ⟨List.nodup_nil, nofun, nofun⟩

theorem Numbers.singleton {binder : Binder} (unknown : ¬ before.Knows binder)
    (known : after.Knows binder) : before.Numbers after [binder] where
  once := List.nodup_singleton binder
  unknown := List.forall_mem_singleton.mpr unknown
  known := List.forall_mem_singleton.mpr known

theorem Numbers.append {binders more : List Binder} (first : before.Numbers middle binders)
    (second : middle.Numbers after more) (earlier : before.Keeps middle)
    (later : middle.Keeps after) : before.Numbers after (binders ++ more) where
  once := List.nodup_append'.mpr ⟨first.once, second.once,
    fun _ member again => second.unknown _ again (first.known _ member)⟩
  unknown := List.forall_mem_append.mpr
    ⟨first.unknown, fun binder member known => second.unknown binder member (earlier _ known)⟩
  known := List.forall_mem_append.mpr
    ⟨fun binder member => later _ (first.known binder member), second.known⟩

theorem Numbers.outside {deeper : Nat} {binders : List Binder}
    (numbers : (before.opened deeper).Numbers after binders) :
    before.Numbers (after.closed deeper) binders :=
  ⟨numbers.once, numbers.unknown, numbers.known⟩

def AddsNew (before after : Recorder) : Prop :=
  ∃ added, after.blocks = (before.openBlock ++ added) :: before.blocks.tail ∧
    before.Numbers after (blockBinders added)

theorem blocks_eq (opened : recorder.blocks ≠ []) :
    recorder.blocks = recorder.openBlock :: recorder.blocks.tail := by
  unfold openBlock
  cases same : recorder.blocks with
  | nil => exact absurd same opened
  | cons block outer => rfl

namespace AddsNew

theorem opened (adds : before.AddsNew after) : after.blocks ≠ [] := by
  rcases adds with ⟨added, blocks, _⟩
  rw [blocks]
  exact List.cons_ne_nil _ _

theorem outer (adds : before.AddsNew after) : after.blocks.tail = before.blocks.tail := by
  rcases adds with ⟨added, blocks, _⟩
  rw [blocks, List.tail_cons]

theorem trans (first : before.AddsNew middle) (second : middle.AddsNew after)
    (earlier : before.Keeps middle) (later : middle.Keeps after) :
    before.AddsNew after := by
  rcases first with ⟨added, blocks, numbers⟩
  rcases second with ⟨more, moreBlocks, moreNumbers⟩
  refine ⟨added ++ more, ?_, ?_⟩
  · rw [moreBlocks, openBlock, blocks, List.head?_cons, Option.getD_some, List.tail_cons,
      List.append_assoc]
  · rw [blockBinders_append]
    exact numbers.append moreNumbers earlier later

theorem of_blocks (opened : before.blocks ≠ []) (same : after.blocks = before.blocks) :
    before.AddsNew after :=
  ⟨[], by rw [List.append_nil, same]; exact blocks_eq opened, .nil⟩

theorem addStatement {statement : Statement} (opened : before.blocks ≠ [])
    (same : after.blocks = before.blocks) (numbers : before.Numbers after statement.binders) :
    before.AddsNew (after.addStatement statement) := by
  refine ⟨[statement], ?_, ?_⟩
  · rw [Recorder.addStatement, same, blocks_eq opened]
    rfl
  · rw [blockBinders_singleton, addStatement_eq]
    exact ⟨numbers.once, numbers.unknown, numbers.known⟩

theorem openBlock (adds : before.AddsNew after) (empty : before.openBlock = []) :
    before.Numbers after (blockBinders after.openBlock) := by
  rcases adds with ⟨added, blocks, numbers⟩
  rw [empty, List.nil_append] at blocks
  rw [Recorder.openBlock, blocks]
  exact numbers

end AddsNew

/-! ## Changes bind what is new -/

theorem knows_push (recorder : Recorder) (entry : ExpressionEntry) :
    (recorder.push entry).Knows (.node recorder.expressions.size) := by
  simp [Knows, push]

theorem knows_withLocal (recorder : Recorder) (declared : LocalVariable) :
    (Recording.withLocal recorder declared).Knows (.variable recorder.locals.size) := by
  simp [Knows, Recording.withLocal]

theorem addsNew_withExpression (opened : recorder.blocks ≠ []) (function : ShaderFunction)
    (expression : Expression) (type : TypeDescriptor) (reference : Option Reference) :
    recorder.AddsNew (recorder.withExpression function expression type reference) := by
  unfold withExpression
  dsimp only
  split
  next => exact .of_blocks opened rfl
  next => exact .addStatement opened rfl (.singleton (Nat.lt_irrefl _) (knows_push recorder _))

theorem addsNew_withVariable (opened : recorder.blocks ≠ []) (function : ShaderFunction)
    (declared : LocalVariable) (initial : Option Node) :
    recorder.AddsNew (recorder.withVariable function declared initial) := by
  have declares : recorder.AddsNew ((Recording.withLocal recorder declared).addStatement
      (.declare recorder.locals.size initial)) :=
    .addStatement opened rfl (.singleton (Nat.lt_irrefl _) (knows_withLocal recorder declared))
  exact declares.trans (addsNew_withExpression declares.opened _ _ _ _)
    ((preserves_withLocal recorder declared).addStatement _).keeps (keeps_withExpression _ _ _ _ _)

theorem numbers_counting (recorder : Recorder) (function : ShaderFunction)
    (type : TypeDescriptor) :
    recorder.Numbers (recorder.counting function type) [.variable recorder.locals.size] :=
  .singleton (Nat.lt_irrefl _)
    (keeps_withExpression _ _ _ _ _ (.variable recorder.locals.size)
      (knows_withLocal recorder ⟨none, type⟩))

/-- Recording only binds what is new, by cases on the changes that it makes. -/
theorem Becomes.addsNew (becomes : before.Becomes around after) (opened : before.blocks ≠ []) :
    before.AddsNew after := by
  induction becomes with
  | refl => exact .of_blocks opened rfl
  | trans first second firstAdds secondAdds =>
      have adds := firstAdds opened
      exact adds.trans (secondAdds adds.opened) first.preserves.keeps second.preserves.keeps
  | expression type reference => exact addsNew_withExpression opened _ _ _ _
  | @statement recorder statement plain _ permitted =>
      apply AddsNew.addStatement opened rfl
      cases statement with
      | emit | declare => exact False.elim permitted
      | branch | loop | range => cases plain
      | _ => exact .nil
  | declared => exact addsNew_withVariable opened _ _ _
  | branch _ accept reject acceptAdds rejectAdds =>
      have accepts := acceptAdds (List.cons_ne_nil _ _)
      have rejects := rejectAdds (List.cons_ne_nil _ _)
      apply AddsNew.addStatement opened (rejects.outer.trans accepts.outer)
      exact (accepts.openBlock rfl).outside.append (rejects.openBlock rfl).outside
        accept.preserves.around.keeps reject.preserves.around.keeps
  | loop body bodyAdds =>
      have adds := bodyAdds (List.cons_ne_nil _ _)
      exact .addStatement opened adds.outer (adds.openBlock rfl).outside
  | @range recorder finish type _ _ body bodyAdds =>
      have adds := bodyAdds (List.cons_ne_nil _ _)
      have numbers := (numbers_counting recorder _ type).append (adds.openBlock rfl)
        (preserves_counting _ _ _).keeps body.preserves.keeps
      exact .addStatement opened adds.outer ⟨numbers.once, numbers.unknown, numbers.known⟩
  | dropped deeper _ insideAdds =>
      exact .of_blocks opened (insideAdds (List.cons_ne_nil _ _)).outer
  | droppedRange _ insideAdds =>
      exact .of_blocks opened (insideAdds (List.cons_ne_nil _ _)).outer
  | localVariable | constant | helper | binding | register | journal | traced | untraced =>
      exact .of_blocks opened rfl

end Recorder

/-! ## Finished recordings -/

/-- A recording that binds every node and every variable in one place. -/
def RecordedFunction.BindsOnce (recorded : RecordedFunction) : Prop :=
  ∀ block, recorded.body = .statements block → (blockBinders block).Nodup

theorem Program.Makes.bindsOnce {program : Program} {function : ShaderFunction}
    {recorded : RecordedFunction} (makes : program.Makes function recorded) :
    recorded.BindsOnce := by
  intro block body
  rcases makes.cases with ⟨text, _, callees, _, rfl⟩ | ⟨script, result, depth, _, final, _, worked⟩
  · cases body
  · have becomes := (Tracing.scriptWork_follows _ script result _).becomes_of_ok worked
    have adds := becomes.addsNew (List.cons_ne_nil _ _)
    rw [Tracing.scriptWork_recorded worked] at body
    cases body
    exact (adds.openBlock rfl).once

end ShaderKit
