import ShaderKit.Proofs.Recording.Calls

/-!
# Blocks keep the invariant

A block is recorded with a scope of its own. When it is closed, also after a failure, the
recording is back in the block around it: what was bound inside stays in the list, but no
open block shows it any more.
-/

namespace ShaderKit

namespace Recorder

def opened (recorder : Recorder) (deeper : Nat) : Recorder :=
  { recorder with
    scopeCounter := recorder.scopeCounter + 1
    scopes := (recorder.scopeCounter + 1) :: recorder.scopes
    blocks := [] :: recorder.blocks
    loopDepth := recorder.loopDepth + deeper }

def closed (recorder : Recorder) (deeper : Nat) : Recorder :=
  { recorder with
    scopes := recorder.scopes.tail
    blocks := recorder.blocks.tail
    loopDepth := recorder.loopDepth - deeper }

end Recorder

def Setting.within (setting : Setting) (outer : List Binder) : Setting :=
  { setting with outer := outer }

namespace Recorder

variable {setting : Setting} {start finish : Recorder} {deeper : Nat} {extra : List Binder}

theorem Sound.opened_sound (sound : start.Sound setting) (deeper : Nat) (extra : List Binder) :
    (start.opened deeper).Sound (setting.within (start.available setting ++ extra)) where
  context := sound.context
  entries := sound.entries
  opened := List.cons_ne_nil _ _
  checked := by
    change BlockChecked _ _ _ []
    simp only [BlockChecked]
  visible index entry found shows := by
    have shown : start.Shows entry := by
      rcases shows with everywhere | inside
      · exact .inl everywhere
      · rcases List.mem_cons.mp inside with same | inside
        · have below := sound.bounded index entry found
          omega
        · exact .inr inside
    apply (sound.visible index entry found shown).mono fun _ _ found => found
    intro binder member
    exact List.mem_append_left _ (List.mem_append_left _ member)
  nested := List.cons_ne_nil _ _
  counted scope member := by
    rcases List.mem_cons.mp member with rfl | inside
    · exact ⟨Nat.succ_pos _, Nat.le_refl _⟩
    · exact ⟨(sound.counted scope inside).1, Nat.le_succ_of_le (sound.counted scope inside).2⟩
  bounded index entry found := Nat.le_succ_of_le (sound.bounded index entry found)

theorem Grows.closed_openBlock
    (grows : (start.opened deeper).Grows finish setting.function) :
    (finish.closed deeper).blocks = start.blocks :=
  grows.outer

theorem Grows.closed (grows : (start.opened deeper).Grows finish setting.function) :
    start.Grows (finish.closed deeper) setting.function where
  inventory := grows.inventory
  block := ⟨[], by rw [openBlock, grows.closed_openBlock, List.append_nil]; rfl⟩
  outer := by rw [grows.closed_openBlock]
  scopes := by
    have scopes := grows.scopes
    rw [Recorder.closed, scopes]
    rfl
  loopDepth := by
    have depth := grows.loopDepth
    rw [Recorder.closed, depth]
    exact Nat.add_sub_cancel _ _
  counter := Nat.le_of_succ_le grows.counter
  fresh index entry found := by
    rcases grows.fresh index entry found with old | isGlobal | same | later
    · exact .inl old
    · exact .inr (.inl isGlobal)
    · exact .inr (.inr (.inr (same ▸ Nat.lt_succ_self _)))
    · exact .inr (.inr (.inr (Nat.lt_of_succ_lt later)))

theorem Sound.closed_sound {outer : List Binder} (sound : start.Sound setting)
    (inner : finish.Sound (setting.within outer))
    (grows : (start.opened deeper).Grows finish setting.function) :
    (finish.closed deeper).Sound setting where
  context := inner.context
  entries := inner.entries
  opened := by
    rw [grows.closed_openBlock]
    exact sound.opened
  checked := by
    rw [openBlock, grows.closed_openBlock, grows.closed.loopDepth]
    exact sound.checked.mono grows.closed.inventory id
  visible index entry found shows := by
    have same : (finish.closed deeper).available setting = start.available setting := by
      rw [available, openBlock, grows.closed_openBlock]
      rfl
    rw [same]
    -- an entry of the closed block has a scope that no open block has
    have hidden : start.scopeCounter < entry.scope → False := by
      intro later
      rcases shows with everywhere | inside
      · rw [everywhere] at later
        exact Nat.not_lt_zero _ later
      · rw [grows.closed.scopes] at inside
        exact Nat.not_lt.mpr (sound.counted _ inside).2 later
    rcases grows.fresh index entry found with old | isGlobal | same | later
    · have shown : start.Shows entry := by
        rw [Shows, ← grows.closed.scopes]
        exact shows
      exact (sound.visible index entry old shown).mono grows.inventory.expressions
        fun _ inside => inside
    · exact .of_isGlobal found isGlobal
    · exact (hidden (same ▸ Nat.lt_succ_self _)).elim
    · exact (hidden (Nat.lt_of_succ_lt later)).elim
  nested := by
    rw [grows.closed.scopes]
    exact sound.nested
  counted scope member := by
    rw [grows.closed.scopes] at member
    exact ⟨(sound.counted scope member).1,
      Nat.le_trans (sound.counted scope member).2 grows.closed.counter⟩
  bounded := inner.bounded

end Recorder

namespace Recording

open Recorder

variable {setting : Setting} {start : Recorder}

/-! ## Opening and closing -/

/-- Recording inside a block, which may be the body of a loop. -/
def inside (deeper : Nat) (body : Recording Unit) : Recording Block := fun recorder =>
  match body (recorder.opened deeper) with
  | .ok () finish => .ok finish.openBlock (finish.closed deeper)
  | .error error finish => .error error (finish.closed deeper)

theorem inBlock_eq (body : Recording Unit) : inBlock body = inside 0 body := by
  rfl

theorem looped_eq (body : Recording Unit) : looped body = inside 1 body := by
  funext recorder
  have entered : inBlock body { recorder with loopDepth := recorder.loopDepth + 1 } =
      match body (recorder.opened 1) with
      | .ok () finish => .ok finish.openBlock (finish.closed 0)
      | .error error finish => .error error (finish.closed 0) := rfl
  unfold looped inside
  rw [entered]
  cases body (recorder.opened 1) <;> rfl

theorem available_of_openBlock {start finish : Recorder}
    (same : finish.openBlock = start.openBlock) :
    finish.available setting = start.available setting := by
  rw [available, same]
  rfl

/-- What a block is made of may use all that is available around it. -/
theorem inside_meets {body : Recording Unit} {deeper : Nat} {extra : List Binder}
    {post : Unit → Recorder → Prop} (sound : start.Sound setting)
    (meets : Meets (setting.within (start.available setting ++ extra)) body
      (start.opened deeper) post) :
    Meets setting (inside deeper body) start fun block finish =>
      finish.openBlock = start.openBlock ∧
        BlockChecked (finish.inventory setting.function) (finish.loopDepth + deeper ≠ 0)
          (finish.available setting ++ extra) block := by
  rcases meets.ends with ⟨result, finish, ran, inner, grows, _⟩ | ⟨error, finish, ran, inner, grows⟩
  · have closed : inside deeper body start = .ok finish.openBlock (finish.closed deeper) := by
      rw [inside, ran]
    have same : (finish.closed deeper).openBlock = start.openBlock := by
      rw [openBlock, grows.closed_openBlock]
      rfl
    refine .of_ok closed (sound.closed_sound inner grows) grows.closed ⟨same, ?_⟩
    have depth : finish.loopDepth = (finish.closed deeper).loopDepth + deeper := by
      rw [grows.closed.loopDepth]
      exact grows.loopDepth
    rw [available_of_openBlock same, ← depth]
    exact inner.checked
  · have closed : inside deeper body start = .error error (finish.closed deeper) := by
      rw [inside, ran]
    exact .of_error closed (sound.closed_sound inner grows) grows.closed

/-- Work that keeps the invariant wherever it starts, in any block of the function. -/
def Keeps (program : Program) (function : ShaderFunction) (work : Recording Unit) : Prop :=
  ∀ (outer : List Binder) start, start.Sound ⟨program, function, outer⟩ →
    Meets ⟨program, function, outer⟩ work start fun _ _ => True

theorem inBlock_meets {body : Recording Unit}
    (keeps : Keeps setting.program setting.function body) (sound : start.Sound setting) :
    Meets setting (inBlock body) start fun block finish =>
      finish.openBlock = start.openBlock ∧
        BlockChecked (finish.inventory setting.function) (finish.loopDepth ≠ 0)
          (finish.available setting) block := by
  rw [inBlock_eq]
  apply (inside_meets sound (keeps _ _ (sound.opened_sound 0 []))).imp
  rintro block finish ⟨same, checked⟩
  rw [List.append_nil] at checked
  exact ⟨same, checked⟩

/-! ## Statements with blocks -/

theorem condition_meets (sound : start.Sound setting) (source : Operand) :
    Meets setting (condition setting.function source) start fun node finish =>
      finish.Operand setting node .bool := by
  apply Meets.bind (operandValue_meets sound source)
  intro source start sound _ known
  apply Meets.bind (typeOf_operand sound known)
  rintro type start _ _ ⟨rfl, operand⟩
  split
  next => exact .refuse sound
  next isBool =>
    have isBool : type = .bool := Decidable.not_not.mp isBool
    exact .pure sound (isBool ▸ operand)

theorem branch_meets {accept reject : Recording Unit}
    (acceptKeeps : Keeps setting.program setting.function accept)
    (rejectKeeps : Keeps setting.program setting.function reject)
    (sound : start.Sound setting) (test : Operand) :
    Meets setting (branch setting.function test accept reject) start fun _ _ => True := by
  apply Meets.bind (condition_meets sound test)
  intro test start sound _ operand
  apply Meets.bind (inBlock_meets acceptKeeps sound)
  rintro accept start sound firstGrows ⟨_, acceptChecked⟩
  apply Meets.bind (inBlock_meets rejectKeeps sound)
  rintro reject finish finishSound grows ⟨same, rejectChecked⟩
  refine Meets.imp (addStatement_meets finishSound ?_) fun _ _ _ => trivial
  simp only [Statement.Checked]
  refine ⟨(operand.grow firstGrows).grow grows, ?_, rejectChecked⟩
  rw [available_of_openBlock same, grows.loopDepth]
  exact acceptChecked.mono grows.inventory id

theorem looped_meets {body : Recording Unit} {extra : List Binder}
    {post : Unit → Recorder → Prop} (sound : start.Sound setting)
    (meets : Meets (setting.within (start.available setting ++ extra)) body
      (start.opened 1) post) :
    Meets setting (looped body) start fun block finish =>
      finish.openBlock = start.openBlock ∧
        BlockChecked (finish.inventory setting.function) True
          (finish.available setting ++ extra) block := by
  rw [looped_eq]
  apply (inside_meets sound meets).imp
  rintro block finish ⟨same, checked⟩
  exact ⟨same, checked.mono (.refl _) fun _ => trivial⟩

theorem loop_meets {body : Recording Unit} (keeps : Keeps setting.program setting.function body)
    (sound : start.Sound setting) :
    Meets setting (loop body) start fun _ _ => True := by
  have inner := sound.opened_sound 1 []
  apply Meets.bind (looped_meets sound (keeps _ _ inner))
  rintro block finish finishSound _ ⟨_, checked⟩
  refine Meets.imp (addStatement_meets finishSound ?_) fun _ _ _ => trivial
  simp only [Statement.Checked]
  rw [List.append_nil] at checked
  exact checked

theorem counterValue_meets {counter : Nat} {declared : LocalVariable}
    (sound : start.Sound setting) (found : start.locals[counter]? = some declared)
    (available : .variable counter ∈ start.available setting) :
    Meets setting (counterValue setting.function counter declared.type) start
      fun _ _ => True := by
  have types : (start.inventory setting.function).Types (.localVariable counter) declared.type
      (some ⟨.read, .localVariable⟩) := .localVariable found .read
  have fits : start.Fits setting (.localVariable counter) := by
    constructor
    · intro operand member
      cases member
    · intro number same
      cases same
      exact available
  apply Meets.bind (addExpression_meets sound types fits)
  intro reference finish finishSound _ _
  exact (value_operand finishSound reference).imp fun _ _ _ => trivial

theorem range_meets {body : Node → Recording Unit}
    (keeps : ∀ node, Keeps setting.program setting.function (body node))
    (sound : start.Sound setting) (first last : Operand) :
    Meets setting (range setting.function first last body) start fun _ _ => True := by
  apply Meets.bind (operandValue_meets sound first)
  rintro first start sound _ ⟨firstKnown, firstOperand⟩
  apply Meets.bind (operandValue_meets sound last)
  intro last start sound grows lastKnown
  apply Meets.bind (typeOf_operand sound ⟨firstKnown, firstOperand.grow grows⟩)
  rintro type start _ _ ⟨rfl, firstOperand⟩
  apply Meets.bind (typeOf_operand sound lastKnown)
  rintro lastType start _ _ ⟨rfl, lastOperand⟩
  split
  next => exact .refuse sound
  next accepted =>
    rw [Bool.or_eq_true, not_or, decide_eq_true_eq, Decidable.not_not, Bool.not_eq_true,
      Bool.not_eq_false'] at accepted
    rcases accepted with ⟨rfl, integer⟩
    apply Meets.get_bind
    let declared : LocalVariable := ⟨none, type⟩
    apply Meets.bind (Meets.become (withLocal_sound sound declared)
      (withLocal_grows start declared setting.function))
    rintro _ _ withSound withGrows rfl
    have found := getElem?_withLocal start declared
    have inner := withSound.opened_sound 1 [.variable start.locals.size]
    have counterOk := @counterValue_meets _ _ start.locals.size declared inner found <| by
      apply List.mem_append_left
      exact List.mem_append_right _ List.mem_cons_self
    have bodyMeets := counterOk.bind fun node state stateSound _ _ =>
      keeps node _ state stateSound
    apply Meets.bind (looped_meets withSound bodyMeets)
    rintro block finish finishSound finishGrows ⟨_, checked⟩
    have grown := withGrows.trans finishGrows
    refine Meets.imp (addStatement_meets finishSound ?_) fun _ _ _ => trivial
    simp only [Statement.Checked]
    exact ⟨declared, finishGrows.inventory.locals _ _ found, integer, firstOperand.grow grown,
      lastOperand.grow grown, checked⟩

/-! ## Leaving -/

theorem leaveLoop_meets (sound : start.Sound setting) :
    Meets setting (leaveLoop setting.function) start fun _ _ => True := by
  apply Meets.get_bind
  split
  next => exact .refuse sound
  next inLoop =>
    refine Meets.imp (addStatement_meets sound ?_) fun _ _ _ => trivial
    simp only [Statement.Checked]
    exact inLoop

theorem nextRound_meets (sound : start.Sound setting) :
    Meets setting (nextRound setting.function) start fun _ _ => True := by
  apply Meets.get_bind
  split
  next => exact .refuse sound
  next inLoop =>
    refine Meets.imp (addStatement_meets sound ?_) fun _ _ _ => trivial
    simp only [Statement.Checked]
    exact inLoop

theorem giveBack_meets (sound : start.Sound setting) (result : Option Node) :
    Meets setting (giveBack setting.function result) start fun _ _ => True := by
  unfold giveBack
  split
  next =>
    split
    next => exact .throw sound
    next noResult =>
      refine Meets.imp (addStatement_meets sound ?_) fun _ _ _ => trivial
      simp only [Statement.Checked]
      exact Option.not_isSome_iff_eq_none.mp noResult
  next node =>
    apply Meets.bind (value_operand sound node)
    intro node start sound _ known
    apply Meets.bind (typeOf_operand sound known)
    rintro type start _ _ ⟨rfl, operand⟩
    split
    next => exact .throw sound
    next fits =>
      refine Meets.imp (addStatement_meets sound ?_) fun _ _ _ => trivial
      simp only [Statement.Checked]
      exact ⟨type, Decidable.not_not.mp fits, operand⟩

theorem discardFragment_meets (sound : start.Sound setting) :
    Meets setting (discardFragment setting.function) start fun _ _ => True := by
  unfold discardFragment
  split
  next => exact .refuse sound
  next =>
    refine Meets.imp (addStatement_meets sound ?_) fun _ _ _ => trivial
    simp only [Statement.Checked]

/-! ## The end of a recording -/

theorem finish_some (function : ShaderFunction) (node : Node) :
    finish function (some node) =
      giveBack function (some node) >>= fun _ => finish function none := by
  rfl

theorem finish_none_meets (sound : start.Sound setting) (outermost : setting.outer = [])
    (unlooped : start.loopDepth = 0) :
    Meets setting (finish setting.function none) start fun recorded final =>
      recorded.function = setting.function ∧ recorded.Sound final.session.context := by
  unfold finish
  apply Meets.get_bind
  dsimp only
  split
  next => exact .throw sound
  next returns =>
    rw [Bool.and_eq_true, not_and, Bool.not_eq_true', Bool.not_eq_false] at returns
    refine .pure sound ⟨rfl, sound.entries, ?_, ?_⟩
    · rintro block ⟨⟩
      have checked := sound.checked
      rw [outermost] at checked
      exact checked.mono (.refl _) fun deep => deep unlooped
    · rintro block ⟨⟩ hasResult
      exact returns hasResult

theorem finish_meets (sound : start.Sound setting) (outermost : setting.outer = [])
    (unlooped : start.loopDepth = 0) (result : Option Node) :
    Meets setting (finish setting.function result) start fun recorded final =>
      recorded.function = setting.function ∧ recorded.Sound final.session.context := by
  cases result with
  | none => exact finish_none_meets sound outermost unlooped
  | some node =>
      rw [finish_some]
      apply Meets.bind (giveBack_meets sound (some node))
      intro _ final finalSound grows _
      exact finish_none_meets finalSound outermost (grows.loopDepth.trans unlooped)

end Recording

end ShaderKit
