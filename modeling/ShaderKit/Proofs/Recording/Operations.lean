import ShaderKit.Proofs.Recording.Constants
import ShaderKit.Proofs.Recording.Invariant

/-!
# Operations on values keep the invariant
-/

namespace ShaderKit

open Recording

/-! ## Adding an expression -/

namespace Recorder

def push (recorder : Recorder) (entry : ExpressionEntry) : Recorder :=
  { recorder with expressions := recorder.expressions.push entry }

structure Fits (recorder : Recorder) (setting : Setting) (expression : Expression) : Prop where
  operands : ∀ operand ∈ expression.operands, operand.index < recorder.expressions.size ∧
    Ready recorder.expressions (recorder.available setting) operand.index
  declared : ∀ number, expression = .localVariable number →
    .variable number ∈ recorder.available setting

variable {setting : Setting} {start : Recorder} {entry : ExpressionEntry}
  {expression : Expression}

theorem Fits.of_usable (usable : ∀ operand ∈ expression.operands, ∃ type reference,
      start.Usable setting operand type reference)
    (notVariable : ∀ number, expression ≠ .localVariable number) :
    start.Fits setting expression where
  operands operand member := by
    rcases usable operand member with ⟨type, reference, known⟩
    exact ⟨known.index_lt, known.ready⟩
  declared number same := absurd same (notVariable number)

theorem getElem?_push (index : Nat) : (start.push entry).expressions[index]? =
    if index = start.expressions.size then some entry else start.expressions[index]? :=
  Array.getElem?_push

theorem inventory_push (start : Recorder) (entry : ExpressionEntry) (function : ShaderFunction) :
    (start.inventory function).Extends ((start.push entry).inventory function) where
  context := .refl _
  function := rfl
  expressions index old found := by
    have below : index < start.expressions.size := (Array.getElem?_eq_some_iff.mp found).1
    have lookup : (start.push entry).expressions[index]? = start.expressions[index]? := by
      rw [getElem?_push, if_neg (Nat.ne_of_lt below)]
    exact lookup.trans found
  locals _ _ found := found

theorem Grows.push {function : ShaderFunction}
    (scope : entry.expression.isGlobal = true ∨ entry.scope = start.currentScope) :
    start.Grows (start.push entry) function where
  inventory := inventory_push start entry function
  block := ⟨[], (List.append_nil _).symm⟩
  outer := rfl
  scopes := rfl
  loopDepth := rfl
  counter := Nat.le_refl _
  fresh index found known := by
    rw [getElem?_push] at known
    split at known
    next =>
      cases known
      rcases scope with isGlobal | same
      · exact .inr (.inl isGlobal)
      · exact .inr (.inr (.inl same))
    next => exact .inl known

theorem entries_push (sound : start.Sound setting)
    (types : (start.inventory setting.function).Types entry.expression entry.type entry.reference)
    (fits : start.Fits setting entry.expression) :
    ∀ (index : Nat) known, (start.push entry).expressions[index]? = some known →
      ((start.push entry).inventory setting.function).EntrySound index known := by
  intro index known found
  rw [getElem?_push] at found
  split at found
  next same =>
    cases found
    refine ⟨types.mono (inventory_push start entry setting.function), ?_⟩
    intro operand member
    rw [same]
    exact (fits.operands operand member).1
  next => exact (sound.entries index known found).mono (inventory_push start entry setting.function)

theorem visible_push (sound : start.Sound setting) (index : Nat) (known : ExpressionEntry)
    (found : (start.push entry).expressions[index]? = some known)
    (shows : (start.push entry).Shows known) :
    (index = start.expressions.size ∧ known = entry) ∨
      Ready (start.push entry).expressions (start.available setting) index := by
  rw [getElem?_push] at found
  split at found
  next same =>
    cases found
    exact .inl ⟨same, rfl⟩
  next =>
    exact .inr ((sound.visible index known found shows).mono
      (inventory_push start entry setting.function).expressions fun _ inside => inside)

theorem operands_push (fits : start.Fits setting entry.expression) :
    ∀ operand ∈ entry.expression.operands,
      Ready (start.push entry).expressions (start.available setting) operand.index := by
  intro operand member
  exact (fits.operands operand member).2.mono
    (inventory_push start entry setting.function).expressions fun _ inside => inside

theorem bounded_push (sound : start.Sound setting)
    (scope : entry.scope = globalScope ∨ entry.scope ∈ start.scopes) :
    ∀ (index : Nat) known, (start.push entry).expressions[index]? = some known →
      known.scope ≤ start.scopeCounter := by
  intro index known found
  rw [getElem?_push] at found
  split at found
  next =>
    cases found
    rcases scope with everywhere | inside
    · rw [everywhere]
      exact Nat.zero_le _
    · exact (sound.counted _ inside).2
  next => exact sound.bounded index known found

theorem Sound.pushInlined (sound : start.Sound setting)
    (types : (start.inventory setting.function).Types entry.expression entry.type entry.reference)
    (fits : start.Fits setting entry.expression) (shows : start.Shows entry)
    (inlined : entry.isInlined = true) : (start.push entry).Sound setting where
  context := sound.context
  entries := entries_push sound types fits
  opened := sound.opened
  checked := sound.checked.mono (inventory_push start entry setting.function) id
  visible index known found shown := by
    rcases visible_push sound index known found shown with ⟨rfl, rfl⟩ | ready
    · exact .inlined found inlined fits.declared (operands_push fits)
    · exact ready
  nested := sound.nested
  counted := sound.counted
  bounded := bounded_push sound shows

theorem Sound.pushBound (sound : start.Sound setting) {node : Node}
    (types : (start.inventory setting.function).Types entry.expression entry.type entry.reference)
    (fits : start.Fits setting entry.expression) (shows : start.Shows entry)
    (bound : entry.isInlined = false) (last : node.index = start.expressions.size) :
    ((start.push entry).addStatement (.emit node)).Sound setting := by
  have opened : (start.push entry).blocks ≠ [] := sound.opened
  constructor
  case context =>
    rw [addStatement_eq]
    exact sound.context
  case entries =>
    intro index known found
    rw [inventory_addStatement]
    rw [addStatement_eq] at found
    exact entries_push sound types fits index known found
  case opened => exact (blocks_addStatement opened).1
  case checked =>
    rw [inventory_addStatement, openBlock_addStatement opened, addStatement_eq]
    apply (sound.checked.mono (inventory_push start entry setting.function) id).concat
    simp only [Statement.Checked]
    refine ⟨entry, ?_, bound, operands_push fits⟩
    rw [last]
    exact (getElem?_push start.expressions.size).trans (if_pos rfl)
  case visible =>
    intro index known found shown
    rw [available_addStatement opened, addStatement_eq]
    rw [addStatement_eq] at found shown
    rcases visible_push sound index known found shown with ⟨rfl, _⟩ | ready
    · apply Ready.bound
      rw [Statement.binds, last]
      exact List.mem_append_right _ List.mem_cons_self
    · exact ready.mono (fun _ _ found => found) fun _ inside => List.mem_append_left _ inside
  case nested =>
    rw [addStatement_eq]
    exact sound.nested
  case counted =>
    rw [addStatement_eq]
    exact sound.counted
  case bounded =>
    rw [addStatement_eq]
    exact bounded_push sound shows

/-! ## Changes beside the recorded function -/

structure Agrees (before after : Recorder) : Prop where
  expressions : after.expressions = before.expressions
  blocks : after.blocks = before.blocks
  scopes : after.scopes = before.scopes
  counter : after.scopeCounter = before.scopeCounter
  loopDepth : after.loopDepth = before.loopDepth

variable {before after : Recorder}

theorem Agrees.grows {function : ShaderFunction} (agrees : before.Agrees after)
    (inventory : (before.inventory function).Extends (after.inventory function)) :
    before.Grows after function where
  inventory := inventory
  block := ⟨[], by rw [openBlock, agrees.blocks, List.append_nil]; rfl⟩
  outer := by rw [agrees.blocks]
  scopes := agrees.scopes
  loopDepth := agrees.loopDepth
  counter := Nat.le_of_eq agrees.counter.symm
  fresh index entry found := by
    rw [agrees.expressions] at found
    exact .inl found

theorem Agrees.sound (agrees : before.Agrees after)
    (inventory : (before.inventory setting.function).Extends (after.inventory setting.function))
    (context : after.session.context.Sound setting.program) (sound : before.Sound setting) :
    after.Sound setting where
  context := context
  entries index entry found := by
    rw [agrees.expressions] at found
    exact (sound.entries index entry found).mono inventory
  opened := by
    rw [agrees.blocks]
    exact sound.opened
  checked := by
    rw [agrees.loopDepth, openBlock, agrees.blocks]
    exact sound.checked.mono inventory id
  visible := by
    unfold Shows available openBlock
    rw [agrees.expressions, agrees.scopes, agrees.blocks]
    exact sound.visible
  nested := by
    rw [agrees.scopes]
    exact sound.nested
  counted := by
    rw [agrees.scopes, agrees.counter]
    exact sound.counted
  bounded := by
    rw [agrees.expressions, agrees.counter]
    exact sound.bounded

end Recorder

namespace Recording

open Recorder

variable {setting : Setting} {start : Recorder}

theorem addStatement_meets (sound : start.Sound setting) {statement : Statement}
    (checked : statement.Checked (start.inventory setting.function) (start.loopDepth ≠ 0)
      (start.available setting)) :
    Meets setting (addStatement statement) start fun _ finish =>
      finish = start.addStatement statement :=
  .modify (sound.addStatement checked) (.addStatement sound.opened)

theorem modify_meets (sound : start.Sound setting) {change : Recorder → Recorder}
    (agrees : start.Agrees (change start))
    (same : (change start).inventory setting.function = start.inventory setting.function) :
    Meets setting (modify change) start fun _ finish => finish = change start := by
  have inventory : (start.inventory setting.function).Extends
      ((change start).inventory setting.function) := by
    rw [same]
    exact .refl _
  have context : (change start).session.context = start.session.context :=
    congrArg Inventory.context same
  refine .modify (agrees.sound inventory ?_ sound) (agrees.grows inventory)
  rw [context]
  exact sound.context

theorem assign_meets (sound : start.Sound setting) (register : Register) (node : Node) :
    Meets setting (assign register node) start fun _ _ => True :=
  (modify_meets sound ⟨rfl, rfl, rfl, rfl, rfl⟩ rfl).imp fun _ _ _ => trivial

/-- An expression that follows the rules and is made of available nodes may be added. -/
theorem addExpression_meets (sound : start.Sound setting) {expression : Expression}
    {type : TypeDescriptor} {reference : Option Reference}
    (types : (start.inventory setting.function).Types expression type reference)
    (fits : start.Fits setting expression) :
    Meets setting (addExpression setting.function expression type reference) start
      fun node finish => finish.Usable setting node type reference := by
  let scope := if expression.isGlobal then globalScope else start.currentScope
  let entry : ExpressionEntry := ⟨expression, type, reference, scope⟩
  let node : Node := ⟨setting.function.id, start.expressions.size⟩
  have found : (start.push entry).expressions[node.index]? = some entry :=
    (getElem?_push start.expressions.size).trans (if_pos rfl)
  have shows : start.Shows entry := by
    by_cases isGlobal : expression.isGlobal = true
    · exact .inl (if_pos isGlobal)
    · apply Or.inr
      have current : entry.scope = start.currentScope := if_neg isGlobal
      rw [current]
      cases scopes : start.scopes with
      | nil => exact absurd scopes sound.nested
      | cons scope rest =>
          simp [currentScope, scopes]
  have grows : start.Grows (start.push entry) setting.function := by
    apply Grows.push
    by_cases isGlobal : expression.isGlobal = true
    · exact .inl isGlobal
    · exact .inr (if_neg isGlobal)
  cases inlined : expression.isInlined reference with
  | true =>
      have pushed := @Sound.pushInlined setting start entry sound types fits shows inlined
      have ran : addExpression setting.function expression type reference start =
          .ok node (start.push entry) := by
        simp only [addExpression, inlined]
        rfl
      exact .of_ok ran pushed grows (pushed.usable found shows)
  | false =>
      have pushed := @Sound.pushBound setting start entry sound node types fits shows inlined rfl
      have ran : addExpression setting.function expression type reference start =
          .ok node ((start.push entry).addStatement (.emit node)) := by
        simp only [addExpression, inlined]
        rfl
      refine .of_ok ran pushed (grows.trans (.addStatement sound.opened)) ?_
      have foundAfter : ((start.push entry).addStatement (.emit node)).expressions[node.index]? =
          some entry := by
        rw [addStatement_eq]
        exact found
      have showsAfter : ((start.push entry).addStatement (.emit node)).Shows entry := by
        rw [addStatement_eq]
        exact shows
      exact pushed.usable foundAfter showsAfter

theorem addValue_meets (sound : start.Sound setting) {expression : Expression}
    {type : TypeDescriptor}
    (types : (start.inventory setting.function).Types expression type none)
    (fits : start.Fits setting expression) :
    Meets setting (addValue setting.function expression type) start
      fun node finish => finish.Operand setting node type :=
  addExpression_meets sound types fits

/-! ## Nodes -/

theorem entry_meets (sound : start.Sound setting) (node : Node) :
    Meets setting (entry setting.function node) start fun found finish =>
      finish = start ∧ start.expressions[node.index]? = some found ∧
        start.Usable setting node found.type found.reference := by
  unfold entry
  split
  next => exact .refuse sound
  next =>
    apply Meets.get_bind
    split
    next => exact .refuse sound
    next found known =>
      split
      next => exact .refuse sound
      next shown =>
        have shows : start.Shows found := by
          by_cases isGlobal : found.scope = globalScope
          · exact .inl isGlobal
          · apply Or.inr
            by_contra hidden
            apply shown
            refine ⟨isGlobal, ?_⟩
            rw [Bool.not_eq_true', ← Bool.not_eq_true, List.contains_iff_mem]
            exact hidden
        exact .pure sound ⟨rfl, known, sound.usable known shows⟩

theorem typeOf_meets (sound : start.Sound setting) (node : Node) :
    Meets setting (typeOf setting.function node) start fun type finish =>
      finish = start ∧ ∃ reference, start.Usable setting node type reference := by
  apply Meets.bind (entry_meets sound node)
  rintro found start _ _ ⟨rfl, _, usable⟩
  exact .pure sound ⟨rfl, _, usable⟩

theorem typeOf_operand (sound : start.Sound setting) {node : Node}
    (known : ∃ type, start.Operand setting node type) :
    Meets setting (typeOf setting.function node) start fun type finish =>
      finish = start ∧ start.Operand setting node type := by
  apply (typeOf_meets sound node).imp
  rintro type finish ⟨same, reference, usable⟩
  rcases known with ⟨other, operand⟩
  rcases operand.known.unique usable.known with ⟨rfl, _⟩
  exact ⟨same, operand⟩

theorem typesOf_meets (sound : start.Sound setting) {nodes : List Node}
    (known : ∀ node ∈ nodes, ∃ type, start.Operand setting node type) :
    Meets setting (typesOf setting.function nodes) start fun types finish =>
      List.Forall₂ (finish.Operand setting) nodes types := by
  apply Meets.mapM (fun node type finish => finish.Operand setting node type)
    (fun _ _ _ _ grows operand => operand.grow grows) _ sound
  intro node member state stateSound grows
  rcases known node member with ⟨type, operand⟩
  apply (typeOf_operand stateSound ⟨type, operand.grow grows⟩).imp
  rintro found finish ⟨rfl, holds⟩
  exact holds

theorem value_meets (sound : start.Sound setting) (node : Node) :
    Meets setting (value setting.function node) start fun result finish =>
      ∃ type reference, start.Usable setting node type reference ∧
        finish.Operand setting result type := by
  apply Meets.bind (entry_meets sound node)
  rintro found start _ _ ⟨rfl, _, usable⟩
  cases referenced : found.reference with
  | none =>
      rw [referenced] at usable
      simp only [Option.isNone_none, if_true]
      exact .pure sound ⟨_, _, usable, usable⟩
  | some reference =>
      rw [referenced] at usable
      simp only [Option.isNone_some, Bool.false_eq_true, if_false]
      split
      next => exact .refuse sound
      next =>
        split
        next => exact .refuse sound
        next =>
          have fits : start.Fits setting (.load node) := by
            apply Fits.of_usable
            · intro operand member
              rw [List.mem_singleton.mp member]
              exact ⟨_, _, usable⟩
            · exact fun _ => nofun
          apply (addValue_meets sound (.load usable.known) fits).imp
          intro result finish operand
          exact ⟨_, _, usable, operand⟩

theorem value_operand (sound : start.Sound setting) (node : Node) :
    Meets setting (value setting.function node) start fun result finish =>
      ∃ type, finish.Operand setting result type :=
  (value_meets sound node).imp fun _ _ ⟨type, _, _, operand⟩ => ⟨type, operand⟩

theorem values_meets (sound : start.Sound setting) (nodes : List Node) :
    Meets setting (nodes.mapM (value setting.function)) start fun results finish =>
      ∀ result ∈ results, ∃ type, finish.Operand setting result type := by
  have all := Meets.mapM (fun _ result finish => ∃ type, finish.Operand setting result type)
    (fun _ _ _ _ grows ⟨type, operand⟩ => ⟨type, operand.grow grows⟩)
    (fun node (_ : node ∈ nodes) state stateSound _ => value_operand stateSound node) sound
  apply all.imp
  intro results finish operands result member
  rcases exists_left_of_mem operands member with ⟨_, operand⟩
  exact operand

theorem fits_nil {expression : Expression} (leaf : expression.operands = [])
    (notVariable : ∀ number, expression ≠ .localVariable number) :
    start.Fits setting expression :=
  .of_usable (fun operand member => by
    rw [leaf] at member
    cases member) notVariable

theorem literal_meets (sound : start.Sound setting) (scalar : Scalar) :
    Meets setting (literal setting.function scalar) start fun node finish =>
      finish.Operand setting node (.scalar scalar.kind) := by
  unfold literal
  split
  next => exact .refuse sound
  next => exact addValue_meets sound (.literal scalar) (fits_nil rfl fun _ => nofun)

theorem register_meets (sound : start.Sound setting) (source : Register) :
    Meets setting (register setting.function source) start fun _ _ => True := by
  apply Meets.get_bind
  split
  next => exact .pure sound trivial
  next => exact .refuse sound

theorem operand_meets (sound : start.Sound setting) (source : Operand) :
    Meets setting (operand setting.function source) start fun _ _ => True := by
  cases source with
  | register source => exact register_meets sound source
  | literal scalar => exact (literal_meets sound scalar).imp fun _ _ _ => trivial

theorem operandValue_meets (sound : start.Sound setting) (source : Operand) :
    Meets setting (operandValue setting.function source) start fun node finish =>
      ∃ type, finish.Operand setting node type :=
  (operand_meets sound source).bind fun node _ stateSound _ _ => value_operand stateSound node

end Recording

end ShaderKit
