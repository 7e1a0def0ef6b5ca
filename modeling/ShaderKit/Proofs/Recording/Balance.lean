import ShaderKit.Proofs.Recording.BoundOnce

/-!
# Failures leave the recorder balanced

An action with blocks can fail in the evaluation of its operands or, after any number of blocks
has been opened, inside one of them. Afterwards the recorder is in the block in which the action
began. This block has only gained what the operands needed, and nodes that were recorded in the
blocks of the action stay hidden as long as the recording goes on.
-/

namespace ShaderKit

namespace Recorder

variable {around : Surroundings} {before middle after start finish : Recorder}

/-! ## States of a recording -/

/-- A later state of the same recording: recording has gone on, or has entered a block, or has
left a block that it had entered. -/
inductive Later (around : Surroundings) : Recorder → Recorder → Prop where
  | changes {before after : Recorder} (becomes : before.Becomes around after) :
      Later around before after
  | enters (recorder : Recorder) (deeper : Nat) : Later around recorder (recorder.opened deeper)
  | counts (recorder : Recorder) (type : TypeDescriptor) :
      Later around recorder (recorder.counting around.function type)
  | leaves {recorder : Recorder} (deeper : Nat) (nested : recorder.blocks.tail ≠ []) :
      Later around recorder (recorder.closed deeper)
  | trans {before middle after : Recorder} (first : Later around before middle)
      (second : Later around middle after) : Later around before after

/-- A state to which recording comes in some surroundings, from the empty recording of some
session. -/
def Occurs (around : Surroundings) (recorder : Recorder) : Prop :=
  ∃ session, Later around { session := session } recorder

structure Proper (recorder : Recorder) : Prop where
  opened : recorder.blocks ≠ []
  counted : ∀ scope ∈ recorder.scopes, scope ≤ recorder.scopeCounter

/-! ## What changes leave balanced -/

/-- Scopes and loops are the same as before. What is new is visible everywhere, or in the open
block, or only in blocks that were opened in between. -/
structure Balances (before after : Recorder) : Prop where
  scopes : after.scopes = before.scopes
  loopDepth : after.loopDepth = before.loopDepth
  counter : before.scopeCounter ≤ after.scopeCounter
  fresh : ∀ (index : Nat) entry, after.expressions[index]? = some entry →
    before.expressions[index]? = some entry ∨ entry.expression.isGlobal = true ∨
      entry.scope = before.currentScope ∨
        (before.scopeCounter < entry.scope ∧ entry.scope ≤ after.scopeCounter)

/-- What is done in blocks that are closed again: the open blocks are the same, and what is new
is visible everywhere or only in blocks that were opened in between. -/
structure Drops (before after : Recorder) : Prop where
  scopes : after.scopes = before.scopes
  blocks : after.blocks = before.blocks
  loopDepth : after.loopDepth = before.loopDepth
  counter : before.scopeCounter ≤ after.scopeCounter
  fresh : ∀ (index : Nat) entry, after.expressions[index]? = some entry →
    before.expressions[index]? = some entry ∨ entry.expression.isGlobal = true ∨
      (before.scopeCounter < entry.scope ∧ entry.scope ≤ after.scopeCounter)
  known : ∀ (index : Nat) entry, before.expressions[index]? = some entry →
    after.expressions[index]? = some entry

namespace Balances

theorem of_eq (scopes : after.scopes = before.scopes)
    (loopDepth : after.loopDepth = before.loopDepth)
    (counter : after.scopeCounter = before.scopeCounter)
    (expressions : after.expressions = before.expressions) : before.Balances after where
  scopes := scopes
  loopDepth := loopDepth
  counter := Nat.le_of_eq counter.symm
  fresh _ _ found := .inl (expressions ▸ found)

theorem refl (recorder : Recorder) : recorder.Balances recorder :=
  .of_eq rfl rfl rfl rfl

theorem currentScope (balances : before.Balances after) :
    after.currentScope = before.currentScope := by
  rw [Recorder.currentScope, Recorder.currentScope, balances.scopes]

theorem trans (first : before.Balances middle) (second : middle.Balances after) :
    before.Balances after where
  scopes := second.scopes.trans first.scopes
  loopDepth := second.loopDepth.trans first.loopDepth
  counter := Nat.le_trans first.counter second.counter
  fresh index entry found := by
    rcases second.fresh index entry found with old | isGlobal | current | ⟨above, below⟩
    · rcases first.fresh index entry old with old | isGlobal | current | ⟨above, below⟩
      · exact .inl old
      · exact .inr (.inl isGlobal)
      · exact .inr (.inr (.inl current))
      · exact .inr (.inr (.inr ⟨above, Nat.le_trans below second.counter⟩))
    · exact .inr (.inl isGlobal)
    · exact .inr (.inr (.inl (current.trans first.currentScope)))
    · exact .inr (.inr (.inr ⟨Nat.lt_of_le_of_lt first.counter above, below⟩))

theorem addStatement (balances : before.Balances after) (statement : Statement) :
    before.Balances (after.addStatement statement) := by
  rw [addStatement_eq]
  exact ⟨balances.scopes, balances.loopDepth, balances.counter, balances.fresh⟩

theorem withExpression (balances : before.Balances after) (function : ShaderFunction)
    (expression : Expression) (type : TypeDescriptor) (reference : Option Reference) :
    before.Balances (after.withExpression function expression type reference) := by
  apply balances.trans
  have pushed : after.Balances (after.push (after.nextEntry expression type reference)) := by
    refine ⟨rfl, rfl, Nat.le_refl _, ?_⟩
    intro index entry found
    rw [Recorder.push, Array.getElem?_push] at found
    split at found
    next =>
      cases found
      dsimp only [nextEntry]
      split
      next isGlobal => exact .inr (.inl isGlobal)
      next => exact .inr (.inr (.inl rfl))
    next => exact .inl found
  unfold Recorder.withExpression
  dsimp only
  split
  next => exact pushed
  next => exact pushed.addStatement _

end Balances

namespace Drops

theorem balances (drops : before.Drops after) : before.Balances after where
  scopes := drops.scopes
  loopDepth := drops.loopDepth
  counter := drops.counter
  fresh index entry found := by
    rcases drops.fresh index entry found with old | isGlobal | inside
    · exact .inl old
    · exact .inr (.inl isGlobal)
    · exact .inr (.inr (.inr inside))

theorem refl (recorder : Recorder) : recorder.Drops recorder :=
  ⟨rfl, rfl, rfl, Nat.le_refl _, fun _ _ found => .inl found, fun _ _ found => found⟩

theorem trans (first : before.Drops middle) (second : middle.Drops after) :
    before.Drops after where
  scopes := second.scopes.trans first.scopes
  blocks := second.blocks.trans first.blocks
  loopDepth := second.loopDepth.trans first.loopDepth
  counter := Nat.le_trans first.counter second.counter
  fresh index entry found := by
    rcases second.fresh index entry found with old | isGlobal | ⟨above, below⟩
    · rcases first.fresh index entry old with old | isGlobal | ⟨above, below⟩
      · exact .inl old
      · exact .inr (.inl isGlobal)
      · exact .inr (.inr ⟨above, Nat.le_trans below second.counter⟩)
    · exact .inr (.inl isGlobal)
    · exact .inr (.inr ⟨Nat.lt_of_le_of_lt first.counter above, below⟩)
  known index entry found := second.known index entry (first.known index entry found)

end Drops

theorem balances_withLocal (recorder : Recorder) (declared : LocalVariable) :
    recorder.Balances (Recording.withLocal recorder declared) :=
  .of_eq rfl rfl rfl rfl

theorem balances_counting (recorder : Recorder) (function : ShaderFunction)
    (type : TypeDescriptor) :
    (recorder.opened 1).Balances (recorder.counting function type) := by
  have declared : (recorder.opened 1).Balances
      ((Recording.withLocal recorder ⟨none, type⟩).opened 1) := .of_eq rfl rfl rfl rfl
  exact declared.withExpression function _ type _

theorem Balances.drops {deeper : Nat} (balances : (before.opened deeper).Balances after)
    (outer : after.blocks.tail = before.blocks) (preserves : before.Preserves after) :
    before.Drops (after.closed deeper) where
  scopes := congrArg List.tail balances.scopes
  blocks := outer
  loopDepth := by
    change after.loopDepth - deeper = _
    rw [balances.loopDepth]
    exact Nat.add_sub_cancel _ _
  counter := Nat.le_of_succ_le balances.counter
  fresh index entry found := by
    rcases balances.fresh index entry found with old | isGlobal | current | ⟨above, below⟩
    · exact .inl old
    · exact .inr (.inl isGlobal)
    · have own : entry.scope = before.scopeCounter + 1 := current
      exact .inr (.inr ⟨own ▸ Nat.lt_succ_self _, own ▸ balances.counter⟩)
    · exact .inr (.inr ⟨Nat.lt_of_succ_lt above, below⟩)
  known := preserves.expressions

theorem Balances.drops_block {deeper : Nat} (balances : (before.opened deeper).Balances after)
    (becomes : (before.opened deeper).Becomes around after) :
    before.Drops (after.closed deeper) :=
  balances.drops (becomes.addsNew (List.cons_ne_nil _ _)).outer
    ((preserves_opened before deeper).trans becomes.preserves)

theorem Balances.drops_range {type : TypeDescriptor}
    (balances : (before.counting around.function type).Balances after)
    (becomes : (before.counting around.function type).Becomes around after) :
    before.Drops (after.closed 1) :=
  ((balances_counting before around.function type).trans balances).drops
    (becomes.addsNew (List.cons_ne_nil _ _)).outer
    ((preserves_counting before around.function type).trans becomes.preserves)

/-- Recording keeps the balance, by cases on the changes that it makes. -/
theorem Becomes.balances (becomes : before.Becomes around after) : before.Balances after := by
  induction becomes with
  | refl => exact .refl _
  | trans _ _ first second => exact first.trans second
  | expression => exact (Balances.refl _).withExpression _ _ _ _
  | statement => exact (Balances.refl _).addStatement _
  | declared recorder declared initial =>
      have declares := (balances_withLocal recorder declared).addStatement
        (.declare recorder.locals.size initial)
      exact declares.withExpression around.function (.localVariable recorder.locals.size)
        declared.type _
  | branch _ accepts rejects accept reject =>
      have drops := (accept.drops_block accepts).trans (reject.drops_block rejects)
      exact drops.balances.addStatement _
  | loop inside body => exact (body.drops_block inside).balances.addStatement _
  | range _ _ inside body => exact (body.drops_range inside).balances.addStatement _
  | dropped _ inside body => exact (body.drops_block inside).balances
  | droppedRange inside body => exact (body.drops_range inside).balances
  | localVariable => exact balances_withLocal _ _
  | constant | helper | binding | register | journal | traced | untraced =>
      exact .of_eq rfl rfl rfl rfl

/-! ## Later states -/

theorem Proper.opened_proper (proper : before.Proper) (deeper : Nat) :
    (before.opened deeper).Proper where
  opened := List.cons_ne_nil _ _
  counted scope member := by
    rcases List.mem_cons.mp member with rfl | member
    · exact Nat.le_refl _
    · exact Nat.le_succ_of_le (proper.counted scope member)

theorem Proper.of_balances (proper : before.Proper) (balances : before.Balances after)
    (opened : after.blocks ≠ []) : after.Proper where
  opened := opened
  counted scope member :=
    Nat.le_trans (proper.counted scope (balances.scopes ▸ member)) balances.counter

theorem Later.proper (later : Later around before after) (proper : before.Proper) :
    after.Proper := by
  induction later with
  | changes becomes =>
      exact proper.of_balances becomes.balances (becomes.addsNew proper.opened).opened
  | enters recorder deeper => exact proper.opened_proper deeper
  | counts recorder type =>
      exact (proper.opened_proper 1).of_balances (balances_counting recorder _ type)
        (List.cons_ne_nil _ _)
  | leaves deeper nested =>
      exact ⟨nested, fun scope member => proper.counted scope (List.mem_of_mem_tail member)⟩
  | trans _ _ first second => exact second (first proper)

theorem Occurs.proper (occurs : Occurs around start) : start.Proper := by
  rcases occurs with ⟨session, later⟩
  apply later.proper
  refine ⟨List.cons_ne_nil _ _, ?_⟩
  intro scope member
  rw [List.mem_singleton.mp member]

theorem Later.preserves (later : Later around before after) : before.Preserves after := by
  induction later with
  | changes becomes => exact becomes.preserves
  | enters recorder deeper => exact preserves_opened recorder deeper
  | counts recorder type => exact preserves_counting recorder _ type
  | leaves deeper _ => exact preserves_closed _ deeper
  | trans _ _ first second => exact first.trans second

/-- The scope of a block that has been closed. -/
structure Retired (recorder : Recorder) (scope : Nat) : Prop where
  numbered : scope ≤ recorder.scopeCounter
  closed : scope ∉ recorder.scopes

theorem Retired.of_balances {scope : Nat} (retired : before.Retired scope)
    (balances : before.Balances after) : after.Retired scope where
  numbered := Nat.le_trans retired.numbered balances.counter
  closed := balances.scopes ▸ retired.closed

theorem Retired.opened {scope : Nat} (retired : before.Retired scope) (deeper : Nat) :
    (before.opened deeper).Retired scope where
  numbered := Nat.le_succ_of_le retired.numbered
  closed member := by
    rcases List.mem_cons.mp member with rfl | member
    · exact Nat.not_succ_le_self _ retired.numbered
    · exact retired.closed member

theorem Later.retired {scope : Nat} (later : Later around before after)
    (retired : before.Retired scope) : after.Retired scope := by
  induction later with
  | changes becomes => exact retired.of_balances becomes.balances
  | enters recorder deeper => exact retired.opened deeper
  | counts recorder type =>
      exact (retired.opened 1).of_balances (balances_counting recorder _ type)
  | leaves deeper _ =>
      exact ⟨retired.numbered, fun member => retired.closed (List.mem_of_mem_tail member)⟩
  | trans _ _ first second => exact second (first retired)

theorem entry_of_found {function : ShaderFunction} {recorder : Recorder} {index : Nat}
    {entry : ExpressionEntry} (found : recorder.expressions[index]? = some entry) :
    Recording.entry function ⟨function.id, index⟩ recorder =
      if entry.scope ≠ globalScope ∧ !recorder.scopes.contains entry.scope then
        Recording.refuse function .hiddenNode recorder
      else .ok entry recorder := by
  have get : (get : Recording Recorder) recorder = .ok recorder recorder := rfl
  rw [Recording.entry, if_neg fun different => different rfl, bind_of_ok get, found]
  dsimp only
  split <;> rfl

/-- A node that was recorded in a block that has been closed is refused. -/
theorem Retired.refused {function : ShaderFunction} {recorder : Recorder} {index : Nat}
    {entry : ExpressionEntry} (retired : recorder.Retired entry.scope)
    (inBlock : entry.scope ≠ globalScope) (found : recorder.expressions[index]? = some entry) :
    Recording.entry function ⟨function.id, index⟩ recorder =
      Recording.refuse function .hiddenNode recorder := by
  rw [entry_of_found found, if_pos]
  exact ⟨inBlock, by simpa using retired.closed⟩

end Recorder

/-! ## Operands -/

namespace Recording

open Recorder

variable {around : Surroundings} {start middle finish : Recorder}

def Loads (start finish : Recorder) (operands : List Operand) (node : Node) : Prop :=
  ∃ register source entry, .register register ∈ operands ∧
    start.register? register = some source ∧ finish.expressions[node.index]? = some entry ∧
      entry.expression = .load source

/-- What the evaluation of operands adds at the end of the open block: for every operand at most
one node, which loads what the operand refers to. -/
structure Evaluates (function : ShaderFunction) (operands : List Operand)
    (start finish : Recorder) (gained : List Node) : Prop where
  scopes : finish.scopes = start.scopes
  loopDepth : finish.loopDepth = start.loopDepth
  counter : finish.scopeCounter = start.scopeCounter
  registers : finish.registers = start.registers
  blocks : finish.blocks = (start.openBlock ++ gained.map Statement.emit) :: start.blocks.tail
  few : gained.length ≤ operands.length
  loads : ∀ node ∈ gained, Loads start finish operands node
  known : ∀ (index : Nat) entry, start.expressions[index]? = some entry →
    finish.expressions[index]? = some entry
  fresh : ∀ (index : Nat) entry, finish.expressions[index]? = some entry →
    start.expressions[index]? = some entry ∨ entry.expression.isGlobal = true ∨
      ⟨function.id, index⟩ ∈ gained

namespace Evaluates

variable {function : ShaderFunction} {operands more : List Operand} {gained others : List Node}

theorem of_eq (opened : start.blocks ≠ []) (scopes : finish.scopes = start.scopes)
    (loopDepth : finish.loopDepth = start.loopDepth)
    (counter : finish.scopeCounter = start.scopeCounter)
    (registers : finish.registers = start.registers) (blocks : finish.blocks = start.blocks)
    (expressions : finish.expressions = start.expressions) :
    Evaluates function operands start finish [] where
  scopes := scopes
  loopDepth := loopDepth
  counter := counter
  registers := registers
  blocks := by
    rw [blocks, List.map_nil, List.append_nil]
    exact blocks_eq opened
  few := Nat.zero_le _
  loads := nofun
  known _ _ found := expressions ▸ found
  fresh _ _ found := .inl (expressions ▸ found)

theorem refl (opened : start.blocks ≠ []) : Evaluates function operands start start [] :=
  .of_eq opened rfl rfl rfl rfl rfl rfl

theorem opened (evaluates : Evaluates function operands start finish gained) :
    finish.blocks ≠ [] := by
  rw [evaluates.blocks]
  exact List.cons_ne_nil _ _

theorem trans (first : Evaluates function operands start middle gained)
    (second : Evaluates function more middle finish others) :
    Evaluates function (operands ++ more) start finish (gained ++ others) where
  scopes := second.scopes.trans first.scopes
  loopDepth := second.loopDepth.trans first.loopDepth
  counter := second.counter.trans first.counter
  registers := second.registers.trans first.registers
  blocks := by
    rw [second.blocks, openBlock, first.blocks, List.head?_cons, Option.getD_some,
      List.tail_cons, List.map_append, List.append_assoc]
  few := by
    rw [List.length_append, List.length_append]
    exact Nat.add_le_add first.few second.few
  loads node member := by
    rcases List.mem_append.mp member with member | member
    · rcases first.loads node member with ⟨register, source, entry, operand, same, found, load⟩
      exact ⟨register, source, entry, List.mem_append_left _ operand, same,
        second.known _ _ found, load⟩
    · rcases second.loads node member with ⟨register, source, entry, operand, same, found, load⟩
      rw [register?, first.registers] at same
      exact ⟨register, source, entry, List.mem_append_right _ operand, same, found, load⟩
  known index entry found := second.known index entry (first.known index entry found)
  fresh index entry found := by
    rcases second.fresh index entry found with old | isGlobal | member
    · rcases first.fresh index entry old with old | isGlobal | member
      · exact .inl old
      · exact .inr (.inl isGlobal)
      · exact .inr (.inr (List.mem_append_left _ member))
    · exact .inr (.inl isGlobal)
    · exact .inr (.inr (List.mem_append_right _ member))

theorem weaken (evaluates : Evaluates function operands start finish gained)
    (more : List Operand) : Evaluates function (operands ++ more) start finish gained := by
  have unused : Evaluates function more finish finish [] := .refl evaluates.opened
  have nothing := evaluates.trans unused
  rw [List.append_nil] at nothing
  exact nothing

theorem literal (opened : start.blocks ≠ []) (scalar : Scalar) (type : TypeDescriptor) :
    Evaluates function operands start
      (start.withExpression function (.literal scalar) type none) [] where
  scopes := rfl
  loopDepth := rfl
  counter := rfl
  registers := rfl
  blocks := by
    rw [List.map_nil, List.append_nil]
    exact blocks_eq opened
  few := Nat.zero_le _
  loads := nofun
  known := by
    have preserves : start.Preserves (start.withExpression function (.literal scalar) type none) :=
      (Preserves.refl start).withExpression function type none (by simp)
    exact preserves.expressions
  fresh index entry found := by
    rw [expressions_withExpression, Array.getElem?_push] at found
    split at found
    next =>
      cases found
      exact .inr (.inl rfl)
    next => exact .inl found

theorem withExpression_load (start : Recorder) (function : ShaderFunction) (source : Node)
    (type : TypeDescriptor) : start.withExpression function (.load source) type none =
      (start.push (start.nextEntry (.load source) type none)).addStatement
        (.emit ⟨function.id, start.expressions.size⟩) :=
  rfl

theorem load (opened : start.blocks ≠ []) {register : Register} {source : Node}
    (same : start.register? register = some source) (type : TypeDescriptor) :
    Evaluates function [.register register] start
      (start.withExpression function (.load source) type none)
      [⟨function.id, start.expressions.size⟩] where
  scopes := by
    rw [withExpression_load, addStatement_eq]
    rfl
  loopDepth := by
    rw [withExpression_load, addStatement_eq]
    rfl
  counter := by
    rw [withExpression_load, addStatement_eq]
    rfl
  registers := by
    rw [withExpression_load, addStatement_eq]
    rfl
  blocks := by
    rw [withExpression_load, Recorder.addStatement]
    dsimp only [push]
    rw [blocks_eq opened]
    rfl
  few := Nat.le_refl _
  loads node member := by
    rw [List.mem_singleton.mp member]
    refine ⟨register, source, start.nextEntry (.load source) type none, List.mem_singleton_self _,
      same, ?_, rfl⟩
    rw [expressions_withExpression, Array.getElem?_push_size]
  known := by
    have preserves : start.Preserves (start.withExpression function (.load source) type none) :=
      (Preserves.refl start).withExpression function type none (by simp)
    exact preserves.expressions
  fresh index entry found := by
    rw [expressions_withExpression, Array.getElem?_push] at found
    split at found
    next last =>
      rw [last]
      exact .inr (.inr (List.mem_singleton_self _))
    next => exact .inl found

end Evaluates

def Evaluating {α : Type} (function : ShaderFunction) (operands : List Operand)
    (work : Recording α) (start : Recorder) : Prop :=
  ∃ gained, Evaluates function operands start (finishOf work start) gained

namespace Evaluating

variable {α β : Type} {function : ShaderFunction} {operands more : List Operand}

theorem unchanged {work : Recording α} (opened : start.blocks ≠ [])
    (same : finishOf work start = start) : Evaluating function operands work start :=
  ⟨[], by rw [same]; exact .refl opened⟩

theorem bind {work : Recording α} {next : α → Recording β}
    (first : Evaluating function operands work start)
    (rest : ∀ value state, work start = .ok value state → state.blocks ≠ [] →
      Evaluating function more (next value) state) :
    Evaluating function (operands ++ more) (work >>= next) start := by
  rcases first with ⟨gained, evaluates⟩
  cases ran : work start with
  | ok value state =>
      have same : finishOf (work >>= next) start = finishOf (next value) state := by
        rw [finishOf, bind_of_ok ran, finishOf]
      rw [finishOf_of_ok ran] at evaluates
      rcases rest value state ran evaluates.opened with ⟨others, more⟩
      exact ⟨gained ++ others, same ▸ evaluates.trans more⟩
  | error error state =>
      rw [finishOf_of_error ran] at evaluates
      exact ⟨gained, finishOf_of_error (bind_of_error ran) ▸ evaluates.weaken more⟩

theorem bind_unchanged {work : Recording α} {next : α → Recording β}
    (first : Evaluating function operands work start)
    (rest : ∀ value state, finishOf (next value) state = state) :
    Evaluating function operands (work >>= next) start := by
  rw [← List.append_nil operands]
  exact first.bind fun value state _ opened => .unchanged opened (rest value state)

end Evaluating

theorem finishOf_get_bind {α : Type} (next : Recorder → Recording α) :
    finishOf (get >>= next) start = finishOf (next start) start :=
  rfl

theorem finishOf_entry (function : ShaderFunction) (node : Node) :
    finishOf (entry function node) start = start := by
  unfold entry
  split
  next => rfl
  next =>
    rw [finishOf_get_bind]
    split
    next => rfl
    next => split <;> rfl

theorem typeOf_evaluating (function : ShaderFunction) (opened : start.blocks ≠ [])
    (node : Node) : Evaluating function [] (typeOf function node) start :=
  Evaluating.bind_unchanged (.unchanged opened (finishOf_entry function node)) fun _ _ => rfl

theorem value_evaluating (function : ShaderFunction) (opened : start.blocks ≠ [])
    {register : Register} {node : Node} (same : start.register? register = some node) :
    Evaluating function [.register register] (value function node) start := by
  -- the look-up of the entry needs nothing
  change Evaluating function ([] ++ [.register register]) _ _
  apply Evaluating.bind (.unchanged opened (finishOf_entry function node))
  intro found state ran _
  rw [(entry_ran_ok ran).1]
  split
  next => exact .unchanged opened rfl
  next =>
    split
    next => exact .unchanged opened rfl
    next =>
      split
      next => exact .unchanged opened rfl
      next =>
        have loaded := addExpression_eq function (.load node) found.type none start
        refine ⟨[⟨function.id, start.expressions.size⟩], ?_⟩
        rw [addValue, finishOf_of_ok loaded]
        exact .load opened same found.type

theorem literal_evaluating (function : ShaderFunction) (opened : start.blocks ≠ [])
    (scalar : Scalar) : Evaluating function [.literal scalar]
      (literal function scalar >>= value function) start := by
  unfold literal
  split
  next => exact .unchanged opened rfl
  next =>
    let next := start.withExpression function (.literal scalar) (.scalar scalar.kind) none
    let node : Node := ⟨function.id, start.expressions.size⟩
    have added : addValue function (.literal scalar) (.scalar scalar.kind) start =
        .ok node next := addExpression_eq _ _ _ _ _
    have known : next.expressions[start.expressions.size]? =
        some (start.nextEntry (.literal scalar) (.scalar scalar.kind) none) := by
      rw [expressions_withExpression, Array.getElem?_push_size]
    have valued : value function node next = .ok node next :=
      bind_of_ok (entry_of_found known)
    refine ⟨[], ?_⟩
    rw [finishOf_of_ok (bind_ran_ok.mpr ⟨node, next, added, valued⟩)]
    exact .literal opened scalar _

theorem operandValue_evaluating (function : ShaderFunction) (opened : start.blocks ≠ [])
    (source : Operand) : Evaluating function [source] (operandValue function source) start := by
  cases source with
  | literal scalar => exact literal_evaluating function opened scalar
  | register source =>
      rw [operandValue, operand, Recording.register, bind_assoc]
      unfold Evaluating
      rw [finishOf_get_bind]
      split
      next node same => exact value_evaluating function opened same
      next => exact ⟨[], .refl opened⟩

theorem condition_evaluating (function : ShaderFunction) (opened : start.blocks ≠ [])
    (source : Operand) : Evaluating function [source] (condition function source) start := by
  change Evaluating function ([source] ++ []) _ _
  apply (operandValue_evaluating function opened source).bind
  intro node state _ opened
  apply (typeOf_evaluating function opened node).bind_unchanged
  intro type state
  split <;> rfl

theorem rangeHead_evaluating (function : ShaderFunction) (opened : start.blocks ≠ [])
    (first last : Operand) :
    Evaluating function [first, last] (rangeHead function first last) start := by
  change Evaluating function ([first] ++ ([last] ++ ([] ++ ([] ++ [])))) _ _
  apply (operandValue_evaluating function opened first).bind
  intro firstNode state _ opened
  apply (operandValue_evaluating function opened last).bind
  intro lastNode state _ opened
  apply (typeOf_evaluating function opened firstNode).bind
  intro type state _ opened
  apply (typeOf_evaluating function opened lastNode).bind
  intro lastType state _ opened
  split
  next => exact .unchanged opened rfl
  next => exact ⟨[], .of_eq opened rfl rfl rfl rfl rfl rfl⟩

end Recording

/-! ## Actions with blocks -/

open Recorder Recording

/-- Whether an action records blocks of its own. -/
def Action.hasBlocks : Action → Bool
  | .branch .. | .loop _ | .range .. => true
  | _ => false

/-- The operands that an action evaluates before its blocks: the condition of a branch, the
bounds of a range loop. -/
def Action.heads : Action → List Operand
  | .branch condition _ _ => [condition]
  | .range _ first last _ => [first, last]
  | _ => []

variable {around : Surroundings} {start finish : Recorder} {action : Action}

/-- A block is dropped where it fails, and where it is closed only expressions stay. -/
theorem Recording.inside_drops {deeper : Nat} {body : Recording Unit}
    (follows : Follows around body (start.opened deeper)) :
    start.Drops (finishOf (inside deeper body) start) := by
  have drops := follows.becomes.balances.drops_block follows.becomes
  cases ran : body (start.opened deeper) with
  | ok result inner =>
      rw [finishOf_of_ok ran] at drops
      rw [finishOf_of_ok (inside_of_ok ran)]
      exact drops
  | error error inner =>
      rw [finishOf_of_error ran] at drops
      rw [finishOf_of_error (inside_of_error ran)]
      exact drops

theorem Recording.inside_counted_drops (start : Recorder) (type : TypeDescriptor)
    {body : Node → Recording Unit}
    (follows : ∀ node state, Follows around (body node) state) :
    start.Drops (finishOf (inside 1 (do
      let node ← counterValue around.function start.locals.size type
      body node)) (withLocal start ⟨none, type⟩)) := by
  have same := counterValue_bind_eq start around.function type body
  have inner : Follows around
      (value around.function ⟨around.function.id, start.expressions.size⟩ >>= body)
      (start.counting around.function type) :=
    (value_follows around _).bind fun node state _ => follows node state
  have drops := inner.becomes.balances.drops_range inner.becomes
  cases ran : (value around.function ⟨around.function.id, start.expressions.size⟩ >>= body)
      (start.counting around.function type) with
  | ok result inner =>
      rw [finishOf_of_ok ran] at drops
      rw [finishOf_of_ok (inside_of_ok (same.trans ran))]
      exact drops
  | error error inner =>
      rw [finishOf_of_error ran] at drops
      rw [finishOf_of_error (inside_of_error (same.trans ran))]
      exact drops

/-- An action with blocks that fails has evaluated its operands, and what it did in its blocks is
dropped. -/
theorem Action.drops_of_error {error : ShaderError} (hasBlocks : action.hasBlocks = true)
    (opened : start.blocks ≠ []) (failed : action.perform around start = .error error finish) :
    ∃ middle gained, Evaluates around.function action.heads start middle gained ∧
      middle.Drops finish := by
  cases action with
  | branch condition accept reject =>
      rcases condition_evaluating around.function opened condition with ⟨gained, evaluates⟩
      rcases bind_ran_error.mp failed with failed | ⟨test, middle, ran, failed⟩
      · rw [finishOf_of_error failed] at evaluates
        exact ⟨finish, gained, evaluates, .refl finish⟩
      rw [finishOf_of_ok ran] at evaluates
      refine ⟨middle, gained, evaluates, ?_⟩
      have accepted := inside_drops (accept.perform_follows around (middle.opened 0))
      rw [inBlock_eq, inBlock_eq] at failed
      rcases bind_ran_error.mp failed with failed | ⟨block, state, ran, failed⟩
      · rw [finishOf_of_error failed] at accepted
        exact accepted
      rw [finishOf_of_ok ran] at accepted
      have rejected := inside_drops (reject.perform_follows around (state.opened 0))
      rcases bind_ran_error.mp failed with failed | ⟨_, _, _, ⟨⟩⟩
      rw [finishOf_of_error failed] at rejected
      exact accepted.trans rejected
  | loop body =>
      have drops := inside_drops (body.perform_follows around (start.opened 1))
      change Recording.loop (body.perform around) start = _ at failed
      rw [Recording.loop, looped_eq] at failed
      rcases bind_ran_error.mp failed with failed | ⟨_, _, _, ⟨⟩⟩
      rw [finishOf_of_error failed] at drops
      exact ⟨start, [], .refl opened, drops⟩
  | range counter first last body =>
      rcases rangeHead_evaluating around.function opened first last with ⟨gained, evaluates⟩
      change Recording.range around.function first last _ start = _ at failed
      rw [range_eq] at failed
      rcases bind_ran_error.mp failed with failed | ⟨head, middle, ran, failed⟩
      · rw [finishOf_of_error failed] at evaluates
        exact ⟨finish, gained, evaluates, .refl finish⟩
      rw [finishOf_of_ok ran] at evaluates
      refine ⟨middle, gained, evaluates, ?_⟩
      rcases rangeHead_ran_ok around ran with ⟨state, _, rfl, sameCounter⟩
      rcases bind_ran_error.mp failed with failed | ⟨_, _, _, ⟨⟩⟩
      have follows (node : Node) (state : Recorder) : Follows around (do
          assign counter node
          body.perform around) state :=
        (assign_follows counter node).bind fun _ state _ => body.perform_follows around state
      have drops := inside_counted_drops state head.type follows
      rw [sameCounter] at failed
      rw [finishOf_of_error failed] at drops
      exact ⟨drops.scopes, drops.blocks, drops.loopDepth, drops.counter, drops.fresh, drops.known⟩
  | _ => cases hasBlocks

/-- Whatever an action with blocks did before it failed, the recorder is back in the block in
which the action began: the open blocks, the open scopes and the depth of loops are the same, and
this block has gained nothing but loads of the condition or of the bounds, one at most for each.
Every other node that the action added, and that is not visible everywhere, is refused in all
later states of the recording. -/
theorem Action.balanced_of_error {error : ShaderError} (hasBlocks : action.hasBlocks = true)
    (occurs : start.Occurs around) (failed : action.perform around start = .error error finish) :
    finish.scopes = start.scopes ∧ finish.loopDepth = start.loopDepth ∧
      ∃ gained : List Node,
        finish.blocks = (start.openBlock ++ gained.map Statement.emit) :: start.blocks.tail ∧
        gained.length ≤ action.heads.length ∧
        (∀ node ∈ gained, Loads start finish action.heads node) ∧
        ∀ (index : Nat) entry, start.expressions.size ≤ index →
          finish.expressions[index]? = some entry → entry.expression.isGlobal = false →
          ⟨around.function.id, index⟩ ∉ gained → ∀ later, finish.Later around later →
            Recording.entry around.function ⟨around.function.id, index⟩ later =
              refuse around.function .hiddenNode later := by
  have proper := occurs.proper
  rcases action.drops_of_error hasBlocks proper.opened failed with
    ⟨middle, gained, evaluates, drops⟩
  refine ⟨drops.scopes.trans evaluates.scopes, drops.loopDepth.trans evaluates.loopDepth, gained,
    drops.blocks.trans evaluates.blocks, evaluates.few, ?_, ?_⟩
  · intro node member
    rcases evaluates.loads node member with ⟨register, source, entry, operand, same, found, load⟩
    exact ⟨register, source, entry, operand, same, drops.known _ _ found, load⟩
  · intro index entry new found inBlock ungained later reached
    have inside : middle.scopeCounter < entry.scope ∧ entry.scope ≤ finish.scopeCounter := by
      rcases drops.fresh index entry found with old | isGlobal | inside
      · rcases evaluates.fresh index entry old with old | isGlobal | member
        · exact absurd (Array.getElem?_eq_some_iff.mp old).1 (Nat.not_lt.mpr new)
        · cases inBlock.symm.trans isGlobal
        · exact absurd member ungained
      · cases inBlock.symm.trans isGlobal
      · exact inside
    have retired : finish.Retired entry.scope := by
      refine ⟨inside.2, fun member => ?_⟩
      rw [drops.scopes, evaluates.scopes] at member
      have numbered := proper.counted _ member
      rw [evaluates.counter] at inside
      exact Nat.not_lt.mpr numbered inside.1
    exact (reached.retired retired).refused (Nat.ne_of_gt (Nat.zero_lt_of_lt inside.1))
      (reached.preserves.expressions index entry found)

def exampleMixed : Action :=
  .branch (.register "lit")
    (.ofList [
      .declare "glow" none (.literal (.u32 7)),
      .range "number" (.literal (.u32 0)) (.register "glow") (.ofList [
        .loop (.ofList [
          .leaveLoop,
          .binary "sum" .add (.register "number") (.literal (.i32 1))])])])
    .done

def exampleForgiving : ShaderFunction where
  id := ⟨0⟩
  signature := ⟨"forgiving", [], none, none⟩
  implementation := .script
    (.ofList [.declareZero "lit" (.ok .bool), .attempt (.ofList [exampleMixed])]) none

def exampleForgiven : Surroundings where
  program := ⟨[exampleForgiving]⟩
  trace _ := Tracing.refuse exampleForgiving .nestedTooDeep
  function := exampleForgiving

def exampleUnlit : Recorder :=
  finishOf ((Script.ofList [.declareZero "lit" (.ok .bool)]).perform exampleForgiven)
    { session := {} }

/-- The failure is in the third block, and the variable of the first one stays hidden. -/
theorem balanced_of_error_exampleMixed : exampleMixed.hasBlocks = true ∧
    exampleUnlit.Occurs exampleForgiven ∧ ∃ error finish,
      exampleMixed.perform exampleForgiven exampleUnlit = .error error finish ∧
        finish.scopes = [1] ∧ finish.loopDepth = 0 ∧
        ∃ gained : List Node, finish.blocks = [.declare 0 none :: gained.map Statement.emit] ∧
          gained.length ≤ 1 ∧ ∀ later, finish.Later exampleForgiven later →
            Recording.entry exampleForgiving ⟨⟨0⟩, 3⟩ later =
              refuse exampleForgiving .hiddenNode later := by
  have occurs : exampleUnlit.Occurs exampleForgiven :=
    ⟨{}, .changes (Script.perform_follows exampleForgiven _ _).becomes⟩
  refine ⟨rfl, occurs, ?_⟩
  have inner : (finishOf (exampleMixed.perform exampleForgiven) exampleUnlit).expressions[3]? =
      some ⟨.localVariable 1, .u32, some ⟨.readWrite, .localVariable⟩, 2⟩ := by decide +kernel
  have fails : (match exampleMixed.perform exampleForgiven exampleUnlit with
      | .ok _ _ => false | .error _ _ => true) = true := by decide +kernel
  cases failed : exampleMixed.perform exampleForgiven exampleUnlit with
  | ok result finish =>
      rw [failed] at fails
      cases fails
  | error error finish =>
      rw [finishOf_of_error failed] at inner
      obtain ⟨scopes, loopDepth, gained, blocks, few, loads, hidden⟩ :=
        Action.balanced_of_error rfl occurs failed
      refine ⟨error, finish, rfl, scopes, loopDepth, gained, blocks, few, ?_⟩
      have unbound : ⟨⟨0⟩, 3⟩ ∉ gained := by
        intro member
        rcases loads _ member with ⟨register, source, entry, _, _, found, load⟩
        cases inner.symm.trans found
        cases load
      exact hidden 3 _ (by decide) inner rfl unbound

end ShaderKit
