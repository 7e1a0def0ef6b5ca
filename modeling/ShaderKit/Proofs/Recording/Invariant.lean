import ShaderKit.Proofs.Recording.Typing
import ShaderKit.Proofs.RelatedLists

/-!
# The invariant of a recording

What holds of a recorder before and after every operation, also of one that fails. A node
that is visible from the open block can be evaluated there, although the recorder only
compares scopes: an expression that is not inlined is bound in the block whose scope it has,
and a scope is never used for two blocks.
-/

namespace ShaderKit

/-- What a recording belongs to: its program and function, and what the blocks around the
open one make available. -/
structure Setting where
  program : Program
  function : ShaderFunction
  outer : List Binder

namespace Recorder

def openBlock (recorder : Recorder) : Block :=
  recorder.blocks.head?.getD []

/-- What is available at the end of the open block. -/
def available (recorder : Recorder) (setting : Setting) : List Binder :=
  setting.outer ++ blockBinds recorder.openBlock

def Shows (recorder : Recorder) (entry : ExpressionEntry) : Prop :=
  entry.scope = globalScope ∨ entry.scope ∈ recorder.scopes

/-- A recording that follows the typing rules so far. -/
structure Sound (recorder : Recorder) (setting : Setting) : Prop where
  context : recorder.session.context.Sound setting.program
  entries : ∀ (index : Nat) entry, recorder.expressions[index]? = some entry →
    (recorder.inventory setting.function).EntrySound index entry
  opened : recorder.blocks ≠ []
  checked : BlockChecked (recorder.inventory setting.function) (recorder.loopDepth ≠ 0)
    setting.outer recorder.openBlock
  visible : ∀ (index : Nat) entry, recorder.expressions[index]? = some entry →
    recorder.Shows entry → Ready recorder.expressions (recorder.available setting) index
  nested : recorder.scopes ≠ []
  counted : ∀ scope ∈ recorder.scopes, 0 < scope ∧ scope ≤ recorder.scopeCounter
  bounded : ∀ (index : Nat) entry, recorder.expressions[index]? = some entry →
    entry.scope ≤ recorder.scopeCounter

/-- What operations leave of a recording: it grows at the end of the open block, and new
entries are visible in that block, everywhere, or only in blocks that are closed again. -/
structure Grows (before after : Recorder) (function : ShaderFunction) : Prop where
  inventory : (before.inventory function).Extends (after.inventory function)
  block : ∃ added, after.openBlock = before.openBlock ++ added
  outer : after.blocks.tail = before.blocks.tail
  scopes : after.scopes = before.scopes
  loopDepth : after.loopDepth = before.loopDepth
  counter : before.scopeCounter ≤ after.scopeCounter
  fresh : ∀ (index : Nat) entry, after.expressions[index]? = some entry →
    before.expressions[index]? = some entry ∨ entry.expression.isGlobal = true ∨
      entry.scope = before.currentScope ∨ before.scopeCounter < entry.scope

variable {before middle after : Recorder} {function : ShaderFunction}

theorem Grows.refl (recorder : Recorder) : recorder.Grows recorder function where
  inventory := .refl _
  block := ⟨[], (List.append_nil _).symm⟩
  outer := rfl
  scopes := rfl
  loopDepth := rfl
  counter := Nat.le_refl _
  fresh _ _ found := .inl found

theorem Grows.currentScope (grows : before.Grows after function) :
    after.currentScope = before.currentScope := by
  rw [Recorder.currentScope, Recorder.currentScope, grows.scopes]

theorem Grows.trans (first : before.Grows middle function)
    (second : middle.Grows after function) : before.Grows after function where
  inventory := first.inventory.trans second.inventory
  block := by
    rcases first.block with ⟨added, firstBlock⟩
    rcases second.block with ⟨more, secondBlock⟩
    exact ⟨added ++ more, by rw [secondBlock, firstBlock, List.append_assoc]⟩
  outer := second.outer.trans first.outer
  scopes := second.scopes.trans first.scopes
  loopDepth := second.loopDepth.trans first.loopDepth
  counter := Nat.le_trans first.counter second.counter
  fresh index entry found := by
    rcases second.fresh index entry found with old | isGlobal | scope | deeper
    · exact first.fresh index entry old
    · exact .inr (.inl isGlobal)
    · exact .inr (.inr (.inl (scope.trans first.currentScope)))
    · exact .inr (.inr (.inr (Nat.lt_of_le_of_lt first.counter deeper)))

theorem Grows.available (grows : before.Grows after function) (setting : Setting) :
    ∀ binder ∈ before.available setting, binder ∈ after.available setting := by
  intro binder member
  rcases grows.block with ⟨added, block⟩
  rw [Recorder.available, block, blockBinds, List.flatMap_append, ← List.append_assoc]
  exact List.mem_append_left _ member

abbrev Usable (recorder : Recorder) (setting : Setting) (node : Node) (type : TypeDescriptor)
    (reference : Option Reference) : Prop :=
  (recorder.inventory setting.function).Usable (recorder.available setting) node type reference

abbrev Operand (recorder : Recorder) (setting : Setting) (node : Node) (type : TypeDescriptor) :
    Prop :=
  recorder.Usable setting node type none

theorem Usable.grow {setting : Setting} {node : Node} {type : TypeDescriptor}
    {reference : Option Reference} (usable : before.Usable setting node type reference)
    (grows : before.Grows after setting.function) : after.Usable setting node type reference :=
  usable.mono grows.inventory (grows.available setting)

theorem Usable.index_lt {setting : Setting} {node : Node} {type : TypeDescriptor}
    {reference : Option Reference} (usable : before.Usable setting node type reference) :
    node.index < before.expressions.size := by
  rcases usable.known with ⟨entry, found, _⟩
  exact (Array.getElem?_eq_some_iff.mp found).1

end Recorder

/-! ## Operations that keep the invariant -/

/-- Work that keeps the invariant and only makes the recording grow. A result is as
described by the postcondition. -/
def Recording.Meets {α : Type} (setting : Setting) (work : Recording α) (start : Recorder)
    (post : α → Recorder → Prop) : Prop :=
  match work start with
  | .ok result finish =>
      finish.Sound setting ∧ start.Grows finish setting.function ∧ post result finish
  | .error _ finish => finish.Sound setting ∧ start.Grows finish setting.function

namespace Recording.Meets

open Recorder

variable {α β : Type} {setting : Setting} {start : Recorder}

theorem of_ok {work : Recording α} {post : α → Recorder → Prop} {result : α} {finish : Recorder}
    (ran : work start = .ok result finish) (sound : finish.Sound setting)
    (grows : start.Grows finish setting.function) (holds : post result finish) :
    Meets setting work start post := by
  unfold Meets
  rw [ran]
  exact ⟨sound, grows, holds⟩

theorem of_error {work : Recording α} {post : α → Recorder → Prop} {error : ShaderError}
    {finish : Recorder} (ran : work start = .error error finish) (sound : finish.Sound setting)
    (grows : start.Grows finish setting.function) : Meets setting work start post := by
  unfold Meets
  rw [ran]
  exact ⟨sound, grows⟩

theorem ends {work : Recording α} {post : α → Recorder → Prop}
    (meets : Meets setting work start post) :
    (∃ result finish, work start = .ok result finish ∧ finish.Sound setting ∧
      start.Grows finish setting.function ∧ post result finish) ∨
    ∃ error finish, work start = .error error finish ∧ finish.Sound setting ∧
      start.Grows finish setting.function := by
  unfold Meets at meets
  cases ran : work start with
  | ok result finish =>
      rw [ran] at meets
      exact .inl ⟨result, finish, rfl, meets⟩
  | error error finish =>
      rw [ran] at meets
      exact .inr ⟨error, finish, rfl, meets⟩

theorem pure {value : α} {post : α → Recorder → Prop} (sound : start.Sound setting)
    (holds : post value start) : Meets setting (pure value) start post :=
  of_ok rfl sound (.refl start) holds

theorem throw {error : ShaderError} {post : α → Recorder → Prop}
    (sound : start.Sound setting) : Meets setting (throw error) start post :=
  of_error rfl sound (.refl start)

theorem refuse {function : ShaderFunction} {fault : RecordingFault}
    {post : α → Recorder → Prop} (sound : start.Sound setting) :
    Meets setting (Recording.refuse function fault) start post :=
  of_error rfl sound (.refl start)

theorem imp {work : Recording α} {post other : α → Recorder → Prop}
    (meets : Meets setting work start post)
    (weaker : ∀ value finish, post value finish → other value finish) :
    Meets setting work start other := by
  rcases meets.ends with ⟨value, finish, ran, sound, grows, holds⟩ | ⟨error, finish, ran, kept⟩
  · exact of_ok ran sound grows (weaker value finish holds)
  · exact of_error ran kept.1 kept.2

theorem later {work next : Recording α} {state : Recorder} {post : α → Recorder → Prop}
    (same : work start = next state) (grows : start.Grows state setting.function)
    (meets : Meets setting next state post) : Meets setting work start post := by
  rcases meets.ends with ⟨value, finish, ran, sound, grown, holds⟩ | ⟨error, finish, ran, kept⟩
  · exact of_ok (same.trans ran) sound (grows.trans grown) holds
  · exact of_error (same.trans ran) kept.1 (grows.trans kept.2)

theorem bind {work : Recording α} {next : α → Recording β} {middle : α → Recorder → Prop}
    {post : β → Recorder → Prop} (first : Meets setting work start middle)
    (rest : ∀ value state, state.Sound setting → start.Grows state setting.function →
      middle value state → Meets setting (next value) state post) :
    Meets setting (work >>= next) start post := by
  rcases first.ends with ⟨value, state, ran, sound, grows, holds⟩ | ⟨error, state, ran, kept⟩
  · have same : (work >>= next) start = next value state := by
      simp only [Bind.bind, EStateM.bind, ran]
    exact later same grows (rest value state sound grows holds)
  · have same : (work >>= next) start = .error error state := by
      simp only [Bind.bind, EStateM.bind, ran]
    exact of_error same kept.1 kept.2

theorem get_bind {next : Recorder → Recording α} {post : α → Recorder → Prop}
    (meets : Meets setting (next start) start post) : Meets setting (get >>= next) start post :=
  meets

theorem become {finish : Recorder} (sound : finish.Sound setting)
    (grows : start.Grows finish setting.function) :
    Meets setting (set finish) start fun _ state => state = finish :=
  ⟨sound, grows, rfl⟩

theorem modify {change : Recorder → Recorder} (sound : (change start).Sound setting)
    (grows : start.Grows (change start) setting.function) :
    Meets setting (modify change) start fun _ state => state = change start :=
  ⟨sound, grows, rfl⟩

theorem mapM {work : α → Recording β} {items : List α} (holds : α → β → Recorder → Prop)
    (stable : ∀ item result before after, Grows before after setting.function →
      holds item result before → holds item result after)
    (each : ∀ item ∈ items, ∀ state, state.Sound setting → start.Grows state setting.function →
      Meets setting (work item) state (holds item))
    (sound : start.Sound setting) :
    Meets setting (items.mapM work) start fun results finish =>
      List.Forall₂ (fun item result => holds item result finish) items results := by
  induction items generalizing start with
  | nil =>
      rw [List.mapM_nil]
      exact pure sound .nil
  | cons item rest induction =>
      rw [List.mapM_cons]
      apply bind (each item List.mem_cons_self start sound (.refl start))
      intro first middle middleSound grown firstHolds
      have others : Meets setting (rest.mapM work) middle fun results finish =>
          List.Forall₂ (fun item result => holds item result finish) rest results := by
        apply induction _ middleSound
        intro other member state stateSound stateGrown
        exact each other (List.mem_cons_of_mem _ member) state stateSound (grown.trans stateGrown)
      apply bind others
      intro results finish finishSound finishGrown resultsHold
      exact pure finishSound (.cons (stable _ _ _ _ finishGrown firstHolds) resultsHold)

end Recording.Meets

/-! ## Statements and expressions at the end of the open block -/

namespace Recorder

variable {setting : Setting} {start : Recorder} {statement : Statement}

theorem openBlock_addStatement (opened : start.blocks ≠ []) :
    (start.addStatement statement).openBlock = start.openBlock ++ [statement] := by
  unfold addStatement openBlock
  split
  next empty => exact absurd empty opened
  next block outer same =>
    rw [same]
    rfl

theorem blocks_addStatement (opened : start.blocks ≠ []) :
    (start.addStatement statement).blocks ≠ [] ∧
      (start.addStatement statement).blocks.tail = start.blocks.tail := by
  unfold addStatement
  split
  next empty => exact absurd empty opened
  next block outer same =>
    rw [same]
    exact ⟨List.cons_ne_nil _ _, rfl⟩

theorem addStatement_eq (start : Recorder) (statement : Statement) :
    start.addStatement statement =
      { start with blocks := (start.addStatement statement).blocks } := by
  unfold addStatement
  split <;> rfl

theorem available_addStatement (opened : start.blocks ≠ []) :
    (start.addStatement statement).available setting =
      start.available setting ++ statement.binds := by
  rw [available, openBlock_addStatement opened, blockBinds_concat, ← List.append_assoc]
  rfl

theorem inventory_addStatement (function : ShaderFunction) :
    (start.addStatement statement).inventory function = start.inventory function := by
  rw [addStatement_eq]
  rfl

theorem Grows.addStatement {function : ShaderFunction} (opened : start.blocks ≠ []) :
    start.Grows (start.addStatement statement) function where
  inventory := by
    rw [inventory_addStatement]
    exact .refl _
  block := ⟨[statement], openBlock_addStatement opened⟩
  outer := (blocks_addStatement opened).2
  scopes := by rw [addStatement_eq]
  loopDepth := by rw [addStatement_eq]
  counter := by
    apply Nat.le_of_eq
    rw [addStatement_eq]
  fresh index entry found := by
    rw [addStatement_eq] at found
    exact .inl found

/-- A statement that follows the rules at the end of the open block may be added there. -/
theorem Sound.addStatement (sound : start.Sound setting)
    (checked : statement.Checked (start.inventory setting.function) (start.loopDepth ≠ 0)
      (start.available setting)) : (start.addStatement statement).Sound setting where
  context := by
    rw [addStatement_eq]
    exact sound.context
  entries index entry found := by
    rw [inventory_addStatement]
    rw [addStatement_eq] at found
    exact sound.entries index entry found
  opened := (blocks_addStatement sound.opened).1
  checked := by
    rw [inventory_addStatement, openBlock_addStatement sound.opened, addStatement_eq]
    exact sound.checked.concat checked
  visible index entry found shows := by
    rw [available_addStatement sound.opened, addStatement_eq]
    rw [addStatement_eq] at found shows
    exact (sound.visible index entry found shows).mono (fun _ _ found => found)
      fun _ inside => List.mem_append_left _ inside
  nested := by
    rw [addStatement_eq]
    exact sound.nested
  counted := by
    rw [addStatement_eq]
    exact sound.counted
  bounded := by
    rw [addStatement_eq]
    exact sound.bounded

end Recorder

theorem Recorder.Sound.usable {setting : Setting} {start : Recorder}
    (sound : start.Sound setting) {node : Node} {entry : ExpressionEntry}
    (found : start.expressions[node.index]? = some entry) (shows : start.Shows entry) :
    start.Usable setting node entry.type entry.reference :=
  ⟨⟨entry, found, rfl, rfl⟩, sound.visible node.index entry found shows⟩

end ShaderKit
