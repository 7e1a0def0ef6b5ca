import ShaderKit.Proofs.Module.Closed
import ShaderKit.Proofs.Recording.Spellable
import ShaderKit.Proofs.Text.Operands

/-!
# Operands need no parentheses

Operators are written without parentheses around their operands. That is safe, since what has
operands of its own is bound to a name first: the text of an operand is an identifier, a literal,
or in parentheses already. What is reached through is written as a chain of accesses.
-/

namespace ShaderKit

open ModuleNames (lookup lookup?)
open Text (AtomicText ReadsOnly)

/-! ## Operands -/

namespace Expression

def valueOperands : Expression → List Node
  | .unary _ source | .convert source => [source]
  | .binary _ left right => [left, right]
  | .index _ position => [position]
  | .standard .arrayLength _ => []
  | .compose arguments | .call _ arguments | .standard _ arguments | .helper _ arguments =>
      arguments
  | _ => []

/-- The operands through which something is reached: the base of a member, an element or a
component, what is loaded, and the array of which the length is asked. -/
def accessOperands : Expression → List Node
  | .load source | .member source _ | .swizzle source _ => [source]
  | .index base _ => [base]
  | .standard .arrayLength arguments => arguments
  | _ => []

theorem mem_operands {expression : Expression} {node : Node} : node ∈ expression.operands ↔
    node ∈ expression.valueOperands ∨ node ∈ expression.accessOperands := by
  cases expression with
  | standard function arguments =>
      cases function <;> simp [operands, valueOperands, accessOperands]
  | index base position => simp [operands, valueOperands, accessOperands, or_comm]
  | _ => simp [operands, valueOperands, accessOperands]

end Expression

namespace Statement

def valueOperands : Statement → List Node
  | .store _ source => [source]
  | statement => statement.operands

def accessOperands : Statement → List Node
  | .store target _ => [target]
  | _ => []

theorem mem_operands {statement : Statement} {node : Node} : node ∈ statement.operands ↔
    node ∈ statement.valueOperands ∨ node ∈ statement.accessOperands := by
  cases statement with
  | store => simp [operands, valueOperands, accessOperands, or_comm]
  | _ => simp [valueOperands, accessOperands]

end Statement

/-- An identifier, or a chain of accesses to one: to members of structures that a function
mentions, to elements, and to components of vectors. -/
inductive AccessText (recorded : RecordedFunction) : String → Prop where
  | identifier {name : String} (valid : Identifier.isValid name = true) : AccessText recorded name
  | member {base name : String} (access : AccessText recorded base) {entry : ExpressionEntry}
      (listed : entry ∈ recorded.expressions)
      (declared : name ∈ entry.type.members.toList.map Member.name) :
      AccessText recorded (base ++ "." ++ name)
  | index {base position : String} (access : AccessText recorded base)
      (atomic : AtomicText position) : AccessText recorded (base ++ "[" ++ position ++ "]")
  | component {base letters : String} (access : AccessText recorded base)
      (filled : letters ≠ "") (known : ∀ letter ∈ letters.toList, letter ∈ ['x', 'y', 'z', 'w']) :
      AccessText recorded (base ++ "." ++ letters)

namespace FunctionScope

variable (scope : FunctionScope) (bound : List (Nat × String))

/-- Values are spelled as texts that hold together, and what is reached through as a chain of
accesses. -/
structure OperandsHold (values accesses : List Node) : Prop where
  values : ∀ node ∈ values, AtomicText (scope.text bound node)
  accesses : ∀ node ∈ accesses, AccessText scope.recorded (scope.text bound node)

/-- Where a statement is written, the expression of a node is spelled out: the one that is bound
there, and those of operands without a name, also inside of each other. -/
inductive SpellsOut : Statement → Node → Prop where
  | emit {node : Node} : SpellsOut (.emit node) node
  | operand {statement : Statement} {node : Node} (used : node ∈ statement.operands)
      (unnamed : lookup? bound node.index = none) : SpellsOut statement node
  | inner {statement : Statement} {outer node : Node} {entry : ExpressionEntry}
      (spelled : SpellsOut statement outer) (found : scope.recorded.entry? outer = some entry)
      (used : node ∈ entry.expression.operands)
      (unnamed : lookup? bound node.index = none) : SpellsOut statement node

/-- All names that a function can spell are identifiers. -/
structure Identified : Prop where
  values : ∀ index name, lookup? bound index = some name → Identifier.isValid name = true
  parameters : ∀ index < scope.recorded.signature.parameters.length,
    Identifier.isValid (scope.parameters.getD index "") = true
  locals : ∀ index < scope.recorded.locals.size,
    Identifier.isValid (scope.variableNames.getD index "") = true
  declarations : ∀ entry ∈ scope.recorded.expressions, ∀ needed,
    entry.expression.declaration? = some needed →
      ∃ name, scope.names.find? needed = some name ∧ Identifier.isValid name = true

end FunctionScope

/-! ## Texts of nodes -/

def Inventory.Reaches (inventory : Inventory) (node : Node) : Prop :=
  ∃ type reference, inventory.At node type reference ∧
    (reference.isSome = true ∨ ∀ kind, type ≠ .scalar kind)

namespace Inventory.Types

variable {inventory : Inventory} {expression : Expression} {type : TypeDescriptor}
  {reference : Option Reference}

theorem valueAt (types : inventory.Types expression type reference) :
    ∀ node ∈ expression.valueOperands, ∃ type, inventory.ValueAt node type := by
  have all {arguments : List Node} {types : List TypeDescriptor}
      (argumentsAt : List.Forall₂ inventory.ValueAt arguments types) :
      ∀ node ∈ arguments, ∃ type, inventory.ValueAt node type := by
    intro node member
    rcases exists_right_of_mem argumentsAt member with ⟨type, valueAt⟩
    exact ⟨type, valueAt⟩
  intro node member
  cases types with
  | parameter | literal | constant | binding | localVariable | load | zero | member | component
  | swizzle | arrayLength => cases member
  | compose argumentsAt | call _ argumentsAt | helper argumentsAt =>
      exact all argumentsAt node member
  | @standard function _ _ _ argumentsAt known =>
      refine all argumentsAt node ?_
      cases function <;> first | exact absurd rfl known | exact member
  | unary operandAt | convert operandAt =>
      rw [List.mem_singleton.mp member]
      exact ⟨_, operandAt⟩
  | index _ positionAt =>
      rw [List.mem_singleton.mp member]
      exact ⟨_, positionAt⟩
  | binary leftAt rightAt =>
      rcases List.mem_cons.mp member with rfl | member
      · exact ⟨_, leftAt⟩
      · rw [List.mem_singleton.mp member]
        exact ⟨_, rightAt⟩

theorem reaches (types : inventory.Types expression type reference)
    (spellable : expression.Spellable inventory.expressions) :
    ∀ node ∈ expression.accessOperands, inventory.Reaches node := by
  intro node member
  cases types with
  | parameter | literal | constant | binding | localVariable | zero | compose | unary | binary
  | call | helper | convert => cases member
  | load sourceAt =>
      rw [List.mem_singleton.mp member]
      exact ⟨_, _, sourceAt, .inl rfl⟩
  | @member _ type _ _ _ _ baseAt declared =>
      rw [List.mem_singleton.mp member]
      refine ⟨_, _, baseAt, .inr ?_⟩
      rintro kind rfl
      cases declared
  | index baseAt _ _ indexed =>
      rw [List.mem_singleton.mp member]
      refine ⟨_, _, baseAt, .inr ?_⟩
      rintro kind rfl
      cases indexed
  | component sourceAt | swizzle sourceAt =>
      rw [List.mem_singleton.mp member]
      exact ⟨_, _, sourceAt, .inr nofun⟩
  | arrayLength arguments =>
      rcases spellable rfl node member with ⟨entry, found, reference⟩
      exact ⟨_, _, ⟨entry, found, rfl, rfl⟩, .inl reference⟩
  | @standard function _ _ _ _ known =>
      cases function <;> first | exact absurd rfl known | cases member

end Inventory.Types

namespace FunctionScope

theorem mem_componentLetters {components : List Nat} {letter : Char}
    (inside : letter ∈ (componentLetters components).toList) :
    letter ∈ ['x', 'y', 'z', 'w'] := by
  rw [componentLetters, String.toList_ofList] at inside
  rcases List.mem_map.mp inside with ⟨component, _, rfl⟩
  rw [List.getD_eq_getElem?_getD]
  cases found : ['x', 'y', 'z', 'w'][component]? with
  | none => decide
  | some letter => exact List.mem_of_getElem? found

/-- Where a statement of a recording is written. -/
structure Place (scope : FunctionScope) (context : TraceContext) (writer : FunctionWriter)
    (available : List Binder) : Prop where
  sound : scope.recorded.Sound context
  spellable : ∀ entry ∈ scope.recorded.expressions,
    entry.expression.Spellable scope.recorded.expressions
  identified : scope.Identified writer.bound
  names : writer.Names available

theorem isValid_lookup {α : Type} [DecidableEq α] {names : List (α × String)} {thing : α}
    (named : ∃ name, lookup? names thing = some name ∧ Identifier.isValid name = true) :
    Identifier.isValid (lookup names thing) = true := by
  rcases named with ⟨name, found, valid⟩
  rw [lookup, found]
  exact valid

namespace Place

variable {scope : FunctionScope} {context : TraceContext} {writer : FunctionWriter}
  {available : List Binder} (place : scope.Place context writer available) {node : Node}

include place

theorem ordered : Activation.Ordered scope.recorded.expressions :=
  fun index entry found => (place.sound.entries index entry found).earlier

theorem inlined_of_unnamed {entry : ExpressionEntry}
    (ready : Ready scope.recorded.expressions available node.index)
    (unnamed : lookup? writer.bound node.index = none)
    (found : scope.recorded.entry? node = some entry) :
    entry.isInlined = true ∧ ∀ operand ∈ entry.expression.operands,
      Ready scope.recorded.expressions available operand.index := by
  cases ready with
  | bound inside =>
      have named := place.names node.index inside
      rw [unnamed] at named
      cases named
  | inlined foundAgain inlined _ operands =>
      cases found.symm.trans foundAgain
      exact ⟨inlined, operands⟩

/-- A value that is available is spelled as a text that holds together: what is inlined without
being a reference is a parameter, a literal or a constant. -/
theorem atomicText {type : TypeDescriptor}
    (ready : Ready scope.recorded.expressions available node.index)
    (valueAt : (scope.recorded.inventory context).ValueAt node type) :
    AtomicText (scope.text writer.bound node) := by
  cases state : lookup? writer.bound node.index with
  | some name =>
      rw [text_of_named state]
      exact .inl (place.identified.values _ _ state)
  | none =>
      rcases valueAt with ⟨entry, found, _, value⟩
      have inlined := (place.inlined_of_unnamed ready state found).1
      rw [text_of_unnamed place.ordered state found]
      have listed := Array.mem_of_getElem? found
      have types := (place.sound.entries node.index entry found).types
      have declared := place.identified.declarations entry listed
      have literal := place.spellable entry listed
      rcases entry with ⟨expression, entryType, reference, visible⟩
      subst value
      cases types with
      | @parameter index _ known =>
          exact .inl (place.identified.parameters index (List.getElem?_eq_some_iff.mp known).1)
      | literal value => exact .inr (Scalar.literalText literal)
      | constant => exact .inl (isValid_lookup (declared _ rfl))
      | _ => cases inlined

/-- The values that an available expression uses are spelled as texts that hold together. -/
theorem atomicText_operands {index : Nat} {entry : ExpressionEntry}
    (found : scope.recorded.expressions[index]? = some entry)
    (operands : ∀ operand ∈ entry.expression.operands,
      Ready scope.recorded.expressions available operand.index) :
    ∀ value ∈ entry.expression.valueOperands, AtomicText (scope.text writer.bound value) := by
  intro value member
  rcases (place.sound.entries index entry found).types.valueAt value member with ⟨type, valueAt⟩
  exact place.atomicText (operands value (Expression.mem_operands.mpr (.inl member))) valueAt

/-- What is available and can be reached through is spelled as a chain of accesses. The chain
ends, since operands come before the expressions they belong to. -/
theorem accessText (ready : Ready scope.recorded.expressions available node.index)
    (reaches : (scope.recorded.inventory context).Reaches node) :
    AccessText scope.recorded (scope.text writer.bound node) := by
  induction size : node.index using Nat.strongRecOn generalizing node with
  | ind bound induction =>
  subst size
  cases state : lookup? writer.bound node.index with
  | some name =>
      rw [text_of_named state]
      exact .identifier (place.identified.values _ _ state)
  | none =>
      rcases reaches with ⟨_, _, ⟨entry, found, rfl, rfl⟩, through⟩
      rcases place.inlined_of_unnamed ready state found with ⟨inlined, operands⟩
      rw [text_of_unnamed place.ordered state found]
      have listed := Array.mem_of_getElem? found
      have entrySound := place.sound.entries node.index entry found
      have types := entrySound.types
      have declared := place.identified.declarations entry listed
      have values := place.atomicText_operands found operands
      have bases : ∀ base ∈ entry.expression.accessOperands,
          AccessText scope.recorded (scope.text writer.bound base) := by
        intro base member
        have operand := Expression.mem_operands.mpr (.inr member)
        exact induction base.index (entrySound.earlier base operand) (operands base operand)
          (types.reaches (place.spellable entry listed) base member) rfl
      rcases entry with ⟨expression, entryType, reference, visible⟩
      cases types with
      | @parameter index _ known =>
          exact .identifier
            (place.identified.parameters index (List.getElem?_eq_some_iff.mp known).1)
      | literal value =>
          rcases through with through | through
          · cases through
          · exact absurd rfl (through _)
      | constant | binding => exact .identifier (isValid_lookup (declared _ rfl))
      | @localVariable index _ known =>
          exact .identifier
            (place.identified.locals index (Array.getElem?_eq_some_iff.mp known).1)
      | @member base type _ _ position member baseAt selected =>
          rcases baseAt with ⟨whole, wholeFound, rfl, _⟩
          have name : scope.memberName base position = member.name := by
            rw [memberName, show scope.recorded.entry? base = some whole from wholeFound]
            simp [(MemberList.toList_of_find? selected).1]
          have inside := List.mem_of_getElem? (MemberList.toList_of_find? selected).1
          have access := AccessText.member (bases base List.mem_cons_self)
            (Array.mem_of_getElem? wholeFound) (List.mem_map_of_mem inside)
          rw [← name] at access
          exact access
      | index =>
          exact .index (bases _ List.mem_cons_self) (values _ List.mem_cons_self)
      | @component source _ _ _ position =>
          have letters : (componentLetters [position]) ≠ "" := by
            simp [componentLetters]
          exact .component (bases source List.mem_cons_self) letters
            fun _ inside => mem_componentLetters inside
      | _ => cases inlined

theorem holds_expression {index : Nat} {entry : ExpressionEntry}
    (found : scope.recorded.expressions[index]? = some entry)
    (operands : ∀ operand ∈ entry.expression.operands,
      Ready scope.recorded.expressions available operand.index) :
    scope.OperandsHold writer.bound entry.expression.valueOperands
      entry.expression.accessOperands where
  values := place.atomicText_operands found operands
  accesses := by
    intro base member
    have spellable := place.spellable entry (Array.mem_of_getElem? found)
    exact place.accessText (operands base (Expression.mem_operands.mpr (.inr member)))
      ((place.sound.entries index entry found).types.reaches spellable base member)

theorem holds_statement {statement : Statement} {inLoop : Prop}
    (checked : statement.Checked (scope.recorded.inventory context) inLoop available) :
    scope.OperandsHold writer.bound statement.valueOperands statement.accessOperands := by
  have atomic {node : Node} {type : TypeDescriptor}
      (operand : (scope.recorded.inventory context).Operand available node type) :
      AtomicText (scope.text writer.bound node) := place.atomicText operand.ready operand.known
  cases statement with
  | emit | loop | leaveLoop | nextRound | discard => exact ⟨nofun, nofun⟩
  | declare index initial =>
      simp only [Statement.Checked] at checked
      rcases checked with ⟨_, _, operand⟩
      exact ⟨fun node member => atomic (operand node (Option.mem_toList.mp member)), nofun⟩
  | store target source =>
      simp only [Statement.Checked] at checked
      rcases checked with ⟨type, reference, usable, operand⟩
      refine ⟨List.forall_mem_singleton.mpr (atomic operand), List.forall_mem_singleton.mpr ?_⟩
      exact place.accessText usable.ready ⟨type, some reference, usable.known, .inl rfl⟩
  | callVoid callee arguments =>
      simp only [Statement.Checked] at checked
      rcases checked with ⟨_, _, operands⟩
      refine ⟨fun node member => ?_, nofun⟩
      rcases exists_right_of_mem operands member with ⟨_, operand⟩
      exact atomic operand
  | branch condition accept reject =>
      simp only [Statement.Checked] at checked
      exact ⟨List.forall_mem_singleton.mpr (atomic checked.1), nofun⟩
  | range counter first last body =>
      simp only [Statement.Checked] at checked
      rcases checked with ⟨_, _, _, firstOperand, lastOperand, _⟩
      refine ⟨List.forall_mem_cons.mpr ⟨atomic firstOperand, ?_⟩, nofun⟩
      exact List.forall_mem_singleton.mpr (atomic lastOperand)
  | giveBack result =>
      cases result with
      | none => exact ⟨nofun, nofun⟩
      | some value =>
          simp only [Statement.Checked] at checked
          rcases checked with ⟨_, _, operand⟩
          exact ⟨List.forall_mem_singleton.mpr (atomic operand), nofun⟩

theorem ready_of_spellsOut {statement : Statement} {inLoop : Prop}
    (spelled : scope.SpellsOut writer.bound statement node)
    (checked : statement.Checked (scope.recorded.inventory context) inLoop available)
    {entry : ExpressionEntry} (found : scope.recorded.entry? node = some entry) :
    ∀ operand ∈ entry.expression.operands,
      Ready scope.recorded.expressions available operand.index := by
  induction spelled generalizing entry with
  | emit =>
      intro operand member
      apply checked.ready operand
      rw [RecordedFunction.uses, found]
      exact member
  | @operand statement node used unnamed =>
      have ready : Ready scope.recorded.expressions available node.index := by
        apply checked.ready node
        cases statement with
        | emit => cases used
        | _ => exact used
      exact (place.inlined_of_unnamed ready unnamed found).2
  | inner _ outerFound used unnamed induction =>
      exact (place.inlined_of_unnamed (induction checked outerFound _ used) unnamed found).2

end Place

/-! ## Names in use -/

theorem Writes.becomes {scope : FunctionScope} {writer current : FunctionWriter} {block : Block}
    {statement : Statement} (writes : scope.Writes writer block current statement) :
    current.Becomes scope (writeBlock scope writer block) := by
  -- What is written inside of the first statement is followed by the rest of the block.
  have followed {writer current : FunctionWriter} {first : Statement} (rest : Block)
      (inside : current.Becomes scope (first.write scope writer)) :
      current.Becomes scope (writeBlock scope writer (first :: rest)) :=
    .trans inside (writeBlock_becomes scope rest _)
  induction writes with
  | @here writer statement rest => exact writeBlock_becomes scope (statement :: rest) writer
  | later _ induction => exact induction
  | @accept writer current condition accept reject rest _ _ induction =>
      have accepted : current.Becomes scope (scope.accepted writer condition accept) :=
        induction.trans (.output _ _)
      apply followed rest
      rw [write_branch]
      split
      next => exact accepted.trans (.output _ _)
      next =>
        exact (accepted.trans (.output _ _)).trans
          ((writeBlock_becomes scope reject _).trans (.output _ _))
  | @reject writer _ condition accept reject rest _ writes induction =>
      apply followed rest
      rw [write_branch]
      split
      next empty =>
        rw [List.isEmpty_iff.mp empty] at writes
        cases writes
      next => exact induction.trans (.output _ _)
  | loop _ induction =>
      apply followed
      rw [write_loop]
      exact induction.trans (.output _ _)
  | range _ induction =>
      apply followed
      rw [write_range]
      exact induction.trans (.output _ _)

end FunctionScope

theorem FunctionWriter.Becomes.bound_subset {scope : FunctionScope}
    {before after : FunctionWriter} (becomes : before.Becomes scope after) :
    before.bound ⊆ after.bound := by
  rcases becomes.handsAll with ⟨added, bound, _⟩
  rw [bound]
  exact List.subset_append_right _ _

theorem FunctionWriter.length_nameAll {α : Type}
    (take : FunctionWriter → α → FunctionWriter × String) (writer : FunctionWriter)
    (things : List α) : (writer.nameAll take things).2.length = things.length := by
  induction things generalizing writer with
  | nil => rfl
  | cons thing rest induction =>
      rw [nameAll]
      exact congrArg (· + 1) (induction (take writer thing).1)

namespace ModuleNames

theorem mem_of_lookup? {α : Type} [DecidableEq α] {names : List (α × String)} {thing : α}
    {name : String} (found : lookup? names thing = some name) : name ∈ names.map Prod.snd := by
  rcases Option.map_eq_some_iff.mp found with ⟨entry, listed, rfl⟩
  exact List.mem_map_of_mem (List.mem_of_find?_eq_some listed)

end ModuleNames

namespace RecordedFunction

variable {recorded : RecordedFunction} {identifier : String} {names : ModuleNames}
  {registry : NameRegistry} {block : Block}

/-- While a function is written, what it spells are identifiers, if the names of the module that
it mentions are. -/
theorem identified
    (declarations : ∀ entry ∈ recorded.expressions, ∀ needed,
      entry.expression.declaration? = some needed →
        ∃ name, names.find? needed = some name ∧ Identifier.isValid name = true)
    {current : FunctionWriter} {statement : Statement}
    (writes : (recorded.bodyScope names registry).Writes
      (recorded.bodyWriter identifier names registry) block current statement) :
    (recorded.bodyScope names registry).Identified current.bound := by
  rcases recorded.localNames_handsAll identifier names registry block with
    ⟨order, final, same, handed⟩
  have valid : ∀ name ∈ recorded.localNames identifier names registry block,
      Identifier.isValid name = true :=
    fun name member => (handed.fresh name (same.mem_iff.mp member)).2
  -- A name for each thing stands among the local names.
  have named {taken : List String} {count : Nat} (enough : taken.length = count)
      (inside : ∀ name ∈ taken, name ∈ recorded.localNames identifier names registry block) :
      ∀ index < count, Identifier.isValid (taken.getD index "") = true := by
    rintro index below
    rw [← enough] at below
    rw [List.getD_eq_getElem taken "" below]
    exact valid _ (inside _ (List.getElem_mem below))
  refine ⟨?_, ?_, ?_, declarations⟩
  · intro index name found
    apply valid
    have member := List.map_subset Prod.snd writes.becomes.bound_subset
      (ModuleNames.mem_of_lookup? found)
    exact List.mem_append_right _ member
  · exact named (FunctionWriter.length_nameAll _ _ _) fun name member =>
      List.mem_append_left _ (List.mem_append_left _ member)
  · refine named ?_ fun name member =>
      List.mem_append_left _ (List.mem_append_right _ member)
    rw [← Array.length_toList]
    exact FunctionWriter.length_nameAll _ _ _

end RecordedFunction

/-! ## Modules -/

theorem TraceContext.isValid_named (context : TraceContext) (table : BindingTable)
    (naming : NamingStrategy) :
    ∀ name ∈ (context.named table naming).2.map Prod.snd, Identifier.isValid name = true := by
  intro name member
  have handed := (NameRegistry.new naming).nameDeclarations_handsAll context table
    (context.declarations table)
  exact (handed.fresh name (List.mem_reverse.mpr member)).2

theorem Collected.identified {context : TraceContext} {table : BindingTable}
    {named : List (Declaration × String)} {recorded : RecordedFunction}
    (collected : Collected context table (named.map Prod.fst)) (ordered : context.Ordered)
    (valid : ∀ name ∈ named.map Prod.snd, Identifier.isValid name = true)
    (finished : recorded ∈ context.finished)
    (declared : .function recorded.id ∈ named.map Prod.fst) :
    ∀ entry ∈ recorded.expressions, ∀ needed, entry.expression.declaration? = some needed →
      ∃ name, (ModuleNames.ofDeclarations named).find? needed = some name ∧
        Identifier.isValid name = true := by
  intro entry inside needed mentions
  rcases List.mem_map.mp declared with ⟨⟨_, identifier⟩, there, rfl⟩
  rcases List.getElem?_of_mem there with ⟨position, found⟩
  rcases collected.named_earlier found
    (.expression (ordered.find?_of_mem finished) inside mentions) with
    ⟨earlier, name, _, foundEarlier, spelled⟩
  exact ⟨name, spelled, valid name (List.mem_map_of_mem (List.mem_of_getElem? foundEarlier))⟩

namespace FunctionScope.OperandsHold

variable {scope : FunctionScope} {bound : List (Nat × String)} {entry : ExpressionEntry}
  (holds : scope.OperandsHold bound entry.expression.valueOperands
    entry.expression.accessOperands)

include holds

/-- What an operation on two operands is spelled as reads back as the operation. -/
theorem readsOnly_binary {operator : BinaryOperator} {left right : Node}
    (written : entry.expression = .binary operator left right) :
    ∃ leftTree rightTree, ReadsOnly (scope.text bound left) leftTree ∧
      ReadsOnly (scope.text bound right) rightTree ∧
      ReadsOnly (scope.expressionText (scope.text bound) entry)
        (.binary operator leftTree rightTree) := by
  rcases entry with ⟨expression, type, reference, visible⟩
  subst written
  have leftHolds := holds.values left List.mem_cons_self
  have rightHolds := holds.values right (List.mem_cons_of_mem _ List.mem_cons_self)
  exact leftHolds.readsOnly_binary rightHolds operator

theorem readsOnly_unary {operator : UnaryOperator} {operand : Node}
    (written : entry.expression = .unary operator operand) :
    ∃ tree, ReadsOnly (scope.text bound operand) tree ∧
      ReadsOnly (scope.expressionText (scope.text bound) entry)
        (.unary operator (.group tree)) := by
  rcases entry with ⟨expression, type, reference, visible⟩
  subst written
  exact (holds.values operand List.mem_cons_self).readsOnly_unary operator

end FunctionScope.OperandsHold

theorem FunctionScope.definitionText_of_entry {scope : FunctionScope} {node : Node}
    {entry : ExpressionEntry} (found : scope.recorded.entry? node = some entry)
    (bound : List (Nat × String)) :
    scope.definitionText bound node = scope.expressionText (scope.text bound) entry := by
  rw [definitionText, found]

/-- Operands need no parentheses. Wherever a statement of a module is written, a value is spelled
as an identifier, as a literal without a minus in front, or as literals in parentheses; what a
member, an element, a component or a length is taken of, what is loaded and what is stored into is
spelled as a chain of accesses to an identifier. So the text of an operation on two operands has
one reading, the operation on the readings of the operands, and so has that on one. -/
theorem Program.resolve_operandsHold {program : Program} {roots : List ShaderFunction}
    {table : BindingTable} {config : ResolveConfig} {journal after : Journal}
    {resolved : ResolvedModule}
    (known : ∀ root ∈ roots, program.find? root.id = some root)
    (resolves : program.resolve roots table config journal = .ok resolved after) :
    ∃ context traced,
      (program.traceAll roots).alone journal = .ok ((), context) traced ∧
      let names := ModuleNames.ofDeclarations resolved.declarations
      let registry := (context.named table config.naming).1
      resolved.code = context.moduleText table names registry resolved.declarations ∧
      ∀ recorded ∈ context.finished, ∀ block, recorded.body = .statements block →
        ∀ identifier,
          let scope := recorded.bodyScope names registry.fork
          let writer := recorded.bodyWriter identifier names registry.fork
          recorded.moduleText identifier names registry.fork =
            recorded.statementsText identifier names registry.fork block ∧
          (recorded.statementsText identifier names registry.fork block =
            let written := writeBlock scope writer block
            let ended :=
              match recorded.signature.result with
              | none => written
              | some type =>
                  if endsInReturn block then written
                  else written.line s!"return {names.typeText type}();"
            ended.close.output.text) ∧
          ∀ current statement, scope.Writes writer block current statement →
            scope.OperandsHold current.bound statement.valueOperands statement.accessOperands ∧
            ∀ node entry, scope.SpellsOut current.bound statement node →
              recorded.entry? node = some entry →
              (lookup? current.bound node.index = none →
                scope.text current.bound node = scope.definitionText current.bound node) ∧
              scope.OperandsHold current.bound entry.expression.valueOperands
                entry.expression.accessOperands ∧
              (∀ operator left right, entry.expression = .binary operator left right →
                ∃ leftTree rightTree, ReadsOnly (scope.text current.bound left) leftTree ∧
                  ReadsOnly (scope.text current.bound right) rightTree ∧
                  ReadsOnly (scope.definitionText current.bound node)
                    (.binary operator leftTree rightTree)) ∧
              ∀ operator operand, entry.expression = .unary operator operand →
                ∃ tree, ReadsOnly (scope.text current.bound operand) tree ∧
                  ReadsOnly (scope.definitionText current.bound node)
                    (.unary operator (.group tree)) := by
  rcases Program.resolve_collected resolves with
    ⟨context, traced, ran, reached, same, ordered, collected, functions⟩
  refine ⟨context, traced, ran, same ▸ rfl, ?_⟩
  intro recorded member block body identifier scope writer
  refine ⟨by rw [RecordedFunction.moduleText, body], rfl, ?_⟩
  intro current statement writes
  have listed : recorded ∈ (program.attemptAll roots { journal := journal }).context.finished :=
    reached.symm ▸ member
  have sound : recorded.Sound context := reached ▸ Program.sound_of_attemptAll known listed
  have valid : ∀ name ∈ resolved.declarations.map Prod.snd, Identifier.isValid name = true :=
    same ▸ context.isValid_named table config.naming
  have unnamed : writer.Names [] := fun _ impossible => absurd impossible List.not_mem_nil
  rcases writes.stands unnamed with ⟨available, stands, names⟩
  have place : scope.Place context current available :=
    { sound, names
      spellable := (Program.makes_of_attemptAll listed).spellable
      identified := RecordedFunction.identified
        (collected.identified ordered valid member (functions recorded member)) writes }
  rcases stands.checked (sound.checked block body) with ⟨inner, checked⟩
  refine ⟨place.holds_statement checked, ?_⟩
  intro node entry spelled found
  have holds := place.holds_expression found (place.ready_of_spellsOut spelled checked found)
  have text : scope.definitionText current.bound node =
      scope.expressionText (scope.text current.bound) entry :=
    FunctionScope.definitionText_of_entry found current.bound
  rw [text]
  exact ⟨fun unnamed => FunctionScope.text_of_unnamed place.ordered unnamed found, holds,
    fun _ _ _ => holds.readsOnly_binary, fun _ _ => holds.readsOnly_unary⟩

def exampleDifference : ShaderFunction where
  id := ⟨0⟩
  signature := ⟨"difference", [⟨"number", .f32⟩], some .f32, none⟩
  implementation := .script
    (.ofList [.binary "result" .sub (.register "$0") (.literal (.f32 0xbf800000))])
    (some (.register "result"))

/-- An operation on two operands that is bound where a function begins: the operator, and the
texts of the operands and of the operation. -/
def FunctionScope.firstOperation? (scope : FunctionScope) :
    Option (BinaryOperator × String × String × String) :=
  match scope.recorded.body with
  | .statements (.emit node :: _) =>
      match scope.recorded.entry? node with
      | some ⟨.binary operator left right, _, _, _⟩ =>
          some (operator, scope.text [] left, scope.text [] right, scope.definitionText [] node)
      | _ => none
  | _ => none

theorem FunctionScope.exists_of_firstOperation? {scope : FunctionScope} {operator : BinaryOperator}
    {first second whole : String}
    (begins : scope.firstOperation? = some (operator, first, second, whole)) :
    ∃ node rest entry left right, scope.recorded.body = .statements (.emit node :: rest) ∧
      scope.recorded.entry? node = some entry ∧ entry.expression = .binary operator left right ∧
      scope.text [] left = first ∧ scope.text [] right = second ∧
      scope.definitionText [] node = whole := by
  unfold firstOperation? at begins
  split at begins
  next node rest body =>
    split at begins
    next found =>
      cases begins
      exact ⟨node, rest, _, _, _, body, found, rfl, rfl, rfl, rfl⟩
    next => cases begins
  next => cases begins

theorem resolve_operandsHold_exampleDifference :
    let program : Program := ⟨[exampleDifference]⟩
    ∃ resolved after, program.resolve [exampleDifference] {} {} {} = .ok resolved after ∧
      ∃ leftTree rightTree, ReadsOnly "number" leftTree ∧ ReadsOnly "(-1.0f)" rightTree ∧
        ReadsOnly "number - (-1.0f)" (.binary .sub leftTree rightTree) := by
  intro program
  have known : ∀ root ∈ [exampleDifference], program.find? root.id = some root := by
    intro root member
    rw [List.mem_singleton.mp member]
    rfl
  have succeeds : (match program.resolve [exampleDifference] {} {} {} with
    | .ok resolved _ =>
        match (program.traceAll [exampleDifference]).alone {} with
        | .ok (_, context) _ =>
            let names := ModuleNames.ofDeclarations resolved.declarations
            let registry := (context.named {} .strict).1.fork
            context.finished.map (fun recorded =>
              (recorded.bodyScope names registry).firstOperation?) ==
                [some (.sub, "number", "(-1.0f)", "number - (-1.0f)")]
        | .error _ _ => false
    | .error _ _ => false) = true := by decide +kernel
  cases resolves : program.resolve [exampleDifference] {} {} {} with
  | error error after =>
      rw [resolves] at succeeds
      cases succeeds
  | ok resolved after =>
      rcases Program.resolve_operandsHold known resolves with ⟨context, traced, ran, _, holds⟩
      rw [resolves, ran] at succeeds
      have begun := eq_of_beq succeeds
      rcases List.map_eq_singleton_iff.mp begun with ⟨recorded, finished, begins⟩
      rcases FunctionScope.exists_of_firstOperation? begins with
        ⟨node, rest, entry, left, right, body, found, expression, leftText, rightText, text⟩
      have member : recorded ∈ context.finished := finished ▸ List.mem_singleton_self recorded
      rcases (holds recorded member _ body "difference").2.2 _ _ .here with ⟨_, spelled⟩
      rcases (spelled node entry .emit found).2.2.1 .sub left right expression with
        ⟨leftTree, rightTree, leftReads, rightReads, reads⟩
      rw [RecordedFunction.bodyWriter_bound] at leftReads rightReads reads
      exact ⟨resolved, after, rfl, leftTree, rightTree, leftText ▸ leftReads,
        rightText ▸ rightReads, text ▸ reads⟩

end ShaderKit
