import Mathlib.Data.List.Forall2
import ShaderKit.Proofs.Value.HasType
import ShaderKit.Recording.Recorder

/-!
# Typing rules of recorded functions

What makes a recorded expression or statement well typed, and where the nodes that it
mentions are available. Recordings only grow, and the rules are stable under growth.
-/

namespace ShaderKit

structure Inventory where
  context : TraceContext
  function : ShaderFunction
  expressions : Array ExpressionEntry
  locals : Array LocalVariable

def Recorder.inventory (recorder : Recorder) (function : ShaderFunction) : Inventory :=
  ⟨recorder.session.context, function, recorder.expressions, recorder.locals⟩

def RecordedFunction.inventory (recorded : RecordedFunction) (context : TraceContext) : Inventory :=
  ⟨context, recorded.function, recorded.expressions, recorded.locals⟩

/-! ## Growth -/

/-- A later context answers everything that an earlier one answers. -/
structure TraceContext.Grows (before after : TraceContext) : Prop where
  finished : ∀ id recorded, before.find? id = some recorded → after.find? id = some recorded
  constants : ∀ number constant, before.constant? number = some constant →
    after.constant? number = some constant

theorem TraceContext.Grows.refl (context : TraceContext) : context.Grows context :=
  ⟨fun _ _ found => found, fun _ _ found => found⟩

theorem TraceContext.Grows.trans {before middle after : TraceContext}
    (first : before.Grows middle) (second : middle.Grows after) : before.Grows after :=
  ⟨fun id recorded found => second.finished id recorded (first.finished id recorded found),
    fun number constant found =>
      second.constants number constant (first.constants number constant found)⟩

structure Inventory.Extends (before after : Inventory) : Prop where
  context : before.context.Grows after.context
  function : before.function = after.function
  expressions (index : Nat) (entry : ExpressionEntry) :
    before.expressions[index]? = some entry → after.expressions[index]? = some entry
  locals (index : Nat) (declared : LocalVariable) :
    before.locals[index]? = some declared → after.locals[index]? = some declared

theorem Inventory.Extends.refl (inventory : Inventory) : inventory.Extends inventory :=
  ⟨.refl _, rfl, fun _ _ found => found, fun _ _ found => found⟩

theorem Inventory.Extends.trans {before middle after : Inventory} (first : before.Extends middle)
    (second : middle.Extends after) : before.Extends after :=
  ⟨first.context.trans second.context, first.function.trans second.function,
    fun index entry found => second.expressions index entry (first.expressions index entry found),
    fun index declared found => second.locals index declared (first.locals index declared found)⟩

/-! ## Expressions -/

def Expression.operands : Expression → List Node
  | .load source | .unary _ source | .member source _ | .swizzle source _ | .convert source =>
      [source]
  | .binary _ left right => [left, right]
  | .index base position => [base, position]
  | .compose arguments | .call _ arguments | .standard _ arguments | .helper _ arguments =>
      arguments
  | _ => []

def Inventory.At (inventory : Inventory) (node : Node) (type : TypeDescriptor)
    (reference : Option Reference) : Prop :=
  ∃ entry, inventory.expressions[node.index]? = some entry ∧ entry.type = type ∧
    entry.reference = reference

abbrev Inventory.ValueAt (inventory : Inventory) (node : Node) (type : TypeDescriptor) : Prop :=
  inventory.At node type none

/-- The type and the reference that an expression has. -/
inductive Inventory.Types (inventory : Inventory) :
    Expression → TypeDescriptor → Option Reference → Prop where
  | parameter {index : Nat} {parameter : Parameter}
      (declared : inventory.function.signature.parameters[index]? = some parameter) :
      Types inventory (.parameter index) parameter.type none
  | literal (value : Scalar) : Types inventory (.literal value) (.scalar value.kind) none
  | constant {number : Nat} {constant : ModuleConstant}
      (known : inventory.context.constant? number = some constant) :
      Types inventory (.constant number) constant.type none
  | binding (slot : Slot) (type : TypeDescriptor) (access : ReferenceAccess) :
      Types inventory (.binding slot) type (some ⟨access, .binding⟩)
  | localVariable {index : Nat} {declared : LocalVariable}
      (known : inventory.locals[index]? = some declared) (access : ReferenceAccess) :
      Types inventory (.localVariable index) declared.type (some ⟨access, .localVariable⟩)
  | load {source : Node} {type : TypeDescriptor} {reference : Reference}
      (sourceAt : inventory.At source type (some reference)) :
      Types inventory (.load source) type none
  | compose {arguments : List Node} {types : List TypeDescriptor} {type : TypeDescriptor}
      (argumentsAt : List.Forall₂ inventory.ValueAt arguments types)
      (constructs : Recording.constructs type types = true) :
      Types inventory (.compose arguments) type none
  | zero (type : TypeDescriptor) : Types inventory .zero type none
  | unary {operator : UnaryOperator} {operand : Node} {type result : TypeDescriptor}
      (operandAt : inventory.ValueAt operand type)
      (accepted : operator.resultType type = some result) :
      Types inventory (.unary operator operand) result none
  | binary {operator : BinaryOperator} {left right : Node}
      {leftType rightType result : TypeDescriptor}
      (leftAt : inventory.ValueAt left leftType) (rightAt : inventory.ValueAt right rightType)
      (accepted : operator.resultType leftType rightType = some result) :
      Types inventory (.binary operator left right) result none
  | member {base : Node} {type : TypeDescriptor} {reference : Option Reference} {name : String}
      {position : Nat} {member : Member} (baseAt : inventory.At base type reference)
      (declared : type.members.find? name = some (position, member)) :
      Types inventory (.member base position) member.type reference
  | index {base position : Node} {type kind : TypeDescriptor} {reference : Option Reference}
      {indexing : Recording.Indexing} (baseAt : inventory.At base type reference)
      (positionAt : inventory.ValueAt position kind) (integer : Recording.isIndexType kind = true)
      (indexed : Recording.indexing? type = some indexing) :
      Types inventory (.index base position) indexing.element reference
  | component {source : Node} {kind : ScalarKind} {width : VectorWidth}
      {reference : Option Reference} {position : Nat}
      (sourceAt : inventory.At source (.vector kind width) reference)
      (below : position < width.count) :
      Types inventory (.swizzle source [position]) (.scalar kind) reference
  | swizzle {source : Node} {kind : ScalarKind} {width result : VectorWidth}
      {components : List Nat} (sourceAt : inventory.ValueAt source (.vector kind width))
      (below : ∀ position ∈ components, position < width.count)
      (counted : components.length = result.count) :
      Types inventory (.swizzle source components) (.vector kind result) none
  | call {callee : FunctionId} {arguments : List Node} {recorded : RecordedFunction}
      {type : TypeDescriptor} (finished : inventory.context.find? callee = some recorded)
      (argumentsAt : List.Forall₂ inventory.ValueAt arguments
        (recorded.signature.parameters.map Parameter.type))
      (result : recorded.signature.result = some type) :
      Types inventory (.call callee arguments) type none
  | arrayLength (arguments : List Node) (type : TypeDescriptor) :
      Types inventory (.standard .arrayLength arguments) type none
  | standard {function : StandardFunction} {arguments : List Node}
      {types : List TypeDescriptor} {type : TypeDescriptor}
      (argumentsAt : List.Forall₂ inventory.ValueAt arguments types)
      (known : function ≠ .arrayLength) (accepted : function.resultType types = some type) :
      Types inventory (.standard function arguments) type none
  | helper {type : TypeDescriptor} {arguments : List Node}
      (argumentsAt : List.Forall₂ inventory.ValueAt arguments
        (Helper.isCloseTo type).parameterTypes)
      (comparable : Recording.comparesClosely type = true) :
      Types inventory (.helper (.isCloseTo type) arguments) .bool none
  | convert {source : Node} {sourceType type : TypeDescriptor}
      (sourceAt : inventory.ValueAt source sourceType)
      (convertible : Recording.convertible sourceType type = true) :
      Types inventory (.convert source) type none

/-- An entry that is well typed over earlier nodes. -/
structure Inventory.EntrySound (inventory : Inventory) (index : Nat) (entry : ExpressionEntry) :
    Prop where
  types : inventory.Types entry.expression entry.type entry.reference
  earlier : ∀ operand ∈ entry.expression.operands, operand.index < index

/-! ## Availability -/

inductive Binder where
  | node (index : Nat)
  | variable (number : Nat)
deriving DecidableEq

/-- A node can be evaluated where the binders are available: it is bound there, or it is
spelled out by nodes and variables that are available. -/
inductive Ready (expressions : Array ExpressionEntry) (bound : List Binder) : Nat → Prop where
  | bound {index : Nat} (available : .node index ∈ bound) : Ready expressions bound index
  | inlined {index : Nat} {entry : ExpressionEntry}
      (found : expressions[index]? = some entry) (inlined : entry.isInlined = true)
      (declared : ∀ number, entry.expression = .localVariable number →
        .variable number ∈ bound)
      (operands : ∀ operand ∈ entry.expression.operands,
        Ready expressions bound operand.index) : Ready expressions bound index

structure Inventory.Usable (inventory : Inventory) (bound : List Binder) (node : Node)
    (type : TypeDescriptor) (reference : Option Reference) : Prop where
  known : inventory.At node type reference
  ready : Ready inventory.expressions bound node.index

abbrev Inventory.Operand (inventory : Inventory) (bound : List Binder) (node : Node)
    (type : TypeDescriptor) : Prop :=
  inventory.Usable bound node type none

def Statement.binds : Statement → List Binder
  | .emit node => [.node node.index]
  | .declare index _ => [.variable index]
  | _ => []

def blockBinds (block : Block) : List Binder :=
  block.flatMap Statement.binds

/-! ## Statements -/

mutual
/-- A statement that is well typed and uses only what is available. -/
def Statement.Checked (inventory : Inventory) (inLoop : Prop) (bound : List Binder) :
    Statement → Prop
  | .emit node => ∃ entry, inventory.expressions[node.index]? = some entry ∧
      entry.isInlined = false ∧
        ∀ operand ∈ entry.expression.operands, Ready inventory.expressions bound operand.index
  | .declare index initial => ∃ declared, inventory.locals[index]? = some declared ∧
      ∀ node ∈ initial, inventory.Operand bound node declared.type
  | .store target source => ∃ type reference,
      inventory.Usable bound target type (some reference) ∧ inventory.Operand bound source type
  | .callVoid callee arguments => ∃ recorded, inventory.context.find? callee = some recorded ∧
      List.Forall₂ (inventory.Operand bound) arguments
        (recorded.signature.parameters.map Parameter.type)
  | .branch condition accept reject => inventory.Operand bound condition .bool ∧
      BlockChecked inventory inLoop bound accept ∧ BlockChecked inventory inLoop bound reject
  | .loop body => BlockChecked inventory True bound body
  | .range counter first last body => ∃ declared, inventory.locals[counter]? = some declared ∧
      Recording.isIndexType declared.type = true ∧
        inventory.Operand bound first declared.type ∧ inventory.Operand bound last declared.type ∧
          BlockChecked inventory True (bound ++ [.variable counter]) body
  | .leaveLoop | .nextRound => inLoop
  | .giveBack none => inventory.function.signature.result = none
  | .giveBack (some node) => ∃ type, inventory.function.signature.result = some type ∧
      inventory.Operand bound node type
  | .discard => True

def BlockChecked (inventory : Inventory) (inLoop : Prop) (bound : List Binder) :
    List Statement → Prop
  | [] => True
  | statement :: rest => statement.Checked inventory inLoop bound ∧
      BlockChecked inventory inLoop (bound ++ statement.binds) rest
end

/-! ## Stability -/

section

variable {before after : Inventory} {bound : List Binder}

theorem Inventory.At.mono {node : Node} {type : TypeDescriptor} {reference : Option Reference}
    (known : before.At node type reference) (growth : before.Extends after) :
    after.At node type reference := by
  rcases known with ⟨entry, found, typed, referenced⟩
  exact ⟨entry, growth.expressions _ _ found, typed, referenced⟩

theorem Inventory.At.unique {inventory : Inventory} {node : Node} {type other : TypeDescriptor}
    {reference otherReference : Option Reference} (known : inventory.At node type reference)
    (again : inventory.At node other otherReference) :
    type = other ∧ reference = otherReference := by
  rcases known with ⟨entry, found, rfl, rfl⟩
  rcases again with ⟨same, foundAgain, rfl, rfl⟩
  rw [found] at foundAgain
  cases foundAgain
  exact ⟨rfl, rfl⟩

theorem Inventory.Types.mono {expression : Expression} {type : TypeDescriptor}
    {reference : Option Reference} (types : before.Types expression type reference)
    (growth : before.Extends after) : after.Types expression type reference := by
  have all {arguments : List Node} {types : List TypeDescriptor}
      (argumentsAt : List.Forall₂ before.ValueAt arguments types) :
      List.Forall₂ after.ValueAt arguments types :=
    argumentsAt.imp fun _ _ known => known.mono growth
  cases types with
  | parameter declared => exact .parameter (growth.function ▸ declared)
  | literal value => exact .literal value
  | constant known => exact .constant (growth.context.constants _ _ known)
  | binding slot type access => exact .binding slot type access
  | localVariable known access => exact .localVariable (growth.locals _ _ known) access
  | load sourceAt => exact .load (sourceAt.mono growth)
  | compose argumentsAt constructs => exact .compose (all argumentsAt) constructs
  | zero type => exact .zero type
  | unary operandAt accepted => exact .unary (operandAt.mono growth) accepted
  | binary leftAt rightAt accepted =>
      exact .binary (leftAt.mono growth) (rightAt.mono growth) accepted
  | member baseAt declared => exact .member (baseAt.mono growth) declared
  | index baseAt positionAt integer indexed =>
      exact .index (baseAt.mono growth) (positionAt.mono growth) integer indexed
  | component sourceAt below => exact .component (sourceAt.mono growth) below
  | swizzle sourceAt below counted => exact .swizzle (sourceAt.mono growth) below counted
  | call finished argumentsAt result =>
      exact .call (growth.context.finished _ _ finished) (all argumentsAt) result
  | arrayLength arguments type => exact .arrayLength arguments type
  | standard argumentsAt known accepted => exact .standard (all argumentsAt) known accepted
  | helper argumentsAt comparable => exact .helper (all argumentsAt) comparable
  | convert sourceAt convertible => exact .convert (sourceAt.mono growth) convertible

theorem Inventory.EntrySound.mono {index : Nat} {entry : ExpressionEntry}
    (sound : before.EntrySound index entry) (growth : before.Extends after) :
    after.EntrySound index entry :=
  ⟨sound.types.mono growth, sound.earlier⟩

theorem Ready.mono {expressions later : Array ExpressionEntry} {bound available : List Binder}
    {index : Nat} (ready : Ready expressions bound index)
    (kept : ∀ (index : Nat) entry, expressions[index]? = some entry → later[index]? = some entry)
    (more : ∀ binder ∈ bound, binder ∈ available) : Ready later available index := by
  induction ready with
  | bound inside => exact .bound (more _ inside)
  | inlined found inlined declared _ induction =>
      exact .inlined (kept _ _ found) inlined
        (fun number same => more _ (declared number same)) induction

namespace Expression

variable {expression : Expression}

theorem operands_of_isGlobal (isGlobal : expression.isGlobal = true) :
    expression.operands = [] := by
  cases expression <;> first | rfl | cases isGlobal

theorem isInlined_of_isGlobal (isGlobal : expression.isGlobal = true)
    (reference : Option Reference) : expression.isInlined reference = true := by
  cases expression <;> first | rfl | cases isGlobal

end Expression

theorem Ready.of_isGlobal {expressions : Array ExpressionEntry} {bound : List Binder}
    {index : Nat} {entry : ExpressionEntry} (found : expressions[index]? = some entry)
    (isGlobal : entry.expression.isGlobal = true) : Ready expressions bound index := by
  apply Ready.inlined found (Expression.isInlined_of_isGlobal isGlobal entry.reference)
  · intro number same
    rw [same] at isGlobal
    cases isGlobal
  · intro operand member
    rw [Expression.operands_of_isGlobal isGlobal] at member
    cases member

theorem Inventory.Usable.mono {available : List Binder} {node : Node} {type : TypeDescriptor}
    {reference : Option Reference} (usable : before.Usable bound node type reference)
    (growth : before.Extends after) (more : ∀ binder ∈ bound, binder ∈ available) :
    after.Usable available node type reference :=
  ⟨usable.known.mono growth, usable.ready.mono growth.expressions more⟩

mutual
theorem Statement.Checked.mono : ∀ {statement : Statement} {before after : Inventory}
    {inLoop stillInLoop : Prop} {bound : List Binder},
    statement.Checked before inLoop bound → before.Extends after → (inLoop → stillInLoop) →
      statement.Checked after stillInLoop bound
  | .emit node, _, _, _, _, _, checked, growth, _ => by
      simp only [Statement.Checked] at checked ⊢
      rcases checked with ⟨entry, found, bound, operands⟩
      exact ⟨entry, growth.expressions _ _ found, bound, fun operand member =>
        (operands operand member).mono growth.expressions fun _ inside => inside⟩
  | .declare index initial, _, _, _, _, _, checked, growth, _ => by
      simp only [Statement.Checked] at checked ⊢
      rcases checked with ⟨declared, known, initialOk⟩
      exact ⟨declared, growth.locals _ _ known, fun node member =>
        (initialOk node member).mono growth fun _ inside => inside⟩
  | .store target source, _, _, _, _, _, checked, growth, _ => by
      simp only [Statement.Checked] at checked ⊢
      rcases checked with ⟨type, reference, usable, operand⟩
      exact ⟨type, reference, usable.mono growth fun _ inside => inside,
        operand.mono growth fun _ inside => inside⟩
  | .callVoid callee arguments, _, _, _, _, _, checked, growth, _ => by
      simp only [Statement.Checked] at checked ⊢
      rcases checked with ⟨recorded, finished, operands⟩
      exact ⟨recorded, growth.context.finished _ _ finished, operands.imp fun _ _ operand =>
        operand.mono growth fun _ inside => inside⟩
  | .branch condition accept reject, _, _, _, _, _, checked, growth, loops => by
      simp only [Statement.Checked] at checked ⊢
      rcases checked with ⟨operand, acceptOk, rejectOk⟩
      exact ⟨operand.mono growth fun _ inside => inside, acceptOk.mono growth loops,
        rejectOk.mono growth loops⟩
  | .loop body, _, _, _, _, _, checked, growth, _ => by
      simp only [Statement.Checked] at checked ⊢
      exact checked.mono growth id
  | .range counter first last body, _, _, _, _, _, checked, growth, _ => by
      simp only [Statement.Checked] at checked ⊢
      rcases checked with ⟨declared, known, integer, firstOk, lastOk, bodyOk⟩
      exact ⟨declared, growth.locals _ _ known, integer,
        firstOk.mono growth fun _ inside => inside,
        lastOk.mono growth fun _ inside => inside, bodyOk.mono growth id⟩
  | .leaveLoop, _, _, _, _, _, checked, _, loops
  | .nextRound, _, _, _, _, _, checked, _, loops => by
      simp only [Statement.Checked] at checked ⊢
      exact loops checked
  | .giveBack none, _, _, _, _, _, checked, growth, _ => by
      simp only [Statement.Checked] at checked ⊢
      exact growth.function ▸ checked
  | .giveBack (some node), _, _, _, _, _, checked, growth, _ => by
      simp only [Statement.Checked] at checked ⊢
      rcases checked with ⟨type, result, operand⟩
      exact ⟨type, growth.function ▸ result, operand.mono growth fun _ inside => inside⟩
  | .discard, _, _, _, _, _, _, _, _ => by
      simp only [Statement.Checked]

theorem BlockChecked.mono : ∀ {block : List Statement} {before after : Inventory}
    {inLoop stillInLoop : Prop} {bound : List Binder},
    BlockChecked before inLoop bound block → before.Extends after → (inLoop → stillInLoop) →
      BlockChecked after stillInLoop bound block
  | [], _, _, _, _, _, _, _, _ => by
      simp only [BlockChecked]
  | statement :: rest, _, _, _, _, _, checked, growth, loops => by
      simp only [BlockChecked] at checked ⊢
      exact ⟨checked.1.mono growth loops, checked.2.mono growth loops⟩
end

end

theorem BlockChecked.concat {inventory : Inventory} {inLoop : Prop} {statement : Statement} :
    ∀ {block : List Statement} {bound : List Binder}, BlockChecked inventory inLoop bound block →
      statement.Checked inventory inLoop (bound ++ blockBinds block) →
        BlockChecked inventory inLoop bound (block ++ [statement])
  | [], bound, _, last => by
      simp only [List.nil_append, BlockChecked, and_true]
      simp only [blockBinds, List.flatMap_nil, List.append_nil] at last
      exact last
  | first :: rest, bound, checked, last => by
      simp only [BlockChecked] at checked
      simp only [List.cons_append, BlockChecked]
      refine ⟨checked.1, checked.2.concat ?_⟩
      simp only [blockBinds, List.flatMap_cons] at last
      rw [List.append_assoc]
      exact last

theorem blockBinds_concat (block : Block) (statement : Statement) :
    blockBinds (block ++ [statement]) = blockBinds block ++ statement.binds := by
  simp [blockBinds]

/-! ## Finished recordings -/

/-- A recording that follows the rules in a context. -/
structure RecordedFunction.Sound (recorded : RecordedFunction) (context : TraceContext) :
    Prop where
  entries : ∀ (index : Nat) entry, recorded.expressions[index]? = some entry →
    (recorded.inventory context).EntrySound index entry
  checked : ∀ block, recorded.body = .statements block →
    BlockChecked (recorded.inventory context) False [] block
  returns : ∀ block, recorded.body = .statements block →
    recorded.signature.result.isSome = true → blockReturns block = true

theorem RecordedFunction.inventory_extends {recorded : RecordedFunction}
    {before after : TraceContext} (grows : before.Grows after) :
    (recorded.inventory before).Extends (recorded.inventory after) :=
  ⟨grows, rfl, fun _ _ found => found, fun _ _ found => found⟩

theorem RecordedFunction.Sound.mono {recorded : RecordedFunction}
    {before after : TraceContext} (sound : recorded.Sound before) (grows : before.Grows after) :
    recorded.Sound after where
  entries index entry found := (sound.entries index entry found).mono (inventory_extends grows)
  checked block same := (sound.checked block same).mono (inventory_extends grows) False.elim
  returns := sound.returns

/-- A context whose recordings are those of functions of the program and follow the rules,
and whose constants have their types. -/
structure TraceContext.Sound (context : TraceContext) (program : Program) : Prop where
  finished : ∀ id recorded, context.find? id = some recorded →
    program.find? id = some recorded.function ∧ recorded.Sound context
  constants : ∀ constant ∈ context.constants, HasType constant.type constant.value
  keys : context.constantKeys.values.map Prod.fst = context.constants.map ModuleConstant.type

theorem TraceContext.sound_empty (program : Program) :
    TraceContext.Sound {} program where
  finished _ _ found := nomatch found
  constants _ impossible := nomatch impossible
  keys := rfl

end ShaderKit
