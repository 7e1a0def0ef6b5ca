import ShaderKit.Module.FunctionText
import ShaderKit.Proofs.Host.Meaning
import ShaderKit.Proofs.Recording.Dominance

/-!
# Writing function texts

A function text grows by lines and by names for values. A node is spelled by the name that it
was bound to, and otherwise by its expression; where the definitions of a function stand before
their uses, the second happens to inlined expressions only.
-/

namespace ShaderKit

open ModuleNames (lookup?)

/-! ## How a writer changes -/

namespace FunctionWriter

/-- Writing statements appends lines and binds nodes. -/
inductive Becomes (scope : FunctionScope) : FunctionWriter → FunctionWriter → Prop where
  | refl (writer : FunctionWriter) : Becomes scope writer writer
  | trans {before middle after : FunctionWriter} (first : Becomes scope before middle)
      (second : Becomes scope middle after) : Becomes scope before after
  | output (writer : FunctionWriter) (output : IndentedText) :
      Becomes scope writer { writer with output := output }
  | bind (writer : FunctionWriter) (node : Node) : Becomes scope writer (writer.bind scope node)

end FunctionWriter

/-! ## Statements with blocks -/

namespace FunctionScope

variable (scope : FunctionScope) (writer : FunctionWriter)

def branchHead (bound : List (Nat × String)) (condition : Node) : String :=
  s!"if {scope.text bound condition} " ++ "\x7b"

def rangeHead (bound : List (Nat × String)) (counter : Nat) (first last : Node) : String :=
  let name := scope.variableName counter
  let start := s!"var {name}: {scope.variableType counter} = " ++ s!"{scope.text bound first}"
  let test := s!"{name} < {scope.text bound last}"
  s!"for ({start}; {test}; {name}++) " ++ "\x7b"

def accepted (condition : Node) (accept : Block) : FunctionWriter :=
  (writeBlock scope (writer.enter (scope.branchHead writer.bound condition)) accept).leave

theorem write_branch (condition : Node) (accept reject : Block) :
    (Statement.branch condition accept reject).write scope writer =
      if reject.isEmpty then (scope.accepted writer condition accept).line "\x7d"
      else (writeBlock scope ((scope.accepted writer condition accept).enter "\x7d else \x7b")
        reject).close := by
  rw [Statement.write]
  rfl

theorem write_range (counter : Nat) (first last : Node) (body : Block) :
    (Statement.range counter first last body).write scope writer =
      (writeBlock scope (writer.enter (scope.rangeHead writer.bound counter first last))
        body).close := by
  rw [Statement.write]
  rfl

theorem write_loop (body : Block) :
    (Statement.loop body).write scope writer =
      (writeBlock scope (writer.enter "loop \x7b") body).close := by
  rw [Statement.write]

/-- While a block is written, the current writer writes a statement that stands in it or in a
block inside it. -/
inductive Writes (scope : FunctionScope) :
    FunctionWriter → Block → FunctionWriter → Statement → Prop where
  | here {writer : FunctionWriter} {statement : Statement} {rest : Block} :
      Writes scope writer (statement :: rest) writer statement
  | later {writer current : FunctionWriter} {first statement : Statement} {rest : Block}
      (writes : Writes scope (first.write scope writer) rest current statement) :
      Writes scope writer (first :: rest) current statement
  | accept {writer current : FunctionWriter} {condition : Node} {accept reject rest : Block}
      {statement : Statement}
      (writes : Writes scope (writer.enter (scope.branchHead writer.bound condition)) accept
        current statement) :
      Writes scope writer (.branch condition accept reject :: rest) current statement
  | reject {writer current : FunctionWriter} {condition : Node} {accept reject rest : Block}
      {statement : Statement}
      (writes : Writes scope ((scope.accepted writer condition accept).enter "\x7d else \x7b")
        reject current statement) :
      Writes scope writer (.branch condition accept reject :: rest) current statement
  | loop {writer current : FunctionWriter} {body rest : Block} {statement : Statement}
      (writes : Writes scope (writer.enter "loop \x7b") body current statement) :
      Writes scope writer (.loop body :: rest) current statement
  | range {writer current : FunctionWriter} {counter : Nat} {first last : Node}
      {body rest : Block} {statement : Statement}
      (writes : Writes scope (writer.enter (scope.rangeHead writer.bound counter first last))
        body current statement) :
      Writes scope writer (.range counter first last body :: rest) current statement

end FunctionScope

open FunctionScope

mutual
theorem Statement.write_becomes (scope : FunctionScope) : ∀ (statement : Statement)
    (writer : FunctionWriter), writer.Becomes scope (statement.write scope writer)
  | .emit node, writer => .bind writer node
  | .declare _ none, writer | .declare _ (some _), writer | .store _ _, writer
  | .callVoid _ _, writer | .leaveLoop, writer | .nextRound, writer | .giveBack none, writer
  | .giveBack (some _), writer | .discard, writer => .output writer _
  | .branch condition accept reject, writer => by
      have accepted : writer.Becomes scope (scope.accepted writer condition accept) :=
        .trans (.output writer _) (.trans (writeBlock_becomes scope accept _) (.output _ _))
      rw [write_branch]
      split
      next => exact .trans accepted (.output _ _)
      next =>
        exact .trans (.trans accepted (.output _ _))
          (.trans (writeBlock_becomes scope reject _) (.output _ _))
  | .loop body, writer =>
      .trans (.output writer _) (.trans (writeBlock_becomes scope body _) (.output _ _))
  | .range counter first last body, writer => by
      rw [write_range]
      exact .trans (.output writer _) (.trans (writeBlock_becomes scope body _) (.output _ _))

theorem writeBlock_becomes (scope : FunctionScope) : ∀ (block : List Statement)
    (writer : FunctionWriter), writer.Becomes scope (writeBlock scope writer block)
  | [], writer => .refl writer
  | statement :: rest, writer =>
      .trans (statement.write_becomes scope writer)
        (writeBlock_becomes scope rest (statement.write scope writer))
end

/-! ## Names of bound nodes -/

/-- A writer has names for the nodes among some binders. -/
def FunctionWriter.Names (writer : FunctionWriter) (bound : List Binder) : Prop :=
  ∀ index, .node index ∈ bound → (lookup? writer.bound index).isSome

theorem lookup?_cons {α : Type} [DecidableEq α] (thing other : α) (name : String)
    (names : List (α × String)) : lookup? ((thing, name) :: names) other =
      if thing = other then some name else lookup? names other := by
  unfold lookup?
  rw [List.find?_cons]
  by_cases same : thing = other
  · rw [if_pos same]
    simp only [same, decide_true, Option.map_some]
  · rw [if_neg same]
    simp only [same, decide_false]

theorem FunctionWriter.Becomes.named {scope : FunctionScope} {before after : FunctionWriter}
    (becomes : before.Becomes scope after) {index : Nat}
    (named : (lookup? before.bound index).isSome) : (lookup? after.bound index).isSome := by
  induction becomes with
  | refl | output => exact named
  | trans _ _ first second => exact second (first named)
  | bind writer node =>
      change (lookup? ((node.index, _) :: writer.bound) index).isSome = true
      rw [lookup?_cons]
      split
      next => rfl
      next => exact named

theorem FunctionWriter.Names.becomes {scope : FunctionScope} {before after : FunctionWriter}
    {bound : List Binder} (names : before.Names bound) (becomes : before.Becomes scope after) :
    after.Names bound :=
  fun index available => becomes.named (names index available)

theorem FunctionWriter.Names.variable {writer : FunctionWriter} {bound : List Binder}
    (names : writer.Names bound) (number : Nat) : writer.Names (bound ++ [.variable number]) := by
  intro index available
  rcases List.mem_append.mp available with before | last
  · exact names index before
  · cases List.mem_singleton.mp last

/-- A statement names what it binds. -/
theorem FunctionWriter.Names.write {scope : FunctionScope} {writer : FunctionWriter}
    {bound : List Binder} (names : writer.Names bound) (statement : Statement) :
    (statement.write scope writer).Names (bound ++ statement.binds) := by
  intro index available
  rcases List.mem_append.mp available with before | new
  · exact names.becomes (statement.write_becomes scope writer) index before
  · cases statement with
    | emit node =>
        rw [Statement.binds, List.mem_singleton] at new
        cases new
        change (lookup? ((node.index, _) :: writer.bound) node.index).isSome = true
        rw [lookup?_cons, if_pos rfl]
        rfl
    | declare => cases List.mem_singleton.mp new
    | _ => cases new

theorem FunctionScope.Writes.stands {scope : FunctionScope} {writer current : FunctionWriter}
    {block : Block} {statement : Statement} (writes : scope.Writes writer block current statement) :
    ∀ {available : List Binder}, writer.Names available →
      ∃ bound, Stands available block bound statement ∧ current.Names bound := by
  induction writes with
  | here => exact fun names => ⟨_, .here, names⟩
  | @later _ _ first _ _ _ induction =>
      intro available names
      rcases induction (names.write first) with ⟨bound, stands, named⟩
      exact ⟨bound, .later stands, named⟩
  | accept _ induction =>
      intro available names
      rcases induction names with ⟨bound, stands, named⟩
      exact ⟨bound, .accept stands, named⟩
  | @reject writer _ condition accept _ _ _ _ induction =>
      intro available names
      have named : (scope.accepted writer condition accept).Names available :=
        names.becomes (.trans (.output writer _)
          (.trans (writeBlock_becomes scope accept _) (.output _ _)))
      rcases induction named with ⟨bound, stands, named⟩
      exact ⟨bound, .reject stands, named⟩
  | loop _ induction =>
      intro available names
      rcases induction names with ⟨bound, stands, named⟩
      exact ⟨bound, .loop stands, named⟩
  | @range _ _ counter _ _ _ _ _ _ induction =>
      intro available names
      rcases induction (names.variable counter) with ⟨bound, stands, named⟩
      exact ⟨bound, .range stands, named⟩

/-! ## Spelling nodes -/

namespace FunctionScope

variable {scope : FunctionScope} {bound : List (Nat × String)}

/-- The spelling of a node in which only inlined expressions are spelled out: a node that is
bound is spelled by its name. -/
inductive Spells (scope : FunctionScope) (bound : List (Nat × String)) : Node → String → Prop where
  | named {node : Node} {name : String} (found : lookup? bound node.index = some name) :
      Spells scope bound node name
  | inlined {node : Node} {entry : ExpressionEntry} {text : Node → String}
      (unnamed : lookup? bound node.index = none)
      (found : scope.recorded.entry? node = some entry) (inlined : entry.isInlined = true)
      (operands : ∀ operand ∈ entry.expression.operands,
        Spells scope bound operand (text operand)) :
      Spells scope bound node (scope.expressionText text entry)

theorem expressionText_congr {first second : Node → String} {entry : ExpressionEntry}
    (same : ∀ operand ∈ entry.expression.operands, first operand = second operand) :
    scope.expressionText first entry = scope.expressionText second entry := by
  rcases entry with ⟨expression, type, reference, place⟩
  have all {arguments : List Node} (made : expression.operands = arguments) :
      arguments.map first = arguments.map second :=
    List.map_congr_left fun argument member => same argument (made ▸ member)
  have alone {source : Node} (made : expression.operands = [source]) :
      first source = second source :=
    same source (show source ∈ expression.operands from made ▸ List.mem_cons_self)
  have both {left right : Node} (made : expression.operands = [left, right]) :
      first left = second left ∧ first right = second right := by
    have pair := all made
    simp only [List.map_cons, List.map_nil, List.cons.injEq, and_true] at pair
    exact pair
  cases expression with
  | parameter | literal | constant | binding | localVariable | zero => rfl
  | load source | unary _ source | member source | swizzle source | convert source =>
      simp only [expressionText, alone rfl]
  | binary _ left right | index left right =>
      simp only [expressionText, (both rfl).1, (both rfl).2]
  | compose arguments | call _ arguments | helper _ arguments =>
      have texts := @all arguments rfl
      simp only [expressionText, texts]
  | standard function arguments =>
      have texts := @all arguments rfl
      cases function <;> simp only [expressionText, texts]

theorem textWithin_eq (ordered : Activation.Ordered scope.recorded.expressions) {depth : Nat}
    {node : Node} (enough : node.index < depth) :
    scope.textWithin bound depth node = scope.text bound node := by
  induction depth using Nat.strongRecOn generalizing node with
  | ind depth induction =>
      cases depth with
      | zero => exact absurd enough (Nat.not_lt_zero _)
      | succ depth =>
          unfold text textWithin
          split
          next => rfl
          next =>
            split
            next => rfl
            next entry found =>
              apply expressionText_congr
              intro operand member
              have below := ordered node.index entry found operand member
              have inside : operand.index < depth := by omega
              rw [induction depth (Nat.lt_succ_self _) inside,
                induction node.index enough below]

theorem text_of_named {node : Node} {name : String}
    (found : lookup? bound node.index = some name) : scope.text bound node = name := by
  rw [text, textWithin, found]

theorem text_of_unnamed (ordered : Activation.Ordered scope.recorded.expressions) {node : Node}
    {entry : ExpressionEntry} (unnamed : lookup? bound node.index = none)
    (found : scope.recorded.entry? node = some entry) :
    scope.text bound node = scope.expressionText (scope.text bound) entry := by
  rw [text, textWithin, unnamed, found]
  apply expressionText_congr
  intro operand member
  exact textWithin_eq ordered (ordered node.index entry found operand member)

/-- A node that is available is spelled by its name, or by its inlined expression over such
spellings, by induction on the way in which it is spelled out. -/
theorem spells_of_ready {writer : FunctionWriter} {available : List Binder}
    (ordered : Activation.Ordered scope.recorded.expressions) (names : writer.Names available)
    {index : Nat} (ready : Ready scope.recorded.expressions available index) :
    ∀ node : Node, node.index = index →
      scope.Spells writer.bound node (scope.text writer.bound node) := by
  induction ready with
  | bound inside =>
      rintro node rfl
      rcases Option.isSome_iff_exists.mp (names node.index inside) with ⟨name, found⟩
      rw [text_of_named found]
      exact .named found
  | @inlined index entry found inlined _ _ operands =>
      rintro node rfl
      cases state : lookup? writer.bound node.index with
      | some name =>
          rw [text_of_named state]
          exact .named state
      | none =>
          rw [text_of_unnamed ordered state found]
          exact .inlined state found inlined fun operand member =>
            operands operand member operand rfl

/-- Where a checked block is written, all that its statements use is spelled by names and by
inlined expressions. -/
theorem Writes.spells {writer current : FunctionWriter} {block : Block} {statement : Statement}
    {context : TraceContext} {inLoop : Prop} {available : List Binder}
    (writes : scope.Writes writer block current statement)
    (ordered : Activation.Ordered scope.recorded.expressions)
    (checked : BlockChecked (scope.recorded.inventory context) inLoop available block)
    (names : writer.Names available) : ∀ node ∈ scope.recorded.uses statement,
      scope.Spells current.bound node (scope.text current.bound node) := by
  intro node member
  rcases writes.stands names with ⟨bound, stands, named⟩
  rcases stands.checked checked with ⟨inner, statementChecked⟩
  exact spells_of_ready ordered named (statementChecked.ready node member) node rfl

end FunctionScope

/-! ## The beginning of a function -/

theorem FunctionWriter.nameAll_bound {α : Type}
    {take : FunctionWriter → α → FunctionWriter × String}
    (keeps : ∀ writer thing, (take writer thing).1.bound = writer.bound)
    (writer : FunctionWriter) (things : List α) :
    (writer.nameAll take things).1.bound = writer.bound := by
  induction things generalizing writer with
  | nil => rfl
  | cons thing rest induction =>
      rw [nameAll]
      exact (induction (take writer thing).1).trans (keeps writer thing)

namespace RecordedFunction

variable (recorded : RecordedFunction) (identifier : String) (names : ModuleNames)
  (registry : NameRegistry)

def parametersNamed : FunctionWriter × List String :=
  let start : FunctionWriter := { output := stageLine recorded.signature, registry := registry }
  start.nameAll (fun writer parameter => writer.labelName parameter.name)
    recorded.signature.parameters

def variablesNamed : FunctionWriter × List String :=
  (recorded.parametersNamed registry).1.nameAll FunctionWriter.variableName
    recorded.locals.toList

def bodyScope : FunctionScope :=
  ⟨recorded, names, (recorded.parametersNamed registry).2, (recorded.variablesNamed registry).2⟩

def bodyWriter : FunctionWriter :=
  (recorded.variablesNamed registry).1.enter
    (headText recorded.signature names identifier (recorded.parametersNamed registry).2 ++ "\x7b")

theorem statementsText_eq (block : Block) :
    recorded.statementsText identifier names registry block =
      let written := writeBlock (recorded.bodyScope names registry)
        (recorded.bodyWriter identifier names registry) block
      let ended :=
        match recorded.signature.result with
        | none => written
        | some type =>
            if endsInReturn block then written
            else written.line s!"return {names.typeText type}();"
      ended.close.output.text :=
  rfl

theorem bodyWriter_bound :
    (recorded.bodyWriter identifier names registry).bound = [] := by
  have keeps (writer : FunctionWriter) (declared : LocalVariable) :
      (writer.variableName declared).1.bound = writer.bound := by
    unfold FunctionWriter.variableName
    split <;> rfl
  exact (FunctionWriter.nameAll_bound keeps _ _).trans
    (FunctionWriter.nameAll_bound (fun _ _ => rfl) _ _)

end RecordedFunction

end ShaderKit
