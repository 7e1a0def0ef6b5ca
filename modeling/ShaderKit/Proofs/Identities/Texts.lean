import ShaderKit.Proofs.Identities.Mapping
import ShaderKit.Proofs.Module.Agreement

/-!
# Texts with other identities

A text shows names, never identities. Where the names of a module are those of another one for
other identities, functions and declarations have the same texts.
-/

namespace ShaderKit

open ModuleNames (lookup lookup?)

section

variable (ids : FunctionId → FunctionId)

def ModuleNames.mapIds (names : ModuleNames) : ModuleNames :=
  { names with functions := names.functions.map fun entry => (ids entry.1, entry.2) }

def Declaration.mapIds : Declaration → Declaration
  | .function id => .function (ids id)
  | declaration => declaration

def FunctionScope.mapIds (scope : FunctionScope) : FunctionScope :=
  { scope with recorded := scope.recorded.mapIds ids, names := scope.names.mapIds ids }

end

variable {ids : FunctionIdMap}

/-! ## Names and types -/

theorem ModuleNames.lookup?_map {α β : Type} [DecidableEq α] [DecidableEq β] {f : α → β}
    (injective : Function.Injective f) (names : List (α × String)) (thing : α) :
    lookup? (names.map fun entry => (f entry.1, entry.2)) (f thing) = lookup? names thing := by
  have same : (fun entry : α × String => decide (f entry.1 = f thing)) =
      fun entry => decide (entry.1 = thing) :=
    funext fun entry => decide_eq_decide.mpr injective.eq_iff
  rw [lookup?, lookup?, List.find?_map, Option.map_map]
  exact congrArg (fun test => (names.find? test).map Prod.snd) same

variable {names : ModuleNames}

theorem ModuleNames.lookup?_mapIds (id : FunctionId) :
    lookup? (names.mapIds ids).functions (ids id) = lookup? names.functions id :=
  lookup?_map ids.injective names.functions id

theorem TypeDescriptor.agree_mapIds (type : TypeDescriptor) :
    type.Agree names (names.mapIds ids) :=
  fun _ _ => rfl

/-! ## Functions -/

theorem RecordedFunction.entry?_mapIds (recorded : RecordedFunction) (node : Node) :
    RecordedFunction.entry? (recorded.mapIds ids) (node.mapIds ids) =
      (recorded.entry? node).map (ExpressionEntry.mapIds ids) :=
  Array.getElem?_map

namespace FunctionScope

variable (scope : FunctionScope)

theorem memberName_mapIds (base : Node) (position : Nat) :
    (scope.mapIds ids).memberName (base.mapIds ids) position = scope.memberName base position := by
  have found : (scope.mapIds ids).recorded.entry? (base.mapIds ids) =
      (scope.recorded.entry? base).map (ExpressionEntry.mapIds ids) :=
    scope.recorded.entry?_mapIds base
  unfold memberName
  rw [found]
  cases scope.recorded.entry? base <;> rfl

theorem expressionText_mapIds {text other : Node → String}
    (same : ∀ node, other (node.mapIds ids) = text node) (entry : ExpressionEntry) :
    (scope.mapIds ids).expressionText other (entry.mapIds ids) =
      scope.expressionText text entry := by
  have texts (nodes : List Node) : (nodes.map (Node.mapIds ids)).map other = nodes.map text := by
    rw [List.map_map]
    exact List.map_congr_left fun node _ => same node
  have typeText : (scope.names.mapIds ids).typeText entry.type =
      scope.names.typeText entry.type :=
    entry.type.agree_mapIds.typeText
  rcases entry with ⟨expression, type, reference, place⟩
  cases expression with
  | parameter | literal | constant | binding | localVariable => rfl
  | zero => simp only [expressionText, mapIds, ExpressionEntry.mapIds, Expression.mapIds, typeText]
  | load | unary | binary | index | swizzle =>
      simp only [expressionText, ExpressionEntry.mapIds, Expression.mapIds, same]
  | member base position =>
      simp only [expressionText, ExpressionEntry.mapIds, Expression.mapIds, same,
        memberName_mapIds]
  | compose | convert =>
      simp only [expressionText, mapIds, ExpressionEntry.mapIds, Expression.mapIds, typeText, texts,
        same]
  | call callee arguments =>
      have named : lookup (scope.names.mapIds ids).functions (ids callee) =
          lookup scope.names.functions callee :=
        congrArg (Option.getD · "") (ModuleNames.lookup?_mapIds callee)
      simp only [expressionText, mapIds, ExpressionEntry.mapIds, Expression.mapIds, texts, named]
  | standard function arguments =>
      cases function <;>
        simp only [expressionText, ExpressionEntry.mapIds, Expression.mapIds, texts]
  | helper used arguments =>
      simp only [expressionText, ExpressionEntry.mapIds, Expression.mapIds, texts]
      rfl

theorem textWithin_mapIds (bound : List (Nat × String)) (depth : Nat) (node : Node) :
    (scope.mapIds ids).textWithin bound depth (node.mapIds ids) =
      scope.textWithin bound depth node := by
  induction depth generalizing node with
  | zero => rfl
  | succ depth induction =>
      have found : (scope.mapIds ids).recorded.entry? (node.mapIds ids) =
          (scope.recorded.entry? node).map (ExpressionEntry.mapIds ids) :=
        scope.recorded.entry?_mapIds node
      have kept : lookup? bound (node.mapIds ids).index = lookup? bound node.index := rfl
      rw [textWithin, textWithin, found, kept]
      cases lookup? bound node.index with
      | some name => rfl
      | none =>
          cases scope.recorded.entry? node with
          | none => rfl
          | some entry => exact scope.expressionText_mapIds induction entry

theorem text_mapIds (bound : List (Nat × String)) (node : Node) :
    (scope.mapIds ids).text bound (node.mapIds ids) = scope.text bound node :=
  scope.textWithin_mapIds bound (node.index + 1) node

theorem texts_mapIds (bound : List (Nat × String)) (nodes : List Node) :
    (nodes.map (Node.mapIds ids)).map ((scope.mapIds ids).text bound) =
      nodes.map (scope.text bound) := by
  rw [List.map_map]
  exact List.map_congr_left fun node _ => scope.text_mapIds bound node

theorem definitionText_mapIds (bound : List (Nat × String)) (node : Node) :
    (scope.mapIds ids).definitionText bound (node.mapIds ids) =
      scope.definitionText bound node := by
  have found : (scope.mapIds ids).recorded.entry? (node.mapIds ids) =
      (scope.recorded.entry? node).map (ExpressionEntry.mapIds ids) :=
    scope.recorded.entry?_mapIds node
  rw [definitionText, definitionText, found]
  cases scope.recorded.entry? node with
  | none => rfl
  | some entry => exact scope.expressionText_mapIds (scope.text_mapIds bound) entry

theorem variableType_mapIds (index : Nat) :
    (scope.mapIds ids).variableType index = scope.variableType index := by
  have kept : (scope.mapIds ids).recorded.locals[index]? = scope.recorded.locals[index]? := rfl
  unfold variableType
  rw [kept]
  cases scope.recorded.locals[index]? with
  | none => rfl
  | some declared => exact declared.type.agree_mapIds.typeText

theorem variableName_mapIds (index : Nat) :
    (scope.mapIds ids).variableName index = scope.variableName index :=
  rfl

end FunctionScope

mutual
theorem Statement.write_mapIds (scope : FunctionScope) :
    ∀ (statement : Statement) (writer : FunctionWriter),
      (statement.mapIds ids).write (scope.mapIds ids) writer = statement.write scope writer
  | .emit node, writer => by
      simp only [Statement.mapIds, Statement.write, FunctionWriter.bind,
        scope.definitionText_mapIds]
      rfl
  | .declare index none, writer | .declare index (some _), writer | .store _ _, writer
  | .giveBack (some _), writer => by
      simp only [Statement.mapIds, Option.map_some, Option.map_none, Statement.write,
        scope.variableType_mapIds, scope.variableName_mapIds, scope.text_mapIds]
  | .callVoid callee arguments, writer => by
      have named : lookup (scope.mapIds ids).names.functions (ids callee) =
          lookup scope.names.functions callee :=
        congrArg (Option.getD · "") (ModuleNames.lookup?_mapIds callee)
      simp only [Statement.mapIds, Statement.write, scope.texts_mapIds, named]
  | .branch condition accept reject, writer => by
      have empty : (mapBlockIds ids reject).isEmpty = reject.isEmpty := by cases reject <;> rfl
      simp only [Statement.mapIds, Statement.write, scope.text_mapIds, empty,
        writeBlock_mapIds scope accept, writeBlock_mapIds scope reject]
  | .loop body, writer => by
      simp only [Statement.mapIds, Statement.write, writeBlock_mapIds scope body]
  | .range counter first last body, writer => by
      simp only [Statement.mapIds, Statement.write, scope.variableType_mapIds,
        scope.variableName_mapIds, scope.text_mapIds, writeBlock_mapIds scope body]
  | .leaveLoop, writer | .nextRound, writer | .giveBack none, writer | .discard, writer => rfl

theorem writeBlock_mapIds (scope : FunctionScope) :
    ∀ (block : List Statement) (writer : FunctionWriter),
      writeBlock (scope.mapIds ids) writer (mapBlockIds ids block) =
        writeBlock scope writer block
  | [], writer => rfl
  | statement :: rest, writer => by
      rw [mapBlockIds, writeBlock, writeBlock, statement.write_mapIds scope,
        writeBlock_mapIds scope rest]
end

mutual
theorem Statement.isReturn_mapIds : ∀ statement : Statement,
    (statement.mapIds ids).isReturn = statement.isReturn
  | .branch _ accept reject => by
      rw [Statement.mapIds, Statement.isReturn, Statement.isReturn, endsInReturn_mapIds accept,
        endsInReturn_mapIds reject]
  | .emit _ | .declare _ _ | .store _ _ | .callVoid _ _ | .loop _ | .range _ _ _ _
  | .leaveLoop | .nextRound | .giveBack _ | .discard => rfl

theorem endsInReturn_mapIds : ∀ block : Block,
    endsInReturn (mapBlockIds ids block) = endsInReturn block
  | [] => rfl
  | [statement] => statement.isReturn_mapIds
  | _ :: statement :: rest => endsInReturn_mapIds (statement :: rest)
end

namespace RecordedFunction

variable (recorded : RecordedFunction)

theorem mentionedTypes_mapIds : (recorded.mapIds ids).mentionedTypes = recorded.mentionedTypes := by
  have types : (recorded.mapIds ids).expressions.toList.map ExpressionEntry.type =
      recorded.expressions.toList.map ExpressionEntry.type := by
    rw [mapIds, Array.toList_map, List.map_map]
    rfl
  rw [mentionedTypes, mentionedTypes, types]
  rfl

theorem resultText_mapIds (signature : Signature) :
    resultText signature (names.mapIds ids) = resultText signature names := by
  unfold resultText
  cases signature.result with
  | none => rfl
  | some type => simp only [type.agree_mapIds.typeText]

theorem headText_mapIds (signature : Signature) (identifier : String)
    (parameterNames : List String) :
    headText signature (names.mapIds ids) identifier parameterNames =
      headText signature names identifier parameterNames := by
  simp only [headText, resultText_mapIds,
    ModuleNames.parameterTexts_congr (fun type _ => type.agree_mapIds)]

theorem replacements_mapIds (function : ShaderFunction) :
    replacements (function.mapIds ids) (names.mapIds ids) = replacements function names := by
  have implementation : (function.mapIds ids).implementation =
      function.implementation.mapIds ids := rfl
  unfold replacements
  rw [implementation]
  cases function.implementation with
  | script body result => rfl
  | raw text references =>
      simp only [Implementation.mapIds, List.filterMap_map]
      apply List.filterMap_congr
      intro reference _
      simp only [Function.comp_apply, ModuleNames.lookup?_mapIds]

theorem statementsText_mapIds (identifier : String) (registry : NameRegistry) (block : Block) :
    (recorded.mapIds ids).statementsText identifier (names.mapIds ids) registry
        (mapBlockIds ids block) =
      recorded.statementsText identifier names registry block := by
  have scope : (recorded.mapIds ids).bodyScope (names.mapIds ids) registry =
      (recorded.bodyScope names registry).mapIds ids := rfl
  have start : (recorded.mapIds ids).bodyWriter identifier (names.mapIds ids) registry =
      recorded.bodyWriter identifier names registry := by
    rw [bodyWriter, bodyWriter, headText_mapIds]
    rfl
  have signature : (recorded.mapIds ids).signature = recorded.signature := rfl
  rw [statementsText_eq, statementsText_eq, scope, start, writeBlock_mapIds, signature,
    endsInReturn_mapIds]
  cases recorded.signature.result with
  | none => rfl
  | some type => simp only [type.agree_mapIds.typeText]

theorem moduleText_mapIds (identifier : String) (registry : NameRegistry) :
    (recorded.mapIds ids).moduleText identifier (names.mapIds ids) registry =
      recorded.moduleText identifier names registry := by
  have body : (recorded.mapIds ids).body = recorded.body.mapIds ids := rfl
  unfold moduleText
  rw [body]
  cases recorded.body with
  | raw text =>
      have head : headText (recorded.mapIds ids).signature (names.mapIds ids) =
          headText recorded.signature names :=
        funext₂ fun identifier parameterNames => headText_mapIds _ identifier parameterNames
      have raw : replacements (recorded.mapIds ids).function (names.mapIds ids) =
          replacements recorded.function names :=
        replacements_mapIds recorded.function
      simp only [RecordedBody.mapIds, rawText, head, raw]
      rfl
  | statements block => exact recorded.statementsText_mapIds identifier registry block

end RecordedFunction

/-! ## Declarations -/

namespace Declaration

variable (context : TraceContext) (table : BindingTable)

theorem text_names_mapIds (registry : NameRegistry) (identifier : String)
    (declaration : Declaration) (plain : ∀ id, declaration ≠ .function id) :
    declaration.text context table (names.mapIds ids) registry identifier =
      declaration.text context table names registry identifier := by
  apply Agree.text
  intro needed needs
  cases needs with
  | type => rfl
  | expression | function => exact (plain _ rfl).elim

theorem text_mapIds (registry : NameRegistry) (identifier : String) (declaration : Declaration) :
    (declaration.mapIds ids).text (context.mapIds ids) table (names.mapIds ids) registry
        identifier = declaration.text context table names registry identifier := by
  cases declaration with
  | type type =>
      rw [← text_names_mapIds context table registry identifier (.type type) fun _ => nofun]
      cases type <;> rfl
  | constant number =>
      exact text_names_mapIds context table registry identifier (.constant number) fun _ => nofun
  | binding slot =>
      exact text_names_mapIds context table registry identifier (.binding slot) fun _ => nofun
  | helper used =>
      exact text_names_mapIds context table registry identifier (.helper used) fun _ => nofun
  | function id =>
      rw [mapIds, text, text, context.find?_mapIds, Option.map_map]
      apply congrArg (Option.map · _)
      funext recorded
      exact recorded.moduleText_mapIds identifier registry.fork

end Declaration

end ShaderKit
