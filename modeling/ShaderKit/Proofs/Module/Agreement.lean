import ShaderKit.Module.Resolve
import ShaderKit.Proofs.Module.Needs
import ShaderKit.Proofs.Module.Writing

/-!
# Texts show only the names that they need

The text of a declaration is the same for any two choices of module names that agree on what the
declaration needs. So it shows no name, and no replacement for a missing name, of anything else.
-/

namespace ShaderKit

open FunctionScope
open ModuleNames (lookup lookup? parameterText)

def ModuleNames.find? (names : ModuleNames) : Declaration → Option String
  | .type type => lookup? names.types type
  | .constant number => lookup? names.constants number
  | .binding slot => lookup? names.bindings slot
  | .helper used => lookup? names.helpers used
  | .function id => lookup? names.functions id

/-- Names that agree on all that a declaration needs. -/
def Declaration.Agree (context : TraceContext) (table : BindingTable) (declaration : Declaration)
    (names others : ModuleNames) : Prop :=
  ∀ needed, declaration.Needs context table needed → others.find? needed = names.find? needed

def TypeDescriptor.Agree (type : TypeDescriptor) (names others : ModuleNames) : Prop :=
  ∀ inner ∈ type.structs, others.find? (.type inner) = names.find? (.type inner)

section

variable {context : TraceContext} {table : BindingTable} {names others : ModuleNames}

theorem Declaration.Agree.type {declaration : Declaration}
    (agree : declaration.Agree context table names others) {type : TypeDescriptor}
    (named : type ∈ declaration.types context table) : type.Agree names others :=
  fun _ inside => agree _ (.type named inside)

/-! ## Types and values -/

theorem TypeDescriptor.Agree.typeText : ∀ {type : TypeDescriptor}, type.Agree names others →
    others.typeText type = names.typeText type
  | .scalar _, _ | .vector _ _, _ | .matrix _ _ _, _ | .atomic _, _ => rfl
  | .struct label members, agree => by
      have own : lookup? others.types (.struct label members) =
          lookup? names.types (.struct label members) :=
        agree _ (List.mem_append_right _ (List.mem_singleton_self _))
      simp only [ModuleNames.typeText, own]
  | .array element length, agree => by
      have inner : element.Agree names others := agree
      cases length <;> simp only [ModuleNames.typeText, inner.typeText]

theorem TypeDescriptor.Agree.member {label : Option String} {members : MemberList}
    (agree : (TypeDescriptor.struct label members).Agree names others) :
    ∀ member ∈ members.toList, member.type.Agree names others :=
  fun member listed inner inside => agree inner
    (List.mem_append_left _ ((MemberList.mem_structs _).mpr ⟨member, listed, inside⟩))

mutual
theorem TypeDescriptor.Agree.valueText : ∀ {type : TypeDescriptor} (value : HostValue),
    type.Agree names others → type.valueText others value = type.valueText names value
  | .scalar _, value, _ | .vector _ _, value, _ | .matrix _ _ _, value, _
  | .atomic _, value, _ => by cases value <;> rfl
  | .array element length, value, agree => by
      have inner : element.Agree names others := agree
      have elements : element.valueText others = element.valueText names :=
        funext fun value => inner.valueText value
      cases value with
      | scalar | vector => rfl
      | matrix | array | struct =>
          simp only [TypeDescriptor.valueText, agree.typeText, elements]
  | .struct label members, value, agree => by
      have inner (values : List (String × HostValue)) :
          members.valueTexts others values = members.valueTexts names values :=
        MemberList.valueTexts_congr values agree.member
      cases value with
      | scalar | vector => rfl
      | matrix | array | struct =>
          simp only [TypeDescriptor.valueText, agree.typeText, inner]

theorem MemberList.valueTexts_congr : ∀ {members : MemberList}
    (values : List (String × HostValue)),
    (∀ member ∈ members.toList, member.type.Agree names others) →
      members.valueTexts others values = members.valueTexts names values
  | .nil, values, _ => rfl
  | .cons name type attributes rest, values, agree => by
      have first : type.Agree names others := agree _ List.mem_cons_self
      have later := MemberList.valueTexts_congr values fun member listed =>
        agree member (List.mem_cons_of_mem _ listed)
      simp only [MemberList.valueTexts, first.typeText, later]
      cases HostValue.memberIn? name values with
      | none => rfl
      | some value => exact congrArg (· :: _) (first.valueText value)
end

theorem ModuleNames.parameterTexts_congr {types : List TypeDescriptor}
    (agree : ∀ type ∈ types, type.Agree names others) (parameterNames : List String) :
    List.zipWith others.parameterText parameterNames types =
      List.zipWith names.parameterText parameterNames types := by
  induction types generalizing parameterNames with
  | nil => rw [List.zipWith_nil_right, List.zipWith_nil_right]
  | cons type rest induction =>
      cases parameterNames with
      | nil => rfl
      | cons name more =>
          have later := induction (fun other member => agree other (List.mem_cons_of_mem _ member))
          rw [List.zipWith_cons_cons, List.zipWith_cons_cons, later more, parameterText,
            parameterText, (agree type List.mem_cons_self).typeText]

/-! ## Expressions -/

namespace FunctionScope

variable {scope : FunctionScope}

def renamed (scope : FunctionScope) (others : ModuleNames) : FunctionScope :=
  { scope with names := others }

theorem expressionText_renamed {entry : ExpressionEntry}
    (types : entry.type.Agree scope.names others)
    (agree : ∀ needed, entry.expression.declaration? = some needed →
      others.find? needed = scope.names.find? needed) (text : Node → String) :
    (scope.renamed others).expressionText text entry = scope.expressionText text entry := by
  rcases entry with ⟨expression, type, reference, place⟩
  cases expression with
  | parameter | literal | localVariable | load | unary | binary | member | index | swizzle => rfl
  | standard function arguments => cases function <;> rfl
  | compose | zero | convert => simp only [expressionText, renamed, types.typeText]
  | constant number =>
      have same : lookup? others.constants number = lookup? scope.names.constants number :=
        agree _ rfl
      simp only [expressionText, renamed, lookup, same]
  | binding slot =>
      have same : lookup? others.bindings slot = lookup? scope.names.bindings slot := agree _ rfl
      simp only [expressionText, renamed, lookup, same]
  | helper used =>
      have same : lookup? others.helpers used = lookup? scope.names.helpers used := agree _ rfl
      simp only [expressionText, renamed, lookup, same]
  | call callee =>
      have same : lookup? others.functions callee = lookup? scope.names.functions callee :=
        agree _ rfl
      simp only [expressionText, renamed, lookup, same]

/-- A scope that spells its expressions and the types of its variables the same in a module with
other names. -/
structure SpellsAlike (scope : FunctionScope) (others : ModuleNames) : Prop where
  expression : ∀ entry ∈ scope.recorded.expressions, ∀ text,
    (scope.renamed others).expressionText text entry = scope.expressionText text entry
  variableType : ∀ index, (scope.renamed others).variableType index = scope.variableType index

theorem recorded_renamed : (scope.renamed others).recorded = scope.recorded :=
  rfl

theorem variableName_renamed (index : Nat) :
    (scope.renamed others).variableName index = scope.variableName index :=
  rfl

variable (alike : scope.SpellsAlike others)
include alike

theorem SpellsAlike.entry {node : Node} {entry : ExpressionEntry}
    (found : scope.recorded.entry? node = some entry) (text : Node → String) :
    (scope.renamed others).expressionText text entry = scope.expressionText text entry :=
  alike.expression entry (Array.mem_of_getElem? found) text

theorem SpellsAlike.textWithin (bound : List (Nat × String)) (depth : Nat) :
    (scope.renamed others).textWithin bound depth = scope.textWithin bound depth := by
  induction depth with
  | zero => rfl
  | succ depth induction =>
      funext node
      rw [FunctionScope.textWithin, FunctionScope.textWithin, recorded_renamed, induction]
      split
      next => rfl
      next =>
        split
        next => rfl
        next entry found => exact alike.entry found _

theorem SpellsAlike.text (bound : List (Nat × String)) :
    (scope.renamed others).text bound = scope.text bound :=
  funext fun node => congrFun (alike.textWithin bound (node.index + 1)) node

theorem SpellsAlike.definitionText (bound : List (Nat × String)) (node : Node) :
    (scope.renamed others).definitionText bound node = scope.definitionText bound node := by
  rw [FunctionScope.definitionText, FunctionScope.definitionText, recorded_renamed, alike.text]
  split
  next => rfl
  next entry found => exact alike.entry found _

end FunctionScope

/-! ## Statements -/

mutual
theorem Statement.write_renamed {scope : FunctionScope} (alike : scope.SpellsAlike others) :
    ∀ (statement : Statement) (writer : FunctionWriter), (∀ callee ∈ statement.calls,
      lookup? others.functions callee = lookup? scope.names.functions callee) →
    statement.write (scope.renamed others) writer = statement.write scope writer
  | .emit node, writer, _ => by
      simp only [Statement.write, FunctionWriter.bind, alike.definitionText]
  | .declare index none, writer, _ | .declare index (some _), writer, _ => by
      simp only [Statement.write, alike.variableType, alike.text, variableName_renamed]
  | .store _ _, writer, _ | .giveBack (some _), writer, _ => by
      simp only [Statement.write, alike.text]
  | .callVoid callee arguments, writer, agree => by
      have same : lookup (scope.renamed others).names.functions callee =
          lookup scope.names.functions callee :=
        congrArg (Option.getD · "") (agree callee (List.mem_singleton_self _))
      simp only [Statement.write, alike.text, same]
  | .branch condition accept reject, writer, agree => by
      have accepted (writer : FunctionWriter) := writeBlock_renamed alike accept writer
        fun callee called => agree callee (List.mem_append_left _ called)
      have rejected (writer : FunctionWriter) := writeBlock_renamed alike reject writer
        fun callee called => agree callee (List.mem_append_right _ called)
      simp only [Statement.write, alike.text, accepted, rejected]
  | .loop body, writer, agree => by
      rw [write_loop, write_loop, writeBlock_renamed alike body _ agree]
  | .range counter first last body, writer, agree => by
      simp only [Statement.write, alike.variableType, alike.text, variableName_renamed,
        writeBlock_renamed alike body _ agree]
  | .leaveLoop, writer, _ | .nextRound, writer, _ | .giveBack none, writer, _
  | .discard, writer, _ => rfl

theorem writeBlock_renamed {scope : FunctionScope} (alike : scope.SpellsAlike others) :
    ∀ (block : List Statement) (writer : FunctionWriter), (∀ callee ∈ blockCalls block,
      lookup? others.functions callee = lookup? scope.names.functions callee) →
    writeBlock (scope.renamed others) writer block = writeBlock scope writer block
  | [], writer, _ => rfl
  | statement :: rest, writer, agree => by
      have first := statement.write_renamed alike writer
        fun callee called => agree callee (List.mem_append_left _ called)
      rw [writeBlock, writeBlock, first, writeBlock_renamed alike rest _
        fun callee called => agree callee (List.mem_append_right _ called)]
end

/-! ## Functions -/

namespace RecordedFunction

variable {recorded : RecordedFunction}

structure Agree (recorded : RecordedFunction) (names others : ModuleNames) : Prop where
  types : ∀ type ∈ recorded.mentionedTypes, type.Agree names others
  expressions : ∀ entry ∈ recorded.expressions, ∀ needed,
    entry.expression.declaration? = some needed → others.find? needed = names.find? needed
  functions : ∀ callee, recorded.Refers callee →
    lookup? others.functions callee = lookup? names.functions callee

theorem mem_mentionedTypes {type : TypeDescriptor} : type ∈ recorded.mentionedTypes ↔
    (∃ parameter ∈ recorded.signature.parameters, parameter.type = type) ∨
      recorded.signature.result = some type ∨
      (∃ declared ∈ recorded.locals, declared.type = type) ∨
      ∃ entry ∈ recorded.expressions, entry.type = type := by
  simp only [mentionedTypes, List.mem_append, List.mem_map, Option.mem_toList, Array.mem_toList_iff,
    or_assoc]

variable (agree : recorded.Agree names others)
include agree

theorem Agree.resultType {type : TypeDescriptor} (result : recorded.signature.result = some type) :
    others.typeText type = names.typeText type :=
  (agree.types type (mem_mentionedTypes.mpr (.inr (.inl result)))).typeText

theorem Agree.resultText :
    resultText recorded.signature others = resultText recorded.signature names := by
  cases result : recorded.signature.result with
  | none => simp only [RecordedFunction.resultText, result]
  | some type => simp only [RecordedFunction.resultText, result, agree.resultType result]

theorem Agree.headText (identifier : String) (parameterNames : List String) :
    headText recorded.signature others identifier parameterNames =
      headText recorded.signature names identifier parameterNames := by
  have types : ∀ type ∈ recorded.signature.parameters.map Parameter.type,
      type.Agree names others := by
    intro type member
    rcases List.mem_map.mp member with ⟨parameter, listed, rfl⟩
    exact agree.types _ (mem_mentionedTypes.mpr (.inl ⟨parameter, listed, rfl⟩))
  simp only [RecordedFunction.headText, ModuleNames.parameterTexts_congr types, agree.resultText]

theorem Agree.spellsAlike (registry : NameRegistry) :
    (recorded.bodyScope names registry).SpellsAlike others where
  expression entry member :=
    expressionText_renamed
      (agree.types _ (mem_mentionedTypes.mpr (.inr (.inr (.inr ⟨entry, member, rfl⟩)))))
      (agree.expressions entry member)
  variableType index := by
    rw [variableType, variableType, recorded_renamed]
    split
    next => rfl
    next declared found =>
      have member := Array.mem_of_getElem? found
      exact (agree.types _
        (mem_mentionedTypes.mpr (.inr (.inr (.inl ⟨declared, member, rfl⟩))))).typeText

theorem Agree.statementsText {block : Block} (body : recorded.body = .statements block)
    (identifier : String) (registry : NameRegistry) :
    recorded.statementsText identifier others registry block =
      recorded.statementsText identifier names registry block := by
  have calls : ∀ callee ∈ blockCalls block,
      lookup? others.functions callee = lookup? names.functions callee :=
    fun callee called => agree.functions callee (.statement body called)
  have start : recorded.bodyWriter identifier others registry =
      recorded.bodyWriter identifier names registry := by
    rw [bodyWriter, bodyWriter, agree.headText]
  have written (writer : FunctionWriter) :
      writeBlock (recorded.bodyScope others registry) writer block =
        writeBlock (recorded.bodyScope names registry) writer block :=
    writeBlock_renamed (agree.spellsAlike registry) block writer calls
  rw [statementsText_eq, statementsText_eq, start, written]
  cases result : recorded.signature.result with
  | none => rfl
  | some type => simp only [agree.resultType result]

theorem Agree.replacements :
    replacements recorded.function others = replacements recorded.function names := by
  unfold RecordedFunction.replacements
  cases raw : recorded.function.implementation with
  | script => rfl
  | raw text references =>
      apply List.filterMap_congr
      rintro ⟨name, id⟩ member
      dsimp only
      rw [agree.functions id (.named raw member)]

theorem Agree.rawText (identifier : String) (text : String) :
    recorded.rawText identifier others text = recorded.rawText identifier names text := by
  simp only [RecordedFunction.rawText, agree.headText, agree.replacements]

/-- The text of a function shows the names of what the function refers to, and no others. -/
theorem Agree.moduleText (identifier : String) (registry : NameRegistry) :
    recorded.moduleText identifier others registry =
      recorded.moduleText identifier names registry := by
  unfold RecordedFunction.moduleText
  cases body : recorded.body with
  | raw text => exact agree.rawText identifier text
  | statements block => exact agree.statementsText body identifier registry

end RecordedFunction

/-! ## Declarations -/

namespace Declaration

theorem Agree.recorded {id : FunctionId} {recorded : RecordedFunction}
    (agree : (Declaration.function id).Agree context table names others)
    (found : context.find? id = some recorded) : recorded.Agree names others where
  types type member := agree.type (by
    change type ∈ (context.find? id).toList.flatMap RecordedFunction.mentionedTypes
    rw [found, Option.toList_some, List.flatMap_singleton]
    exact member)
  expressions _ member needed named := agree needed (.expression found member named)
  functions callee refers := agree (.function callee) (.function found refers)

/-- The text of a declaration shows the names of what the declaration needs, and no others. -/
theorem Agree.text {declaration : Declaration}
    (agree : declaration.Agree context table names others) (registry : NameRegistry)
    (identifier : String) :
    declaration.text context table others registry identifier =
      declaration.text context table names registry identifier := by
  cases declaration with
  | type named =>
      cases named with
      | struct label members =>
          have lines : (members.toList.map fun member =>
              s!"{member.attributeText}{member.name}: {others.typeText member.type},") =
                members.toList.map fun member =>
                  s!"{member.attributeText}{member.name}: {names.typeText member.type}," := by
            apply List.map_congr_left
            intro member listed
            rw [(agree.type (List.mem_map_of_mem listed)).typeText]
          simp only [Declaration.text, ModuleNames.structText, lines]
      | _ => rfl
  | constant number =>
      rw [Declaration.text, Declaration.text]
      apply Option.map_congr
      intro constant found
      have type : constant.type.Agree names others := agree.type (by
        change constant.type ∈ (context.constant? number).toList.map ModuleConstant.type
        exact List.mem_map_of_mem (Option.mem_toList.mpr found))
      rw [ModuleNames.constantText, ModuleNames.constantText, type.typeText, type.valueText]
  | binding slot =>
      rw [Declaration.text, Declaration.text]
      apply Option.map_congr
      intro entry found
      have type : entry.type.Agree names others := agree.type (by
        change entry.type ∈ (table.find? slot).toList.map BindingEntry.type
        exact List.mem_map_of_mem (Option.mem_toList.mpr found))
      rw [ModuleNames.bindingText, ModuleNames.bindingText, type.typeText]
  | helper used =>
      have parameters : ∀ type ∈ used.parameterTypes, type.Agree names others :=
        fun type listed => agree.type (List.mem_append_left [used.resultType] listed)
      have result : used.resultType.Agree names others :=
        agree.type (List.mem_append_right _ (List.mem_singleton_self _))
      simp only [Declaration.text, ModuleNames.helperText,
        ModuleNames.parameterTexts_congr parameters, result.typeText]
  | function id =>
      rw [Declaration.text, Declaration.text]
      apply Option.map_congr
      intro recorded found
      exact (agree.recorded found).moduleText identifier registry.fork

theorem Known.text {declaration : Declaration} (known : declaration.Known context table)
    (registry : NameRegistry) (identifier : String) :
    ∃ text, declaration.text context table names registry identifier = some text := by
  cases declaration with
  | type named =>
      rcases known with ⟨label, members, rfl⟩
      exact ⟨_, rfl⟩
  | helper used => exact ⟨_, rfl⟩
  | constant number | binding slot | function id =>
      rcases Option.isSome_iff_exists.mp known with ⟨found, same⟩
      exact ⟨_, by rw [Declaration.text, same]; rfl⟩

end Declaration

end

end ShaderKit
