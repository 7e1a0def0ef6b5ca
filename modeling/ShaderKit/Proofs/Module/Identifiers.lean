import ShaderKit.Module.Resolve
import ShaderKit.Proofs.Module.FreshNames
import ShaderKit.Proofs.Module.Writing
import ShaderKit.Proofs.Recording.Changes

/-!
# Identifiers never collide

The identifiers of a module, and the names inside each of its functions, are all handed out by
one registry and its copies, so they are different from each other wherever one of them could
stand for another.
-/

namespace ShaderKit

open NameRegistry

/-! ## Declarations -/

theorem NameRegistry.nameDeclarations_map_fst (registry : NameRegistry) (context : TraceContext)
    (table : BindingTable) (declarations : List Declaration) :
    (registry.nameDeclarations context table declarations).2.map Prod.fst = declarations := by
  induction declarations generalizing registry with
  | nil => rfl
  | cons declaration rest induction =>
      rw [nameDeclarations]
      exact congrArg (declaration :: ·) (induction _)

theorem NameRegistry.nameDeclarations_handsAll (registry : NameRegistry) (context : TraceContext)
    (table : BindingTable) (declarations : List Declaration) :
    registry.HandsAll
      ((registry.nameDeclarations context table declarations).2.map Prod.snd).reverse
      (registry.nameDeclarations context table declarations).1 := by
  induction declarations generalizing registry with
  | nil => exact .nil registry
  | cons declaration rest induction =>
      let label := declaration.label context table
      let handed := if declaration.isEntryPoint context then registry.makeUniqueLabel label
        else registry.makeUnique label
      have hands : registry.Hands handed.2 handed.1 := by
        unfold handed
        split
        next => exact registry.makeUniqueLabel_hands label
        next => exact registry.makeUnique_hands label
      have later := (HandsAll.single hands).trans (induction handed.1)
      rw [← List.reverse_cons] at later
      exact later

/-! ## Names inside a function -/

namespace FunctionWriter

theorem labelName_hands (writer : FunctionWriter) (label : String) :
    writer.registry.Hands (writer.labelName label).2 (writer.labelName label).1.registry :=
  writer.registry.makeUniqueLabel_hands label

theorem freshName_hands (writer : FunctionWriter) :
    writer.registry.Hands writer.freshName.2 writer.freshName.1.registry :=
  ⟨writer.registry.isTaken_freeNumber (by decide) _, rfl⟩

theorem variableName_hands (writer : FunctionWriter) (declared : LocalVariable) :
    writer.registry.Hands (writer.variableName declared).2
      (writer.variableName declared).1.registry := by
  unfold variableName
  split
  next label _ => exact writer.labelName_hands label
  next => exact writer.freshName_hands

theorem nameAll_handsAll {α : Type} {take : FunctionWriter → α → FunctionWriter × String}
    (hands : ∀ (writer : FunctionWriter) (thing : α),
      writer.registry.Hands (take writer thing).2 (take writer thing).1.registry)
    (writer : FunctionWriter) (things : List α) :
    writer.registry.HandsAll (writer.nameAll take things).2.reverse
      (writer.nameAll take things).1.registry := by
  induction things generalizing writer with
  | nil => exact .nil _
  | cons thing rest induction =>
      have later := (HandsAll.single (hands writer thing)).trans (induction (take writer thing).1)
      rw [← List.reverse_cons] at later
      exact later

theorem Becomes.handsAll {scope : FunctionScope} {before after : FunctionWriter}
    (becomes : before.Becomes scope after) : ∃ added, after.bound = added ++ before.bound ∧
      before.registry.HandsAll (added.map Prod.snd) after.registry := by
  induction becomes with
  | refl writer => exact ⟨[], rfl, .nil _⟩
  | output writer => exact ⟨[], rfl, .nil _⟩
  | bind writer node =>
      exact ⟨[(node.index, writer.freshName.2)], rfl, .single writer.freshName_hands⟩
  | trans _ _ first second =>
      rcases first with ⟨added, bound, handed⟩
      rcases second with ⟨more, boundLater, handedLater⟩
      refine ⟨more ++ added, ?_, ?_⟩
      · rw [boundLater, bound, List.append_assoc]
      · rw [List.map_append]
        exact handed.trans handedLater

end FunctionWriter

namespace RecordedFunction

variable (recorded : RecordedFunction) (identifier : String) (names : ModuleNames)
  (registry : NameRegistry) (block : Block)

/-- The names that stand in the text of a function, besides identifiers of the module:
parameters, variables and values. -/
def localNames : List String :=
  let written := writeBlock (recorded.bodyScope names registry)
    (recorded.bodyWriter identifier names registry) block
  (recorded.parametersNamed registry).2 ++ (recorded.variablesNamed registry).2 ++
    written.bound.map Prod.snd

/-- The names inside a function are handed out by the registry with which it is begun. -/
theorem localNames_handsAll : ∃ order after,
    (recorded.localNames identifier names registry block).Perm order ∧
      registry.HandsAll order after := by
  have parameters := FunctionWriter.nameAll_handsAll
    (fun writer (parameter : Parameter) => writer.labelName_hands parameter.name)
    { output := stageLine recorded.signature, registry := registry }
    recorded.signature.parameters
  have locals := FunctionWriter.nameAll_handsAll FunctionWriter.variableName_hands
    (recorded.parametersNamed registry).1 recorded.locals.toList
  rcases (writeBlock_becomes (recorded.bodyScope names registry) block
    (recorded.bodyWriter identifier names registry)).handsAll with ⟨added, bound, values⟩
  rw [recorded.bodyWriter_bound, List.append_nil] at bound
  refine ⟨_, _, ?_, (parameters.trans locals).trans values⟩
  rw [localNames, bound]
  apply List.perm_append_comm.trans
  apply List.Perm.append_left
  apply List.perm_append_comm.trans
  exact (List.reverse_perm _).symm.append (List.reverse_perm _).symm

end RecordedFunction

/-! ## Modules -/

theorem Program.resolve_eq_ok {program : Program} {roots : List ShaderFunction}
    {table : BindingTable} {config : ResolveConfig} {journal after : Journal}
    {resolved : ResolvedModule}
    (resolves : program.resolve roots table config journal = .ok resolved after) :
    ∃ context traced, (program.traceAll roots).alone journal = .ok ((), context) traced ∧
      context.finished.forM table.checkFunction = .ok () ∧
      resolved = context.module roots table config.naming := by
  have lifted {answer : Except ResolveError Unit} {result : Unit} {before later : Journal}
      (ran : Journaled.lift answer before = .ok result later) :
      answer = .ok () ∧ later = before := by
    cases answer with
    | ok answer =>
        cases ran
        exact ⟨rfl, rfl⟩
    | error error => cases ran
  unfold Program.resolve at resolves
  rcases bind_ran_ok.mp resolves with ⟨_, _, valid, traces⟩
  rw [(lifted valid).2] at traces
  rcases bind_ran_ok.mp traces with ⟨⟨_, context⟩, traced, ran, resolves⟩
  rcases bind_ran_ok.mp resolves with ⟨_, _, checked, resolves⟩
  rcases bind_ran_ok.mp resolves with ⟨_, _, _, resolves⟩
  refine ⟨context, traced, ran, (lifted checked).1, ?_⟩
  split at resolves
  next =>
    rcases bind_ran_ok.mp resolves with ⟨_, _, _, resolves⟩
    cases resolves
    rfl
  next =>
    cases resolves
    rfl

/-- An identifier that is neither reserved nor the name of a standard function. -/
def Declarable (name : String) : Prop :=
  Identifier.hasIdentifierShape name.toList = true ∧ Identifier.isReserved name = false ∧
    name ∉ StandardFunction.names

theorem declarable_of_isValid {name : String} (valid : Identifier.isValid name = true)
    (unknown : name ∉ StandardFunction.names) : Declarable name := by
  rcases Identifier.isValid_iff.mp valid with ⟨shape, unreserved⟩
  exact ⟨shape, unreserved, unknown⟩

def TraceContext.named (context : TraceContext) (table : BindingTable) (naming : NamingStrategy) :
    NameRegistry × List (Declaration × String) :=
  (NameRegistry.new naming).nameDeclarations context table (context.declarations table)

/-- No name stands for two things. The identifiers of a module are different from each other and
may be declared, whatever the labels are; inside a function with recorded statements, so are the
parameters, the variables and the values, and none of them is an identifier of the module. -/
theorem Program.resolve_identifiers {program : Program} {roots : List ShaderFunction}
    {table : BindingTable} {config : ResolveConfig} {journal after : Journal}
    {resolved : ResolvedModule}
    (resolves : program.resolve roots table config journal = .ok resolved after) :
    (resolved.declarations.map Prod.snd).Nodup ∧
    (∀ identifier ∈ resolved.declarations.map Prod.snd, Declarable identifier) ∧
    ∃ context traced registry,
      (program.traceAll roots).alone journal = .ok ((), context) traced ∧
      let names := ModuleNames.ofDeclarations resolved.declarations
      resolved.code = context.moduleText table names registry resolved.declarations ∧
      ∀ recorded ∈ context.finished, ∀ block, recorded.body = .statements block →
        ∀ identifier,
          let scope := recorded.bodyScope names registry.fork
          let written := writeBlock scope (recorded.bodyWriter identifier names registry.fork) block
          recorded.moduleText identifier names registry.fork =
            recorded.statementsText identifier names registry.fork block ∧
          (recorded.statementsText identifier names registry.fork block =
            let ended :=
              match recorded.signature.result with
              | none => written
              | some type =>
                  if endsInReturn block then written
                  else written.line s!"return {names.typeText type}();"
            ended.close.output.text) ∧
          recorded.localNames identifier names registry.fork block =
            scope.parameters ++ scope.variableNames ++ written.bound.map Prod.snd ∧
          (recorded.localNames identifier names registry.fork block).Nodup ∧
          ∀ name ∈ recorded.localNames identifier names registry.fork block,
            Declarable name ∧ name ∉ resolved.declarations.map Prod.snd := by
  rcases Program.resolve_eq_ok resolves with ⟨context, traced, ran, _, rfl⟩
  have handed := (NameRegistry.new config.naming).nameDeclarations_handsAll context table
    (context.declarations table)
  have different := List.nodup_reverse.mp handed.nodup
  refine ⟨different, ?_, context, traced, (context.named table config.naming).1, ran, rfl, ?_⟩
  · intro identifier member
    rcases handed.fresh identifier (List.mem_reverse.mpr member) with ⟨unknown, valid⟩
    exact declarable_of_isValid valid unknown
  · intro recorded _ block body identifier
    rcases recorded.localNames_handsAll identifier
      (ModuleNames.ofDeclarations (context.module roots table config.naming).declarations)
      (context.named table config.naming).1.fork block with ⟨order, final, same, handedInside⟩
    refine ⟨?_, rfl, rfl, same.nodup_iff.mpr handedInside.nodup, ?_⟩
    · rw [RecordedFunction.moduleText, body]
    · intro name member
      rcases handedInside.fresh name (same.mem_iff.mp member) with ⟨unused, valid⟩
      have used : (context.named table config.naming).1.fork.used =
          ((context.module roots table config.naming).declarations.map Prod.snd).reverse ++
            StandardFunction.names := handed.used
      rw [used, List.mem_append, List.mem_reverse, not_or] at unused
      exact ⟨declarable_of_isValid valid unused.2, unused.1⟩

def exampleLabels : ShaderFunction where
  id := ⟨0⟩
  signature := ⟨"fn", [⟨"v0", .f32⟩, ⟨"label", .f32⟩], some .f32, none⟩
  implementation := .script
    (.ofList [
      .constant "half" (some "label") (.ok .f32) (.scalar (.f32 0x3f000000)),
      .binary "sum" .add (.register "$0") (.register "half"),
      .declare "other" (some "label") (.register "sum"),
      .declare "last" (some "max") (.register "$1")])
    (some (.register "sum"))

theorem resolve_identifiers_exampleLabels :
    ∃ resolved after, Program.resolve ⟨[exampleLabels]⟩ [exampleLabels] {} {} {} =
        .ok resolved after ∧
      (resolved.declarations.map Prod.snd).Nodup ∧
      ∀ identifier ∈ resolved.declarations.map Prod.snd, Declarable identifier := by
  have succeeds : (match Program.resolve ⟨[exampleLabels]⟩ [exampleLabels] {} {} {} with
    | .ok _ _ => true
    | .error _ _ => false) = true := by decide +kernel
  cases resolves : Program.resolve ⟨[exampleLabels]⟩ [exampleLabels] {} {} {} with
  | ok resolved after =>
      rcases Program.resolve_identifiers resolves with ⟨different, declarable, _⟩
      exact ⟨resolved, after, rfl, different, declarable⟩
  | error error after =>
      rw [resolves] at succeeds
      cases succeeds

end ShaderKit
