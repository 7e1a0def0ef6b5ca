import ShaderKit.Proofs.Identities.Involved
import ShaderKit.Proofs.Identities.Texts
import ShaderKit.Proofs.Identities.Traces
import ShaderKit.Proofs.Module.Closed

/-!
# Modules with other identities

Declarations are collected in the order of the recordings, and named by labels in the order of the
declarations. Neither order comes from identities, so a module does not depend on them.
-/

namespace ShaderKit

section

variable (ids : FunctionId → FunctionId)

def EntryPoint.mapIds (entry : EntryPoint) : EntryPoint :=
  { entry with function := ids entry.function }

def mapNamedIds (entry : Declaration × String) : Declaration × String :=
  (entry.1.mapIds ids, entry.2)

/-- The same module with other identities in its declarations and entry points. -/
def ResolvedModule.mapIds (resolved : ResolvedModule) : ResolvedModule :=
  { resolved with
    declarations := resolved.declarations.map (mapNamedIds ids)
    entryPoints := resolved.entryPoints.map (EntryPoint.mapIds ids) }

end

variable {ids : FunctionIdMap}

/-! ## Collecting -/

theorem Declaration.mapIds_injective : Function.Injective (Declaration.mapIds ids) := by
  intro first second same
  cases first with
  | function id =>
      cases second with
      | function other =>
          rw [mapIds, mapIds, function.injEq] at same
          exact congrArg function (ids.injective same)
      | type | constant | binding | helper => cases same
  | type | constant | binding | helper =>
      cases second <;> cases same
      rfl

theorem declare_mapIds (known : List Declaration) (declaration : Declaration) :
    declare (known.map (Declaration.mapIds ids)) (declaration.mapIds ids) =
      (declare known declaration).map (Declaration.mapIds ids) :=
  Recorder.addNew_map Declaration.mapIds_injective known declaration

mutual
theorem TypeDescriptor.declare_mapIds : ∀ (type : TypeDescriptor) (known : List Declaration),
    type.declare (known.map (Declaration.mapIds ids)) =
      (type.declare known).map (Declaration.mapIds ids)
  | .scalar _, _ | .vector _ _, _ | .matrix _ _ _, _ | .atomic _, _ => rfl
  | .array element _, known => element.declare_mapIds known
  | .struct label members, known => by
      have same : (known.map (Declaration.mapIds ids)).contains (.type (.struct label members)) =
          known.contains (.type (.struct label members)) :=
        contains_map Declaration.mapIds_injective known (.type (.struct label members))
      rw [TypeDescriptor.declare, TypeDescriptor.declare, same]
      split
      next => rfl
      next =>
        rw [members.declare_mapIds]
        exact ShaderKit.declare_mapIds _ (.type (.struct label members))

theorem MemberList.declare_mapIds : ∀ (members : MemberList) (known : List Declaration),
    members.declare (known.map (Declaration.mapIds ids)) =
      (members.declare known).map (Declaration.mapIds ids)
  | .nil, _ => rfl
  | .cons _ type _ rest, known => by
      rw [MemberList.declare, MemberList.declare, type.declare_mapIds, rest.declare_mapIds]
end

theorem declareTypes_mapIds (known : List Declaration) (types : List TypeDescriptor) :
    declareTypes (known.map (Declaration.mapIds ids)) types =
      (declareTypes known types).map (Declaration.mapIds ids) :=
  List.foldl_hom _ fun known type => type.declare_mapIds known

theorem TraceContext.declareConstant_mapIds (context : TraceContext) (known : List Declaration)
    (number : Nat) :
    (context.mapIds ids).declareConstant (known.map (Declaration.mapIds ids)) number =
      (context.declareConstant known number).map (Declaration.mapIds ids) := by
  have same : (context.mapIds ids).constant? number = context.constant? number := rfl
  rw [declareConstant, declareConstant, same, declareTypes_mapIds]
  exact declare_mapIds _ (.constant number)

theorem BindingTable.declareBinding_mapIds (table : BindingTable) (known : List Declaration)
    (used : BindingEntry) :
    table.declareBinding (known.map (Declaration.mapIds ids)) used =
      (table.declareBinding known used).map (Declaration.mapIds ids) := by
  rw [declareBinding, declareBinding, declareTypes_mapIds]
  exact declare_mapIds _ (.binding used.slot)

theorem Helper.declare_mapIds (helper : Helper) (known : List Declaration) :
    helper.declare (known.map (Declaration.mapIds ids)) =
      (helper.declare known).map (Declaration.mapIds ids) := by
  rw [Helper.declare, Helper.declare, declareTypes_mapIds]
  exact ShaderKit.declare_mapIds _ (.helper helper)

theorem RecordedFunction.declare_mapIds (context : TraceContext) (table : BindingTable)
    (known : List Declaration) (recorded : RecordedFunction) :
    (recorded.mapIds ids).declare (context.mapIds ids) table
        (known.map (Declaration.mapIds ids)) =
      (recorded.declare context table known).map (Declaration.mapIds ids) := by
  have constants (known : List Declaration) :
      recorded.constants.foldl (context.mapIds ids).declareConstant
          (known.map (Declaration.mapIds ids)) =
        (recorded.constants.foldl context.declareConstant known).map (Declaration.mapIds ids) :=
    List.foldl_hom _ context.declareConstant_mapIds
  have bindings (known : List Declaration) :
      recorded.bindings.foldl table.declareBinding (known.map (Declaration.mapIds ids)) =
        (recorded.bindings.foldl table.declareBinding known).map (Declaration.mapIds ids) :=
    List.foldl_hom _ table.declareBinding_mapIds
  have helpers (known : List Declaration) :
      recorded.helpers.foldl Helper.declare (known.map (Declaration.mapIds ids)) =
        (recorded.helpers.foldl Helper.declare known).map (Declaration.mapIds ids) :=
    List.foldl_hom _ fun known helper => helper.declare_mapIds known
  have types : declareTypes (known.map (Declaration.mapIds ids)) recorded.mentionedTypes =
      (declareTypes known recorded.mentionedTypes).map (Declaration.mapIds ids) :=
    declareTypes_mapIds known recorded.mentionedTypes
  unfold RecordedFunction.declare
  rw [recorded.mentionedTypes_mapIds, types]
  change ShaderKit.declare (recorded.helpers.foldl _ (recorded.bindings.foldl _
    (recorded.constants.foldl _ _))) _ = _
  rw [constants, bindings, helpers]
  exact ShaderKit.declare_mapIds _ (.function recorded.id)

theorem TraceContext.declarations_mapIds (context : TraceContext) (table : BindingTable) :
    (context.mapIds ids).declarations table =
      (context.declarations table).map (Declaration.mapIds ids) := by
  have folded (known : List Declaration) :
      context.finished.foldl (fun known recorded =>
          (recorded.mapIds ids).declare (context.mapIds ids) table known)
          (known.map (Declaration.mapIds ids)) =
        (context.finished.foldl (RecordedFunction.declare context table) known).map
          (Declaration.mapIds ids) :=
    List.foldl_hom _ fun known recorded => recorded.declare_mapIds context table known
  rw [declarations, declarations, mapIds, List.foldl_map]
  exact folded []

/-! ## Naming -/

theorem Declaration.label_mapIds (context : TraceContext) (table : BindingTable)
    (declaration : Declaration) :
    (declaration.mapIds ids).label (context.mapIds ids) table =
      declaration.label context table := by
  cases declaration with
  | function id =>
      rw [mapIds, label, label, context.find?_mapIds, Option.map_map]
      rfl
  | type type =>
      cases type with
      | struct name members => cases name <;> rfl
      | _ => rfl
  | constant | binding | helper => rfl

theorem Declaration.isEntryPoint_mapIds (context : TraceContext) (declaration : Declaration) :
    (declaration.mapIds ids).isEntryPoint (context.mapIds ids) =
      declaration.isEntryPoint context := by
  cases declaration with
  | function id =>
      rw [mapIds, isEntryPoint, isEntryPoint, context.find?_mapIds, Option.any_map]
      rfl
  | type | constant | binding | helper => rfl

theorem NameRegistry.nameDeclarations_mapIds (context : TraceContext) (table : BindingTable)
    (declarations : List Declaration) (registry : NameRegistry) :
    registry.nameDeclarations (context.mapIds ids) table
        (declarations.map (Declaration.mapIds ids)) =
      ((registry.nameDeclarations context table declarations).1,
        (registry.nameDeclarations context table declarations).2.map (mapNamedIds ids)) := by
  induction declarations generalizing registry with
  | nil => rfl
  | cons declaration rest induction =>
      simp only [List.map_cons, nameDeclarations, declaration.label_mapIds,
        declaration.isEntryPoint_mapIds, induction, mapNamedIds]

theorem ModuleNames.ofDeclarations_mapIds (named : List (Declaration × String)) :
    ofDeclarations (named.map (mapNamedIds ids)) = (ofDeclarations named).mapIds ids := by
  have folded (names : ModuleNames) :
      named.foldl (fun names entry => names.add (mapNamedIds ids entry).1 (mapNamedIds ids entry).2)
          (names.mapIds ids) =
        (named.foldl (fun names entry => names.add entry.1 entry.2) names).mapIds ids := by
    apply List.foldl_hom (ModuleNames.mapIds ids)
    rintro names ⟨declaration, identifier⟩
    cases declaration <;> rfl
  rw [ofDeclarations, ofDeclarations, List.foldl_map]
  exact folded {}

/-! ## Modules -/

namespace TraceContext

variable (context : TraceContext) (table : BindingTable)

theorem usesHalf_mapIds : (context.mapIds ids).usesHalf table = context.usesHalf table := by
  unfold usesHalf
  rw [mapIds, List.any_map]
  simp only [Function.comp_def, RecordedFunction.mentionedTypes_mapIds]

theorem moduleText_mapIds (names : ModuleNames) (registry : NameRegistry)
    (named : List (Declaration × String)) :
    (context.mapIds ids).moduleText table (names.mapIds ids) registry
        (named.map (mapNamedIds ids)) =
      context.moduleText table names registry named := by
  simp only [moduleText, usesHalf_mapIds, List.filterMap_map, Function.comp_def, mapNamedIds,
    Declaration.text_mapIds]

end TraceContext

theorem entryPointsOf_mapIds (names : ModuleNames) (roots : List ShaderFunction) :
    entryPointsOf (names.mapIds ids) (roots.map (ShaderFunction.mapIds ids)) =
      (entryPointsOf names roots).map (EntryPoint.mapIds ids) := by
  rw [entryPointsOf, entryPointsOf, List.filterMap_map, List.map_filterMap]
  apply List.filterMap_congr
  intro root _
  have found : ModuleNames.lookup? (names.mapIds ids).functions (root.mapIds ids).id =
      ModuleNames.lookup? names.functions root.id := ModuleNames.lookup?_mapIds root.id
  rw [Function.comp_apply, found]
  cases ModuleNames.lookup? names.functions root.id with
  | none => rfl
  | some name =>
      change (root.signature.stage >>= _) = Option.map _ (root.signature.stage >>= _)
      cases root.signature.stage <;> rfl

theorem exists_root_of_entryPoint {names : ModuleNames} {roots : List ShaderFunction}
    {entry : EntryPoint} (member : entry ∈ entryPointsOf names roots) :
    ∃ root ∈ roots, entry.function = root.id := by
  rcases List.mem_filterMap.mp member with ⟨root, taken, made⟩
  rcases Option.bind_eq_some_iff.mp made with ⟨name, _, made⟩
  rcases Option.bind_eq_some_iff.mp made with ⟨stage, _, made⟩
  cases made
  exact ⟨root, taken, rfl⟩

theorem TraceContext.module_mapIds (context : TraceContext) (roots : List ShaderFunction)
    (table : BindingTable) (naming : NamingStrategy) :
    (context.mapIds ids).module (roots.map (ShaderFunction.mapIds ids)) table naming =
      (context.module roots table naming).mapIds ids := by
  simp only [TraceContext.module, TraceContext.declarations_mapIds,
    NameRegistry.nameDeclarations_mapIds, ModuleNames.ofDeclarations_mapIds,
    TraceContext.moduleText_mapIds, entryPointsOf_mapIds]
  rfl

theorem BindingTable.forM_checkFunction_mapIds (table : BindingTable)
    (functions : List RecordedFunction) :
    (functions.map (RecordedFunction.mapIds ids)).forM table.checkFunction =
      functions.forM table.checkFunction := by
  induction functions with
  | nil => rfl
  | cons recorded rest induction =>
      exact congrArg (table.checkFunction recorded >>= fun _ => ·) induction

theorem Program.traceAll_mapIds (program : Program) (roots : List ShaderFunction) :
    (program.traceAll roots).MapsIds ids id
      ((program.mapIds ids).traceAll (roots.map (ShaderFunction.mapIds ids))) := by
  induction roots with
  | nil => exact .pure ()
  | cons root rest induction =>
      exact .bind (program.trace_mapIds ids root).discard fun _ => induction

theorem Tracing.alone_mapIds {α β : Type} {value : α → β} {work : Tracing α} {other : Tracing β}
    (same : work.MapsIds ids value other) :
    Commutes (Journal.mapIds ids) (Prod.map value (TraceContext.mapIds ids)) work.alone
      other.alone := by
  intro journal
  have first := same { journal := journal }
  change other { journal := journal.mapIds ids } = _ at first
  unfold alone
  rw [first]
  cases work { journal := journal } <;> rfl

/-- Resolving does the same with other identities. -/
theorem Program.resolve_mapIds (program : Program) (roots : List ShaderFunction)
    (table : BindingTable) (config : ResolveConfig) :
    Commutes (Journal.mapIds ids) (ResolvedModule.mapIds ids)
      (program.resolve roots table config)
      ((program.mapIds ids).resolve (roots.map (ShaderFunction.mapIds ids)) table config) := by
  have lifted (answer : Except ResolveError Unit) :
      Commutes (Journal.mapIds ids) id (Journaled.lift answer) (Journaled.lift answer) := by
    cases answer with
    | ok result => exact .pure result
    | error error => exact .throw _
  have logged (level : MessageLevel) (text : String) :
      Commutes (Journal.mapIds ids) id (Journaled.log level text) (Journaled.log level text) :=
    .modify fun _ => rfl
  apply Commutes.bind (lifted table.validate)
  intro _
  apply Commutes.bind (Tracing.alone_mapIds (program.traceAll_mapIds roots))
  rintro ⟨_, context⟩
  have checked : (context.mapIds ids).finished.forM table.checkFunction =
      context.finished.forM table.checkFunction := table.forM_checkFunction_mapIds _
  dsimp only [Prod.map]
  rw [checked, context.module_mapIds]
  apply Commutes.bind (lifted _)
  intro _
  generalize context.module roots table config.naming = resolved
  have declarations : (resolved.mapIds ids).declarations.length = resolved.declarations.length :=
    List.length_map _
  have functions : (context.mapIds ids).finished.length = context.finished.length :=
    List.length_map _
  have entryPoints : (resolved.mapIds ids).entryPoints.length = resolved.entryPoints.length :=
    List.length_map _
  rw [declarations, functions, entryPoints]
  apply Commutes.bind (logged _ _)
  intro _
  have ended : Commutes (Journal.mapIds ids) (ResolvedModule.mapIds ids)
      (pure resolved : Journaled ResolvedModule) (pure (resolved.mapIds ids)) := .pure resolved
  exact .ite Iff.rfl (.bind (logged _ _) fun _ => ended) ended

/-! ## Other identities for the functions that take part -/

section

variable {program : Program} {roots : List ShaderFunction} {table : BindingTable}
  {config : ResolveConfig} {journal after : Journal} {resolved : ResolvedModule}
  {one two : FunctionId → FunctionId}

theorem Program.resolved_mapIds_congr
    (resolves : program.resolve roots table config journal = .ok resolved after)
    (agree : ∀ id ∈ program.involved roots journal, one id = two id) :
    resolved.mapIds one = resolved.mapIds two := by
  have declarations : resolved.declarations.map (mapNamedIds one) =
      resolved.declarations.map (mapNamedIds two) := by
    apply List.map_congr_left
    rintro ⟨declaration, identifier⟩ member
    cases declaration with
    | function id =>
        have listed : .function id ∈ resolved.declarations.map Prod.fst :=
          List.mem_map_of_mem member
        rcases List.mem_map.mp ((function_mem_declarations resolves id).mp listed) with
          ⟨recorded, finished, rfl⟩
        have same : one recorded.id = two recorded.id :=
          agree _ (mem_involved (function_of_attemptAll finished) List.mem_cons_self)
        rw [mapNamedIds, mapNamedIds, Declaration.mapIds, Declaration.mapIds, same]
    | type | constant | binding | helper => rfl
  have entryPoints : resolved.entryPoints.map (EntryPoint.mapIds one) =
      resolved.entryPoints.map (EntryPoint.mapIds two) := by
    apply List.map_congr_left
    intro entry member
    rcases resolve_eq_ok resolves with ⟨context, traced, _, _, rfl⟩
    rcases exists_root_of_entryPoint member with ⟨root, taken, function⟩
    have same : one entry.function = two entry.function := by
      rw [function]
      exact agree _ (mem_involved (List.mem_append_left _ taken) List.mem_cons_self)
    rw [EntryPoint.mapIds, EntryPoint.mapIds, same]
  rw [ResolvedModule.mapIds, ResolvedModule.mapIds, declarations, entryPoints]

/-- Modules do not depend on identities. If functions get other identities that keep those that
take part apart, then resolving fails with the same failure, or it gives a module with the same
text, constants, buffers and identifiers, with the same names and stages of entry points, and with
the same declarations in the same order but for the identities. The notes and messages are the
same too. -/
theorem Program.resolve_identities (program : Program) (roots : List ShaderFunction)
    (table : BindingTable) (config : ResolveConfig) (journal : Journal)
    (rename : FunctionId → FunctionId)
    (apart : Set.InjOn rename {id | id ∈ program.involved roots journal}) :
    let renamed := (program.mapIds rename).resolve (roots.map (ShaderFunction.mapIds rename))
      table config (journal.mapIds rename)
    (∀ error after, program.resolve roots table config journal = .error error after →
      ∃ later, renamed = .error error later ∧ later.notes = after.notes ∧
        later.messages = after.messages) ∧
    ∀ resolved after, program.resolve roots table config journal = .ok resolved after →
      ∃ again later, renamed = .ok again later ∧ later.notes = after.notes ∧
        later.messages = after.messages ∧ again.code = resolved.code ∧
        again.constants = resolved.constants ∧ again.bindings = resolved.bindings ∧
        again.declarations = resolved.declarations.map (fun (declaration, identifier) =>
          (declaration.mapIds rename, identifier)) ∧
        again.entryPoints = resolved.entryPoints.map (fun entry =>
          ⟨entry.name, entry.stage, rename entry.function⟩) := by
  intro renamed
  let ids := FunctionIdMap.extending (program.involved roots journal) rename apart
  have agree : ∀ id ∈ program.involved roots journal, rename id = ids id :=
    fun id member => (FunctionIdMap.extending_apply apart member).symm
  have same : renamed = mapOutcome (Journal.mapIds ids) (ResolvedModule.mapIds ids)
      (program.resolve roots table config journal) := by
    rw [← program.resolve_mapIds roots table config journal]
    simp only [renamed, Program.mapIds_congr agree, Program.roots_mapIds_congr agree,
      Program.journal_mapIds_congr agree]
  constructor
  · intro error after resolves
    rw [resolves] at same
    exact ⟨_, same, rfl, rfl⟩
  · intro resolved after resolves
    have mapped := Program.resolved_mapIds_congr resolves agree
    rw [resolves, mapOutcome, ← mapped] at same
    exact ⟨_, _, same, rfl, rfl, rfl, rfl, rfl, rfl, rfl⟩

end

def exampleReversed (id : FunctionId) : FunctionId :=
  ⟨2 - id.number⟩

theorem resolve_identities_exampleShade :
    let program : Program := ⟨[exampleShade, exampleDimmed, exampleHalved]⟩
    ∃ (resolved again : ResolvedModule) (after later : Journal),
      program.resolve [exampleShade] ⟨[exampleScene]⟩ {} {} = .ok resolved after ∧
      (program.mapIds exampleReversed).resolve [exampleShade.mapIds exampleReversed]
        ⟨[exampleScene]⟩ {} {} = .ok again later ∧
      again.code = resolved.code ∧
      again.declarations.map Prod.fst =
        [.function ⟨0⟩, .function ⟨1⟩, .type exampleLamp, .type exampleScene.type, .constant 0,
          .binding ⟨0, 0⟩, .helper (.isCloseTo .f32), .function ⟨2⟩] := by
  intro program
  have apart : ∀ one ∈ program.involved [exampleShade] {},
      ∀ two ∈ program.involved [exampleShade] {},
        exampleReversed one = exampleReversed two → one = two := by decide +kernel
  have succeeds : (match program.resolve [exampleShade] ⟨[exampleScene]⟩ {} {} with
    | .ok resolved _ => resolved.declarations.map Prod.fst ==
        [.function ⟨2⟩, .function ⟨1⟩, .type exampleLamp, .type exampleScene.type, .constant 0,
          .binding ⟨0, 0⟩, .helper (.isCloseTo .f32), .function ⟨0⟩]
    | .error _ _ => false) = true := by decide +kernel
  rcases program.resolve_identities [exampleShade] ⟨[exampleScene]⟩ {} {} exampleReversed
    (fun one oneIn two twoIn same => apart one oneIn two twoIn same) with ⟨_, resolvesAgain⟩
  cases resolves : program.resolve [exampleShade] ⟨[exampleScene]⟩ {} {} with
  | error error after =>
      rw [resolves] at succeeds
      cases succeeds
  | ok resolved after =>
      rw [resolves] at succeeds
      rcases resolvesAgain resolved after resolves with
        ⟨again, later, ran, _, _, code, _, _, declarations, _⟩
      refine ⟨resolved, again, after, later, rfl, ran, code, ?_⟩
      have mapped : again.declarations.map Prod.fst =
          (resolved.declarations.map Prod.fst).map (Declaration.mapIds exampleReversed) := by
        rw [declarations, List.map_map, List.map_map]
        rfl
      rw [mapped, eq_of_beq succeeds]
      rfl

end ShaderKit
