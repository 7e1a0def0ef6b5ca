import Mathlib.Data.List.Induction
import ShaderKit.Proofs.DefinedBeforeUse
import ShaderKit.Proofs.Module.Agreement
import ShaderKit.Proofs.Module.Identifiers

/-!
# Modules are closed

A module declares everything that its text names, each thing before the declarations that need
it, and has a name for it.
-/

namespace ShaderKit

/-! ## Names of declarations -/

namespace ModuleNames

theorem find?_add (names : ModuleNames) (declaration other : Declaration) (identifier : String) :
    (names.add declaration identifier).find? other =
      if declaration = other then some identifier else names.find? other := by
  cases declaration with
  | type | constant | binding | helper | function =>
      cases other with
      | type | constant | binding | helper | function =>
          simp only [add, find?, lookup?_cons, Declaration.type.injEq, Declaration.constant.injEq,
            Declaration.binding.injEq, Declaration.helper.injEq, Declaration.function.injEq,
            reduceCtorEq, if_false]

theorem find?_ofDeclarations {named : List (Declaration × String)} {declaration : Declaration}
    {identifier : String} (different : (named.map Prod.fst).Nodup)
    (member : (declaration, identifier) ∈ named) :
    (ofDeclarations named).find? declaration = some identifier := by
  induction named using List.reverseRecOn with
  | nil => cases member
  | append_singleton earlier last induction =>
      have added : ofDeclarations (earlier ++ [last]) =
          (ofDeclarations earlier).add last.1 last.2 :=
        List.foldl_concat _ _ _ _
      rw [List.map_append, List.nodup_append] at different
      rw [added, find?_add]
      rcases List.mem_append.mp member with old | new
      · have other : last.1 ≠ declaration := fun same =>
          different.2.2 declaration (List.mem_map_of_mem old) last.1 List.mem_cons_self same.symm
        rw [if_neg other]
        exact induction different.1 old
      · cases List.mem_singleton.mp new
        rw [if_pos rfl]

end ModuleNames

namespace Collected

variable {context : TraceContext} {table : BindingTable} {named : List (Declaration × String)}
  {position : Nat} {declaration needed : Declaration} {identifier : String}

/-- What a declaration needs has a name at an earlier position. -/
theorem named_earlier (collected : Collected context table (named.map Prod.fst))
    (found : named[position]? = some (declaration, identifier))
    (needs : declaration.Needs context table needed) :
    ∃ earlier name, earlier < position ∧ named[earlier]? = some (needed, name) ∧
      (ModuleNames.ofDeclarations named).find? needed = some name := by
  have placed : (named.map Prod.fst)[position]? = some declaration := by
    rw [List.getElem?_map, found]
    rfl
  have precedes := collected.inOrder.earlier declaration (List.mem_of_getElem? placed) needed needs
  rcases precedes.position collected.inOrder.nodup placed with ⟨earlier, below, there⟩
  rw [List.getElem?_map] at there
  rcases Option.map_eq_some_iff.mp there with ⟨⟨_, name⟩, foundEarlier, rfl⟩
  exact ⟨earlier, name, below, foundEarlier, ModuleNames.find?_ofDeclarations
    collected.inOrder.nodup (List.mem_of_getElem? foundEarlier)⟩

/-- A declaration has a text, and other names show in it only where the declaration needs them. -/
theorem named_text (collected : Collected context table (named.map Prod.fst))
    (found : named[position]? = some (declaration, identifier)) (names : ModuleNames)
    (registry : NameRegistry) :
    ∃ text, declaration.text context table names registry identifier = some text ∧
      ∀ others, declaration.Agree context table names others →
        declaration.text context table others registry identifier = some text := by
  have listed : declaration ∈ named.map Prod.fst :=
    List.mem_map_of_mem (List.mem_of_getElem? found)
  rcases (collected.known declaration listed).text registry identifier with ⟨text, written⟩
  exact ⟨text, written, fun others agree => (agree.text registry identifier).trans written⟩

end Collected

/-! ## Contexts of modules -/

theorem Program.attemptAll_of_traceAll {program : Program} {roots : List ShaderFunction}
    {session finish : Session} (ran : program.traceAll roots session = .ok () finish) :
    program.attemptAll roots session = finish := by
  induction roots generalizing session with
  | nil =>
      cases ran
      rfl
  | cons root rest induction =>
      rcases bind_ran_ok.mp ran with ⟨_, middle, first, later⟩
      have attempted : program.attempt session root = middle := by
        unfold attempt
        change EStateM.map (fun _ => ()) (program.trace root) session = .ok () middle at first
        unfold EStateM.map at first
        cases traced : program.trace root session with
        | ok recorded state =>
            rw [traced] at first
            cases first
            rfl
        | error error state =>
            rw [traced] at first
            cases first
      change program.attemptAll rest (program.attempt session root) = finish
      rw [attempted]
      exact induction later

theorem Program.context_of_traceAll {program : Program} {roots : List ShaderFunction}
    {journal traced : Journal} {context : TraceContext}
    (ran : (program.traceAll roots).alone journal = .ok ((), context) traced) :
    (program.attemptAll roots { journal := journal }).context = context := by
  rw [attemptAll_of_traceAll (Tracing.ran_of_alone ran)]

theorem passed_of_forM {ε α : Type} {check : α → Except ε Unit} {items : List α}
    (passed : items.forM check = .ok ()) : ∀ item ∈ items, check item = .ok () := by
  induction items with
  | nil => nofun
  | cons item rest induction =>
      rcases bind_eq_ok.mp passed with ⟨_, first, later⟩
      intro other member
      rcases List.mem_cons.mp member with rfl | member
      · exact first
      · exact induction later other member

theorem BindingTable.find?_of_checkFunction {table : BindingTable}
    {functions : List RecordedFunction} (checked : functions.forM table.checkFunction = .ok ()) :
    ∀ recorded ∈ functions, ∀ used ∈ recorded.bindings, (table.find? used.slot).isSome := by
  intro recorded member used use
  have passed := passed_of_forM (passed_of_forM checked recorded member) used use
  unfold checkUse at passed
  split at passed
  next => cases passed
  next declared found =>
    rw [found]
    rfl

/-- The members that the expressions of a function select have names. -/
def RecordedFunction.SelectsMembers (recorded : RecordedFunction) : Prop :=
  ∀ entry ∈ recorded.expressions, ∀ base position, entry.expression = .member base position →
    ∃ whole member, recorded.entry? base = some whole ∧
      whole.type.members.toList[position]? = some member

theorem RecordedFunction.Sound.selectsMembers {recorded : RecordedFunction}
    {context : TraceContext} (sound : recorded.Sound context) : recorded.SelectsMembers := by
  intro entry listed base position same
  rcases Array.getElem?_of_mem listed with ⟨index, found⟩
  have types := (sound.entries index entry found).types
  rw [same] at types
  generalize entry.type = type, entry.reference = reference at types
  cases types with
  | @member _ _ _ _ _ member baseAt declared =>
      rcases baseAt with ⟨whole, foundBase, rfl, _⟩
      exact ⟨whole, member, foundBase, (MemberList.toList_of_find? declared).1⟩

/-! ## Recordings -/

theorem Program.sound_of_attemptAll {program : Program} {roots : List ShaderFunction}
    {journal : Journal} {recorded : RecordedFunction}
    (known : ∀ root ∈ roots, program.find? root.id = some root)
    (member : recorded ∈ (program.attemptAll roots { journal := journal }).context.finished) :
    recorded.Sound (program.attemptAll roots { journal := journal }).context := by
  have ordered : (program.attemptAll roots { journal := journal }).context.Ordered :=
    program.attemptAll_ordered roots TraceContext.ordered_empty
  have sound : (program.attemptAll roots { journal := journal }).context.Sound program :=
    Program.attemptAll_sound known (TraceContext.sound_empty program)
  exact (sound.finished recorded.id recorded (ordered.find?_of_mem member)).2

/-! ## Modules -/

/-- What a module was resolved from, with what its declarations need. -/
theorem Program.resolve_collected {program : Program} {roots : List ShaderFunction}
    {table : BindingTable} {config : ResolveConfig} {journal after : Journal}
    {resolved : ResolvedModule}
    (resolves : program.resolve roots table config journal = .ok resolved after) :
    ∃ context traced, (program.traceAll roots).alone journal = .ok ((), context) traced ∧
      (program.attemptAll roots { journal := journal }).context = context ∧
      resolved = context.module roots table config.naming ∧ context.Ordered ∧
      Collected context table (resolved.declarations.map Prod.fst) ∧
      ∀ recorded ∈ context.finished,
        .function recorded.id ∈ resolved.declarations.map Prod.fst := by
  have ⟨context, traced, ran, checked, same⟩ := Program.resolve_eq_ok resolves
  have reached := Program.context_of_traceAll ran
  have ordered : context.Ordered :=
    reached ▸ program.attemptAll_ordered roots TraceContext.ordered_empty
  have ⟨collected, functions⟩ :=
    ordered.declarations_collected (BindingTable.find?_of_checkFunction checked)
  have listed : resolved.declarations.map Prod.fst = context.declarations table :=
    same ▸ (NameRegistry.new config.naming).nameDeclarations_map_fst context table _
  rw [← listed] at collected functions
  exact ⟨context, traced, ran, reached, same, ordered, collected, functions⟩

theorem Program.function_mem_declarations {program : Program} {roots : List ShaderFunction}
    {table : BindingTable} {config : ResolveConfig} {journal after : Journal}
    {resolved : ResolvedModule}
    (resolves : program.resolve roots table config journal = .ok resolved after)
    (id : FunctionId) : .function id ∈ resolved.declarations.map Prod.fst ↔
      id ∈ (program.attemptAll roots { journal := journal }).context.order := by
  have ⟨context, traced, _, reached, _, _, collected, functions⟩ :=
    Program.resolve_collected resolves
  rw [reached]
  constructor
  · intro listed
    exact TraceContext.mem_order_iff.mpr (collected.known _ listed)
  · intro member
    have ⟨recorded, finished, same⟩ := List.mem_map.mp member
    subst same
    exact functions recorded finished

/-- Modules are closed and in the order of their needs. No declaration stands twice; what a
declaration needs is declared at an earlier position and has a name; and the text of a declaration
is the same for all names that agree on what it needs, so it shows no replacement for a missing
name. Values are spelled with their types, and selected members with their names. -/
theorem Program.resolve_closed {program : Program} {roots : List ShaderFunction}
    {table : BindingTable} {config : ResolveConfig} {journal after : Journal}
    {resolved : ResolvedModule}
    (resolves : program.resolve roots table config journal = .ok resolved after) :
    (resolved.declarations.map Prod.fst).Nodup ∧
    ∃ context traced registry,
      (program.traceAll roots).alone journal = .ok ((), context) traced ∧
      let names := ModuleNames.ofDeclarations resolved.declarations
      resolved.code = context.moduleText table names registry resolved.declarations ∧
      (∀ id ∈ context.order, .function id ∈ resolved.declarations.map Prod.fst) ∧
      (∀ (position : Nat) declaration identifier,
        resolved.declarations[position]? = some (declaration, identifier) →
        (∀ needed, declaration.Needs context table needed →
          ∃ earlier name, earlier < position ∧
            resolved.declarations[earlier]? = some (needed, name) ∧
            names.find? needed = some name) ∧
        ∃ text, declaration.text context table names registry identifier = some text ∧
          ∀ others, declaration.Agree context table names others →
            declaration.text context table others registry identifier = some text) ∧
      ((∀ root ∈ roots, program.find? root.id = some root) →
        (∀ constant ∈ context.constants, HasType constant.type constant.value) ∧
        ∀ recorded ∈ context.finished, recorded.SelectsMembers) := by
  rcases Program.resolve_eq_ok resolves with ⟨context, traced, ran, checked, rfl⟩
  have reached := Program.context_of_traceAll ran
  have ordered : context.Ordered :=
    reached ▸ program.attemptAll_ordered roots TraceContext.ordered_empty
  rcases ordered.declarations_collected (BindingTable.find?_of_checkFunction checked) with
    ⟨collected, functions⟩
  have same : (context.module roots table config.naming).declarations.map Prod.fst =
      context.declarations table :=
    (NameRegistry.new config.naming).nameDeclarations_map_fst context table _
  rw [← same] at collected functions
  refine ⟨collected.inOrder.nodup, context, traced, (context.named table config.naming).1, ran, rfl,
    ?_, ?_, ?_⟩
  · intro id member
    rcases List.mem_map.mp member with ⟨recorded, finished, rfl⟩
    exact functions recorded finished
  · intro position declaration identifier found
    exact ⟨fun needed => collected.named_earlier found, collected.named_text found _ _⟩
  · intro known
    have sound : context.Sound program :=
      reached ▸ Program.attemptAll_sound known (TraceContext.sound_empty program)
    refine ⟨sound.constants, fun recorded member => ?_⟩
    exact (sound.finished recorded.id recorded (ordered.find?_of_mem member)).2.selectsMembers

def exampleLamp : TypeDescriptor :=
  .struct (some "Lamp") (.cons "power" .f32 {} .nil)

def exampleScene : BindingEntry :=
  ⟨⟨0, 0⟩, .struct (some "Scene") (.cons "lamp" exampleLamp {} .nil), .storage false, none⟩

def exampleDimmed : ShaderFunction where
  id := ⟨1⟩
  signature := ⟨"dimmed", [⟨"power", .f32⟩], some .f32, none⟩
  implementation := .raw "\x7b return 0.5 * halved(power); \x7d" [("halved", ⟨2⟩)]

def exampleHalved : ShaderFunction where
  id := ⟨2⟩
  signature := ⟨"half", [⟨"number", .f32⟩], some .f32, none⟩
  implementation := .raw "\x7b return 0.5 * number; \x7d" []

def exampleShade : ShaderFunction where
  id := ⟨0⟩
  signature := ⟨"shade", [], some .f32, none⟩
  implementation := .script
    (.ofList [
      .bind "scene" exampleScene,
      .member "lamp" "scene" "lamp",
      .member "power" "lamp" "power",
      .load "now" "power",
      .constant "full" none (.ok .f32) (.scalar (.f32 0x3f800000)),
      .closeTo "bright" (.register "now") (.register "full") (.literal (.f32 0x3f000000)),
      .call "dimmed" ⟨1⟩ [.register "now"]])
    (some (.register "dimmed"))

theorem resolve_closed_exampleShade :
    let program : Program := ⟨[exampleShade, exampleDimmed, exampleHalved]⟩
    ∃ resolved after,
      program.resolve [exampleShade] ⟨[exampleScene]⟩ {} {} = .ok resolved after ∧
      resolved.declarations.map Prod.fst =
        [.function ⟨2⟩, .function ⟨1⟩, .type exampleLamp, .type exampleScene.type, .constant 0,
          .binding ⟨0, 0⟩, .helper (.isCloseTo .f32), .function ⟨0⟩] ∧
      ∃ earlier name, earlier < 5 ∧
        resolved.declarations[earlier]? = some (.type exampleLamp, name) := by
  intro program
  have succeeds : (match program.resolve [exampleShade] ⟨[exampleScene]⟩ {} {} with
    | .ok resolved _ => resolved.declarations.map Prod.fst ==
        [.function ⟨2⟩, .function ⟨1⟩, .type exampleLamp, .type exampleScene.type, .constant 0,
          .binding ⟨0, 0⟩, .helper (.isCloseTo .f32), .function ⟨0⟩]
    | .error _ _ => false) = true := by decide +kernel
  cases resolves : program.resolve [exampleShade] ⟨[exampleScene]⟩ {} {} with
  | error error after =>
      rw [resolves] at succeeds
      cases succeeds
  | ok resolved after =>
      rw [resolves] at succeeds
      have listed := eq_of_beq succeeds
      refine ⟨resolved, after, rfl, listed, ?_⟩
      have placed : (resolved.declarations.map Prod.fst)[5]? = some (.binding ⟨0, 0⟩) := by
        rw [listed]
        rfl
      rw [List.getElem?_map] at placed
      rcases Option.map_eq_some_iff.mp placed with ⟨⟨_, identifier⟩, found, rfl⟩
      rcases Program.resolve_closed resolves with ⟨_, context, _, _, _, _, _, closed, _⟩
      have needs : Declaration.Needs context ⟨[exampleScene]⟩ (.binding ⟨0, 0⟩)
          (.type exampleLamp) :=
        .type (List.mem_singleton_self exampleScene.type) List.mem_cons_self
      rcases (closed 5 _ identifier found).1 _ needs with ⟨earlier, name, below, there, _⟩
      exact ⟨earlier, name, below, there⟩

end ShaderKit
