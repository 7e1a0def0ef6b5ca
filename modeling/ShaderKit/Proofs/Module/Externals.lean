import Mathlib.Data.List.Find
import ShaderKit.Proofs.Module.Closed
import ShaderKit.Proofs.Recording.EntryPoints

/-!
# Names that stand for functions in raw texts

Resolving replaces the names that stand for functions in a raw text by the identifiers of these
functions. The parameters of a raw function are spelled as they are, because its text uses them,
so no registry keeps them apart from the identifiers of the module. A parameter with the identifier
of a function hides it in the text.
-/

namespace ShaderKit

open NameRegistry

/-! ## The spelling of identifiers -/

/-- The names that a registry hands out for a label: the sanitized label, alone or with a
number. -/
def NameRegistry.Derives (label name : String) : Prop :=
  name = Identifier.sanitize label ∨
    ∃ number, name = numbered (Identifier.sanitize label ++ "_") number

theorem NameRegistry.derives_nameFor (registry : NameRegistry) (label : String) :
    Derives label (registry.nameFor label) := by
  unfold nameFor
  dsimp only
  split
  next => exact .inr ⟨_, rfl⟩
  next => exact .inl rfl

/-- How the identifier of a declaration is spelled. It derives from the label, unless names are
compact and the declaration is no entry point. -/
def Declaration.Spells (context : TraceContext) (table : BindingTable) (naming : NamingStrategy)
    (declaration : Declaration) (identifier : String) : Prop :=
  if naming = .compact ∧ declaration.isEntryPoint context = false then
    ∃ number, identifier = numbered compactTag number
  else Derives (declaration.label context table) identifier

theorem NameRegistry.nameDeclarations_spells (registry : NameRegistry) (context : TraceContext)
    (table : BindingTable) (declarations : List Declaration) :
    ∀ entry ∈ (registry.nameDeclarations context table declarations).2,
      entry.1.Spells context table registry.strategy entry.2 := by
  induction declarations generalizing registry with
  | nil => nofun
  | cons declaration rest induction =>
      let label := declaration.label context table
      let handed := if declaration.isEntryPoint context then registry.makeUniqueLabel label
        else registry.makeUnique label
      have step : handed.1.strategy = registry.strategy ∧
          declaration.Spells context table registry.strategy handed.2 := by
        unfold handed Declaration.Spells makeUnique
        cases declaration.isEntryPoint context with
        | true => simp [makeUniqueLabel, use, derives_nameFor, label]
        | false =>
            cases naming : registry.strategy with
            | strict => simp [makeUniqueLabel, use, derives_nameFor, label, naming]
            | compact => simp [makeCompact, use, naming]
      have ⟨kept, spells⟩ := step
      have later := induction handed.1
      rw [kept] at later
      intro entry member
      cases member with
      | head => exact spells
      | tail _ member => exact later entry member

/-! ## Replacements -/

/-- The function that a name stands for in a raw text. If several are declared under the name,
that is the last of them. -/
def external? (references : List (String × FunctionId)) (word : String) : Option FunctionId :=
  (references.reverse.find? fun reference => reference.1 == word).map Prod.snd

theorem mem_of_external? {references : List (String × FunctionId)} {word : String}
    {id : FunctionId} (found : external? references word = some id) :
    (word, id) ∈ references := by
  have ⟨reference, known, same⟩ := Option.map_eq_some_iff.mp found
  have named := List.find?_some known
  have member := List.mem_reverse.mp (List.mem_of_find?_eq_some known)
  rw [← eq_of_beq named, ← same]
  exact member

theorem RecordedFunction.replacementOf_replacements {function : ShaderFunction}
    {names : ModuleNames} {text : String} {references : List (String × FunctionId)}
    (raw : function.implementation = .raw text references)
    (named : ∀ reference ∈ references, (names.find? (.function reference.2)).isSome)
    (word : String) :
    Text.replacementOf (replacements function names) word =
      (external? references word).bind fun id => names.find? (.function id) := by
  have replaced : replacements function names = references.filterMap fun reference =>
      (names.find? (.function reference.2)).map fun identifier => (reference.1, identifier) := by
    rw [replacements, raw]
    rfl
  have same : ∀ reference ∈ references.reverse,
      (((names.find? (.function reference.2)).map fun identifier =>
        (reference.1, identifier)).any fun pair => pair.1 == word) = (reference.1 == word) := by
    -- since every function has an identifier, no earlier reference takes the place of the last
    intro reference member
    have ⟨identifier, found⟩ := Option.isSome_iff_exists.mp
      (named reference (List.mem_reverse.mp member))
    rw [found]
    rfl
  rw [Text.replacementOf, replaced, ← List.filterMap_reverse, List.find?_filterMap,
    List.find?_congr same, external?]
  cases references.reverse.find? fun reference => reference.1 == word with
  | none => rfl
  | some reference => simp [Function.comp_def]

/-! ## What words mean -/

/-- What a word can mean in the body of a function, besides what the body declares itself. -/
inductive WordMeaning where
  | parameter
  | declared (declaration : Declaration)
deriving DecidableEq, Repr

/-- The meaning of a word in the body of a function with the given parameters. A parameter hides
what the module declares under its name. -/
def ResolvedModule.meaning? (resolved : ResolvedModule) (parameters : List String)
    (word : String) : Option WordMeaning :=
  if word ∈ parameters then some .parameter
  else (resolved.declarations.find? fun entry => entry.2 == word).map fun entry =>
    .declared entry.1

/-- An identifier of the module means its declaration unless a parameter hides it. -/
theorem ResolvedModule.meaning?_eq_declared_iff {resolved : ResolvedModule}
    {parameters : List String} {declaration : Declaration} {identifier : String}
    (different : (resolved.declarations.map Prod.snd).Nodup)
    (member : (declaration, identifier) ∈ resolved.declarations) :
    resolved.meaning? parameters identifier = some (.declared declaration) ↔
      identifier ∉ parameters := by
  unfold meaning?
  split
  next hidden => simp [hidden]
  next visible =>
    have known : (resolved.declarations.find? fun entry => entry.2 == identifier).isSome :=
      List.find?_isSome.mpr ⟨_, member, beq_self_eq_true identifier⟩
    have ⟨entry, found⟩ := Option.isSome_iff_exists.mp known
    have matching := List.find?_some found
    have named : entry.2 = identifier := eq_of_beq matching
    have only := List.inj_on_of_nodup_map different (List.mem_of_find?_eq_some found) member named
    simp [found, only, visible]

/-! ## Modules -/

section

variable {context : TraceContext} {table : BindingTable} {named : List (Declaration × String)}
  {position : Nat} {recorded : RecordedFunction} {identifier text : String}
  {references : List (String × FunctionId)}

/-- In a module that is in the order of its needs, every name that stands for a function has a
replacement. -/
theorem Collected.replacementOf_replacements
    (collected : Collected context table (named.map Prod.fst))
    (here : named[position]? = some (.function recorded.id, identifier))
    (found : context.find? recorded.id = some recorded)
    (raw : recorded.function.implementation = .raw text references) (word : String) :
    Text.replacementOf (RecordedFunction.replacements recorded.function
        (ModuleNames.ofDeclarations named)) word =
      (external? references word).bind fun id =>
        (ModuleNames.ofDeclarations named).find? (.function id) := by
  apply RecordedFunction.replacementOf_replacements raw
  intro reference member
  obtain ⟨earlier, substitute, _, _, known⟩ :=
    collected.named_earlier here (.function found (.named raw member))
  exact Option.isSome_iff_exists.mpr ⟨substitute, known⟩

/-- The replacement is the identifier of the function, which is declared at an earlier position. -/
theorem Collected.exists_substitute (collected : Collected context table (named.map Prod.fst))
    (here : named[position]? = some (.function recorded.id, identifier))
    (found : context.find? recorded.id = some recorded)
    (raw : recorded.function.implementation = .raw text references) {word : String}
    {id : FunctionId} (known : external? references word = some id) :
    ∃ (earlier : Nat) (substitute : String), earlier < position ∧
      named[earlier]? = some (.function id, substitute) ∧
      Text.replacementOf (RecordedFunction.replacements recorded.function
        (ModuleNames.ofDeclarations named)) word = some substitute := by
  have refers := mem_of_external? known
  obtain ⟨earlier, substitute, precedes, there, spelled⟩ :=
    collected.named_earlier here (.function found (.named raw refers))
  refine ⟨earlier, substitute, precedes, there, ?_⟩
  rw [collected.replacementOf_replacements here found raw, known, Option.bind_some, spelled]

end

theorem Program.Makes.body_of_raw {program : Program} {function : ShaderFunction}
    {recorded : RecordedFunction} {text : String} {references : List (String × FunctionId)}
    (makes : program.Makes function recorded)
    (raw : function.implementation = .raw text references) : recorded.body = .raw text := by
  have ⟨depth, start, finish, ran⟩ := makes
  rw [Tracing.record_of_raw raw] at ran
  have ⟨callees, _, _, ended⟩ := bind_ran_ok.mp ran
  cases ended
  rfl

theorem TraceContext.module_identifiers_nodup (context : TraceContext)
    (roots : List ShaderFunction) (table : BindingTable) (naming : NamingStrategy) :
    ((context.module roots table naming).declarations.map Prod.snd).Nodup :=
  List.nodup_reverse.mp ((NameRegistry.new naming).nameDeclarations_handsAll context table
    (context.declarations table)).nodup

theorem TraceContext.module_spells (context : TraceContext) (roots : List ShaderFunction)
    (table : BindingTable) (naming : NamingStrategy) :
    ∀ entry ∈ (context.module roots table naming).declarations,
      entry.1.Spells context table naming entry.2 :=
  (NameRegistry.new naming).nameDeclarations_spells context table (context.declarations table)

/-- What stands in a module for the names in a raw text. Every name that stands for a function is
replaced by the identifier of that function, which is declared before the text, and every other
word stays as it is. The identifier means the function in the text exactly if no parameter has it
for a name. Under strict naming, and for an entry point, it is the sanitized label of the function,
alone or with a number; other compact identifiers are numbered. -/
theorem Program.resolve_externals {program : Program} {roots : List ShaderFunction}
    {table : BindingTable} {config : ResolveConfig} {journal after : Journal}
    {resolved : ResolvedModule}
    (resolves : program.resolve roots table config journal = .ok resolved after) :
    ∃ context traced registry,
      (program.traceAll roots).alone journal = .ok ((), context) traced ∧
      let names := ModuleNames.ofDeclarations resolved.declarations
      resolved.code = context.moduleText table names registry resolved.declarations ∧
      ∀ recorded ∈ context.finished, ∀ text references,
        recorded.function.implementation = .raw text references →
          let parameters := recorded.signature.parameters.map Parameter.name
          let replaced := Text.replacementOf (RecordedFunction.replacements recorded.function names)
          ∃ (position : Nat) (identifier : String),
            resolved.declarations[position]? = some (.function recorded.id, identifier) ∧
            (Declaration.function recorded.id).text context table names registry identifier =
              some (recorded.rawText identifier names text) ∧
            (∀ word, external? references word = none → replaced word = none) ∧
            ∀ word id, external? references word = some id →
              ∃ (earlier : Nat) (substitute : String), earlier < position ∧
                resolved.declarations[earlier]? = some (.function id, substitute) ∧
                replaced word = some substitute ∧
                (resolved.meaning? parameters substitute = some (.declared (.function id)) ↔
                  substitute ∉ parameters) ∧
                (Declaration.function id).Spells context table config.naming substitute := by
  obtain ⟨context, traced, ran, reached, rfl, ordered, collected, functions⟩ :=
    Program.resolve_collected resolves
  refine ⟨context, traced, (context.named table config.naming).1, ran, rfl, ?_⟩
  intro recorded member text references raw parameters replaced
  have found := ordered.find?_of_mem member
  have makes : program.Makes recorded.function recorded :=
    Program.makes_of_attemptAll (reached.symm ▸ member)
  obtain ⟨⟨_, identifier⟩, listed, own⟩ := List.mem_map.mp (functions recorded member)
  cases own
  obtain ⟨position, here⟩ := List.getElem?_of_mem listed
  refine ⟨position, identifier, here, ?_, ?_, ?_⟩
  · simp only [Declaration.text, found, Option.map_some, RecordedFunction.moduleText,
      makes.body_of_raw raw]
  · intro word unknown
    have substituted := collected.replacementOf_replacements here found raw word
    rw [unknown, Option.bind_none] at substituted
    exact substituted
  · intro word id known
    obtain ⟨earlier, substitute, precedes, there, substituted⟩ :=
      collected.exists_substitute here found raw known
    have declared := List.mem_of_getElem? there
    have different := context.module_identifiers_nodup roots table config.naming
    exact ⟨earlier, substitute, precedes, there, substituted,
      ResolvedModule.meaning?_eq_declared_iff different declared,
      context.module_spells roots table config.naming _ declared⟩

def exampleScaled : ShaderFunction where
  id := ⟨2⟩
  signature := ⟨"scaled", [⟨"half", .f32⟩], some .f32, none⟩
  implementation := .raw "\x7b return h(half) + d(half); \x7d" [("h", ⟨0⟩), ("d", ⟨1⟩)]

def exampleScaling : Program where
  functions := [
    { id := ⟨0⟩
      signature := ⟨"half", [⟨"number", .f32⟩], some .f32, none⟩
      implementation := .raw "\x7b return 0.5 * number; \x7d" [] },
    { id := ⟨1⟩
      signature := ⟨"double", [⟨"number", .f32⟩], some .f32, none⟩
      implementation := .raw "\x7b return 2.0 * number; \x7d" [] },
    exampleScaled]

theorem resolve_exampleScaling : ∃ resolved after,
    exampleScaling.resolve [exampleScaled] {} {} {} = .ok resolved after ∧
      resolved.declarations =
        [(.function ⟨0⟩, "half"), (.function ⟨1⟩, "double"), (.function ⟨2⟩, "scaled")] := by
  have succeeds : (match exampleScaling.resolve [exampleScaled] {} {} {} with
    | .ok resolved _ => resolved.declarations ==
        [(.function ⟨0⟩, "half"), (.function ⟨1⟩, "double"), (.function ⟨2⟩, "scaled")]
    | .error _ _ => false) = true := by decide +kernel
  cases resolves : exampleScaling.resolve [exampleScaled] {} {} {} with
  | ok resolved after =>
      rw [resolves] at succeeds
      exact ⟨resolved, after, rfl, eq_of_beq succeeds⟩
  | error error after =>
      rw [resolves] at succeeds
      cases succeeds

/-- The name for `double` means it, and the name for `half` does not: the parameter hides it. -/
theorem resolve_externals_exampleScaled : ∃ resolved after,
    exampleScaling.resolve [exampleScaled] {} {} {} = .ok resolved after ∧
      let replaced := Text.replacementOf (RecordedFunction.replacements exampleScaled
        (ModuleNames.ofDeclarations resolved.declarations))
      replaced "d" = some "double" ∧
      resolved.meaning? ["half"] "double" = some (.declared (.function ⟨1⟩)) ∧
      replaced "h" = some "half" ∧
      resolved.meaning? ["half"] "half" ≠ some (.declared (.function ⟨0⟩)) := by
  have ⟨resolved, after, resolves, listed⟩ := resolve_exampleScaling
  have ⟨context, traced, registry, ran, _, externals⟩ := Program.resolve_externals resolves
  have reached := Program.context_of_traceAll ran
  have inside : ⟨2⟩ ∈ context.order :=
    reached ▸ (Program.function_mem_declarations resolves ⟨2⟩).mp (by simp [listed])
  have sound : context.Sound exampleScaling :=
    reached ▸ Program.attemptAll_sound (by simp; rfl)
      (TraceContext.sound_empty exampleScaling)
  have ⟨recorded, found⟩ := Option.isSome_iff_exists.mp (TraceContext.mem_order_iff.mp inside)
  have same : exampleScaled = recorded.function := Option.some.inj (sound.finished _ _ found).1
  have ⟨member, _⟩ := TraceContext.find?_mem found
  have raw : recorded.function.implementation = exampleScaled.implementation := by rw [same]
  have ⟨_, _, _, _, _, substituted⟩ := externals recorded member _ _ raw
  simp only [RecordedFunction.signature, ← same] at substituted
  have ⟨_, double, _, doubleAt, doubleFor, doubleMeans, _⟩ := substituted "d" ⟨1⟩ rfl
  have ⟨_, half, _, halfAt, halfFor, halfMeans, _⟩ := substituted "h" ⟨0⟩ rfl
  have doubleNamed : double = "double" := by
    simpa [listed] using List.mem_of_getElem? doubleAt
  have halfNamed : half = "half" := by
    simpa [listed] using List.mem_of_getElem? halfAt
  rw [doubleNamed] at doubleFor doubleMeans
  rw [halfNamed] at halfFor halfMeans
  refine ⟨resolved, after, resolves, doubleFor, doubleMeans.mpr (by decide), halfFor, ?_⟩
  intro means
  exact halfMeans.mp means List.mem_cons_self

/-- The name that stands for `half` is replaced by the name of the parameter. -/
theorem resolve_exampleScaled_captured : ¬ ∀ (resolved : ResolvedModule) (after : Journal),
    exampleScaling.resolve [exampleScaled] {} {} {} = .ok resolved after →
      ∀ word substitute,
        Text.replacementOf (RecordedFunction.replacements exampleScaled
          (ModuleNames.ofDeclarations resolved.declarations)) word = some substitute →
        substitute ∉ exampleScaled.signature.parameters.map Parameter.name := by
  intro free
  have ⟨resolved, after, resolves, listed⟩ := resolve_exampleScaling
  refine free resolved after resolves "h" "half" ?_ List.mem_cons_self
  rw [listed]
  rfl

end ShaderKit
