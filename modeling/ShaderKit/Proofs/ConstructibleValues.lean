import ShaderKit.Proofs.AccessRights
import ShaderKit.Proofs.Recording.Entries

/-!
# Values that can be constructed

Everything that a script makes can be constructed, and so can every result. A signature only asks
of a parameter that its type has a size, so a parameter may hold what no value should: such a
parameter and its parts are the only values of a recording that cannot be constructed.
-/

namespace ShaderKit

/-- All values of a recording are of types that can be constructed. -/
def RecordedFunction.Constructible (recorded : RecordedFunction) : Prop :=
  ∀ entry ∈ recorded.expressions, entry.reference = none → entry.type.isConstructible = true

/-- A chain of parts leads from a node to a parameter of a type that cannot be constructed. -/
def RecordedFunction.TakenFromOpaque (recorded : RecordedFunction) (node : Node) : Prop :=
  ∃ root index parameter, recorded.Root node root ∧ root.expression = .parameter index ∧
    recorded.signature.parameters[index]? = some parameter ∧ root.type = parameter.type ∧
      parameter.type.isConstructible = false

/-! ## Single values -/

/-- A value can be constructed, or it is a parameter, or it is a part that can be constructed if
its whole can. -/
theorem Inventory.Types.constructible_cases {inventory : Inventory} {earlier : Recorder}
    {expression : Expression} {type : TypeDescriptor}
    (types : inventory.Types expression type none)
    (admitted : earlier.Admits expression type none)
    (results : ∀ callee recorded, inventory.context.find? callee = some recorded →
      ∀ result, recorded.signature.result = some result → result.isConstructible = true) :
    type.isConstructible = true ∨
      (∃ index parameter, expression = .parameter index ∧
        inventory.function.signature.parameters[index]? = some parameter ∧
          type = parameter.type) ∨
      ∃ base whole, expression.base? = some base ∧ inventory.ValueAt base whole ∧
        (whole.isConstructible = true → type.isConstructible = true) := by
  cases types with
  | parameter declared => exact .inr (.inl ⟨_, _, rfl, declared, rfl⟩)
  | constant => exact .inl admitted.1
  | load | compose | zero | arrayLength | standard => exact .inl admitted
  | unary _ accepted => exact .inl (UnaryOperator.isConstructible_of_resultType accepted)
  | binary _ _ accepted => exact .inl (BinaryOperator.isConstructible_of_resultType accepted)
  | call finished _ result => exact .inl (results _ _ finished _ result)
  | convert _ convertible =>
      exact .inl (Recording.isConstructible_of_convertible convertible)
  | literal | component | swizzle | helper => exact .inl rfl
  | member baseAt declared =>
      exact .inr (.inr ⟨_, _, rfl, baseAt, TypeDescriptor.isConstructible_of_member declared⟩)
  | index baseAt _ _ indexed =>
      exact .inr (.inr ⟨_, _, rfl, baseAt, TypeDescriptor.isConstructible_of_indexing indexed⟩)

theorem Inventory.Types.reference_of_localVariable {inventory : Inventory} {number : Nat}
    {type : TypeDescriptor} {reference : Option Reference}
    (types : inventory.Types (.localVariable number) type reference) : reference.isSome = true := by
  cases types
  rfl

namespace RecordedFunction

variable {program : Program} {function : ShaderFunction} {recorded : RecordedFunction}
  {context : TraceContext}

/-- A value can be constructed unless a chain of parts leads to a parameter that cannot, because
a part comes after its whole. -/
theorem Sound.constructible_or_taken (sound : recorded.Sound context)
    (makes : program.Makes function recorded)
    (results : ∀ callee recorded, context.find? callee = some recorded →
      ∀ result, recorded.signature.result = some result → result.isConstructible = true)
    {node : Node} {entry : ExpressionEntry} (found : recorded.entry? node = some entry)
    (value : entry.reference = none) :
    entry.type.isConstructible = true ∨ recorded.TakenFromOpaque node := by
  have typed := sound.entries node.index entry found
  have types := typed.types
  have examined := makes.examined entry (Array.mem_of_getElem? found)
  rw [value] at types examined
  rcases examined with ⟨number, own⟩ | ⟨earlier, _, admitted⟩
  · rw [own] at types
    cases types.reference_of_localVariable
  rcases types.constructible_cases admitted results with
    constructible | ⟨index, parameter, own, declared, same⟩ |
      ⟨base, whole, part, ⟨holder, foundBase, rfl, baseValue⟩, inherits⟩
  · exact .inl constructible
  · cases constructible : parameter.type.isConstructible with
    | true => exact .inl (same ▸ constructible)
    | false =>
        exact .inr ⟨entry, index, parameter, .whole found (own ▸ rfl), own, declared, same,
          constructible⟩
  · have earlier : base.index < node.index :=
      typed.earlier base (Expression.mem_operands_of_base? part)
    rcases sound.constructible_or_taken makes results foundBase baseValue with
      constructible | ⟨root, index, parameter, chain, rest⟩
    · exact .inl (inherits constructible)
    · exact .inr ⟨root, index, parameter, .part found part chain, rest⟩
termination_by node.index

end RecordedFunction

/-! ## Parameters -/

theorem Tracing.mem_of_addParameters {around : Surroundings} {parameters : List Parameter}
    {index : Nat} {start finish : Recorder}
    (ran : addParameters around.function index parameters start = .ok () finish) :
    ∀ parameter ∈ parameters, ∃ entry ∈ finish.expressions,
      entry.type = parameter.type ∧ entry.reference = none := by
  induction parameters generalizing index start with
  | nil => nofun
  | cons first rest induction =>
      rcases bind_ran_ok.mp ran with ⟨node, added, adds, others⟩
      rcases bind_ran_ok.mp others with ⟨_, assigned, assigns, others⟩
      intro parameter member
      rcases List.mem_cons.mp member with rfl | later
      · have assignment : Recording.Follows around (Recording.assign (.ofParameter index) node)
            added := Recording.assign_follows _ node
        have becomes := (assignment.becomes_of_ok assigns).trans
          (addParameters_follows.becomes_of_ok others)
        cases (Recording.addExpression_eq _ _ _ _ _).symm.trans adds
        have placed := Recorder.expressions_withExpression start around.function
          (.parameter index) parameter.type none
        refine ⟨start.nextEntry (.parameter index) parameter.type none, ?_, rfl, rfl⟩
        apply Array.mem_of_getElem? (becomes.preserves.expressions start.expressions.size _ ?_)
        rw [placed, Array.getElem?_push_size]
      · exact induction others parameter later

theorem Program.Makes.parameter_mem {program : Program} {function : ShaderFunction}
    {recorded : RecordedFunction} (makes : program.Makes function recorded)
    {body : Script} {result : Option Operand}
    (scripted : function.implementation = .script body result) :
    ∀ parameter ∈ recorded.signature.parameters, ∃ entry ∈ recorded.expressions,
      entry.type = parameter.type ∧ entry.reference = none := by
  rcases makes.cases with ⟨_, _, _, raw, _⟩ | ⟨script, _, depth, _, final, _, worked⟩
  · cases scripted.symm.trans raw
  · rw [Tracing.scriptWork_recorded worked]
    let around : Surroundings := ⟨program, program.traceWithin depth, function⟩
    rcases bind_ran_ok.mp worked with ⟨_, begun, added, ran⟩
    rcases bind_ran_ok.mp ran with ⟨_, performed, performs, ran⟩
    rcases bind_ran_ok.mp ran with ⟨node, given, gives, finishes⟩
    have becomes : begun.Becomes around final :=
      ((script.perform_follows around begun).becomes_of_ok performs).trans
        (((Recording.operand?_follows around _).becomes_of_ok gives).trans
          ((Recording.finish_follows around node).becomes_of_ok finishes))
    intro parameter member
    rcases Tracing.mem_of_addParameters added parameter member with ⟨entry, inside, same⟩
    rcases Array.getElem?_of_mem inside with ⟨place, placed⟩
    exact ⟨entry, Array.mem_of_getElem? (becomes.preserves.expressions place entry placed), same⟩

/-! ## Finished recordings -/

/-- After any traces of functions whose signatures were accepted, every result can be
constructed, and so can every value unless it is taken from a parameter that cannot. All values
of a script can be constructed exactly when its parameters can. -/
theorem Program.attemptAll_constructibleValues {program : Program} {roots : List ShaderFunction}
    (known : ∀ root ∈ roots, program.find? root.id = some root)
    (accepted : ∀ function ∈ program.functions, function.signature.Accepted)
    (journal : Journal) :
    let context := (program.attemptAll roots { journal := journal }).context
    ∀ recorded ∈ context.finished,
      (∀ type, recorded.signature.result = some type → type.isConstructible = true) ∧
      (∀ node entry, recorded.entry? node = some entry → entry.reference = none →
        entry.type.isConstructible = true ∨ recorded.TakenFromOpaque node) ∧
      ∀ body result, recorded.function.implementation = .script body result →
        (recorded.Constructible ↔
          ∀ parameter ∈ recorded.signature.parameters, parameter.type.isConstructible = true) := by
  intro context recorded member
  have contextSound : context.Sound program :=
    Program.attemptAll_sound known (TraceContext.sound_empty program)
  have ordered : context.Ordered := program.attemptAll_ordered roots TraceContext.ordered_empty
  have results (callee : FunctionId) (recorded : RecordedFunction)
      (finished : context.find? callee = some recorded) :
      ∀ type, recorded.signature.result = some type → type.isConstructible = true :=
    (accepted _ (List.mem_of_find?_eq_some (contextSound.finished callee recorded finished).1)
      ).returns
  have makes : program.Makes recorded.function recorded := makes_of_attemptAll member
  have sound : recorded.Sound context := sound_of_attemptAll known member
  refine ⟨results recorded.id recorded (ordered.find?_of_mem member), ?_, ?_⟩
  · intro node entry found value
    exact sound.constructible_or_taken makes results found value
  · intro body result scripted
    constructor
    · intro constructible parameter declared
      rcases makes.parameter_mem scripted parameter declared with ⟨entry, inside, same, value⟩
      exact same ▸ constructible entry inside value
    · intro parameters entry inside value
      rcases Array.getElem?_of_mem inside with ⟨place, placed⟩
      have found : recorded.entry? ⟨recorded.id, place⟩ = some entry := placed
      rcases sound.constructible_or_taken makes results found value with
        constructible | ⟨_, index, parameter, _, _, declared, _, unconstructible⟩
      · exact constructible
      · cases (parameters parameter (List.mem_of_getElem? declared)).symm.trans unconstructible

def examplePeek : ShaderFunction where
  id := ⟨0⟩
  signature := ⟨"peek", [⟨"counter", .atomic .u32⟩], none, none⟩
  implementation := .script .done none

/-- The signature is accepted, and the number becomes a value. -/
theorem attemptAll_examplePeek_atomic :
    let context := (Program.attemptAll ⟨[examplePeek]⟩ [examplePeek] {}).context
    examplePeek.signature.Accepted ∧
      ¬ ∀ recorded ∈ context.finished, recorded.Constructible := by
  intro context
  constructor
  · have valid : Identifier.isValid "counter" = true := by decide +kernel
    have built : Signature.plain "peek" [⟨"counter", .atomic .u32⟩] none =
        .ok examplePeek.signature := by
      rw [Signature.plain, Signature.checkParameters, valid]
      rfl
    exact .plain built
  · intro constructible
    let counter : ExpressionEntry := ⟨.parameter 0, .atomic .u32, none, 0⟩
    have entries : context.finished.map RecordedFunction.expressions = [#[counter]] := by
      decide +kernel
    rcases List.map_eq_singleton_iff.mp entries with ⟨recorded, finished, same⟩
    have member : recorded ∈ context.finished := finished ▸ List.mem_singleton_self _
    cases constructible recorded member counter (by simp [same]) rfl

def exampleTallyType : TypeDescriptor :=
  .struct (some "Tally") (.ofList [⟨"count", .atomic .u32, {}⟩, ⟨"limit", .u32, {}⟩])

def exampleTally : ShaderFunction where
  id := ⟨0⟩
  signature := ⟨"tally", [⟨"tallies", .array exampleTallyType (.fixed 4)⟩], some .u32, none⟩
  implementation := .script
    (.ofList [
      .index "tally" "$0" (.literal (.u32 1)),
      .member "count" "tally" "count",
      .member "limit" "tally" "limit"])
    (some (.register "limit"))

/-- The count is a part of a parameter through two steps, and it cannot be constructed. What is
given back can be. -/
theorem attemptAll_constructibleValues_exampleTally :
    let program : Program := ⟨[exampleTally]⟩
    let context := (program.attemptAll [exampleTally] {}).context
    (∀ root ∈ [exampleTally], program.find? root.id = some root) ∧
    (∀ function ∈ program.functions, function.signature.Accepted) ∧
    ∃ recorded ∈ context.finished, ¬ recorded.Constructible ∧
      recorded.TakenFromOpaque ⟨⟨0⟩, 3⟩ ∧
      ∀ type, recorded.signature.result = some type → type.isConstructible = true := by
  intro program context
  have known : ∀ root ∈ [exampleTally], program.find? root.id = some root := by
    intro root member
    rw [List.mem_singleton.mp member]
    rfl
  have accepted : ∀ function ∈ program.functions, function.signature.Accepted := by
    have valid : Identifier.isValid "tallies" = true := by decide +kernel
    intro function member
    rw [List.mem_singleton.mp member]
    have built : Signature.plain "tally" [⟨"tallies", .array exampleTallyType (.fixed 4)⟩]
        (some .u32) = .ok exampleTally.signature := by
      rw [Signature.plain, Signature.checkParameters, valid]
      rfl
    exact .plain built
  let tallies : ExpressionEntry :=
    ⟨.parameter 0, .array exampleTallyType (.fixed 4), none, 0⟩
  let one : ExpressionEntry := ⟨.literal (.u32 1), .u32, none, 0⟩
  let tally : ExpressionEntry := ⟨.index ⟨⟨0⟩, 0⟩ ⟨⟨0⟩, 1⟩, exampleTallyType, none, 1⟩
  let count : ExpressionEntry := ⟨.member ⟨⟨0⟩, 2⟩ 0, .atomic .u32, none, 1⟩
  let limit : ExpressionEntry := ⟨.member ⟨⟨0⟩, 2⟩ 1, .u32, none, 1⟩
  have entries : context.finished.map RecordedFunction.expressions =
      [#[tallies, one, tally, count, limit]] := by decide +kernel
  rcases List.map_eq_singleton_iff.mp entries with ⟨recorded, finished, same⟩
  have member : recorded ∈ context.finished := finished ▸ List.mem_singleton_self _
  have owner : recorded.function = exampleTally := by
    have functions : context.finished.map (fun recorded => recorded.function.id) = [⟨0⟩] := by
      decide +kernel
    rw [finished, List.map_singleton, List.singleton_inj] at functions
    have contextSound : context.Sound program :=
      Program.attemptAll_sound known (TraceContext.sound_empty program)
    have found : context.find? ⟨0⟩ = some recorded := by
      simp [TraceContext.find?, finished, RecordedFunction.id, functions]
    exact (Option.some.inj (contextSound.finished ⟨0⟩ recorded found).1).symm
  obtain ⟨results, values, exactly⟩ :=
    Program.attemptAll_constructibleValues known accepted {} recorded member
  refine ⟨known, accepted, recorded, member, ?_, ?_, results⟩
  · intro constructible
    have scripted := congrArg ShaderFunction.implementation owner
    have parameters := (exactly _ _ scripted).mp constructible
    rw [RecordedFunction.signature, owner] at parameters
    cases parameters _ List.mem_cons_self
  · have found : recorded.entry? ⟨⟨0⟩, 3⟩ = some count := by
      simp [RecordedFunction.entry?, same]
    rcases values _ count found rfl with impossible | taken
    · cases impossible
    · exact taken

end ShaderKit
