import ShaderKit.Proofs.Codec.Restoring
import ShaderKit.Proofs.Module.Closed
import ShaderKit.Proofs.Module.ConstantTexts
import ShaderKit.Proofs.Recording.Entries
import ShaderKit.Proofs.Recording.Keys
import ShaderKit.Proofs.RelatedLists

/-!
# Modules without half precision numbers

The types of the recordings, of the constants and of the binding table decide whether a module
begins with the directive for half precision numbers. They are enough for all that is declared:
other types are inside them, helpers are applied to entries, and scalars have the types of what
they are written for. Only the texts of functions that are given by a text are not looked at.
-/

namespace ShaderKit

/-! ## Types and values with half precision numbers -/

/-- A type with half precision numbers at some depth. -/
inductive TypeDescriptor.HasHalf : TypeDescriptor → Prop where
  | scalar : HasHalf (.scalar .f16)
  | vector (width : VectorWidth) : HasHalf (.vector .f16 width)
  | matrix (columns rows : VectorWidth) : HasHalf (.matrix .f16 columns rows)
  | atomic : HasHalf (.atomic .f16)
  | array {element : TypeDescriptor} {length : ArrayLength} (inner : element.HasHalf) :
      HasHalf (.array element length)
  | struct {label : Option String} {members : MemberList} {member : Member}
      (listed : member ∈ members.toList) (inner : member.type.HasHalf) :
      HasHalf (.struct label members)

/-- A value with half precision numbers at some depth. -/
inductive HostValue.HasHalf : HostValue → Prop where
  | scalar {value : Scalar} (half : value.kind = .f16) : HasHalf (.scalar value)
  | vector {components : Components} {component : Scalar} (listed : component ∈ components)
      (half : component.kind = .f16) : HasHalf (.vector components)
  | matrix {columns : List Components} {column : Components} {component : Scalar}
      (listed : column ∈ columns) (inside : component ∈ column) (half : component.kind = .f16) :
      HasHalf (.matrix columns)
  | array {elements : List HostValue} {element : HostValue} (listed : element ∈ elements)
      (inner : element.HasHalf) : HasHalf (.array elements)
  | struct {members : List (String × HostValue)} {member : String × HostValue}
      (listed : member ∈ members) (inner : member.2.HasHalf) : HasHalf (.struct members)

theorem TypeDescriptor.HasHalf.exists_nested {type : TypeDescriptor} (half : type.HasHalf) :
    ∃ inner ∈ type.nested, inner.scalarKind? = some .f16 := by
  induction half with
  | scalar | vector | matrix | atomic => exact ⟨_, List.mem_cons_self, rfl⟩
  | array _ induction =>
      have ⟨inner, inside, kind⟩ := induction
      exact ⟨inner, List.mem_cons_of_mem _ inside, kind⟩
  | struct listed _ induction =>
      have ⟨inner, inside, kind⟩ := induction
      have within := (MemberList.mem_nested _).mpr ⟨_, listed, inside⟩
      exact ⟨inner, List.mem_cons_of_mem _ within, kind⟩

/-- No half precision number of a type is overlooked. -/
theorem TypeDescriptor.HasHalf.usesHalf {type : TypeDescriptor} (half : type.HasHalf) :
    type.usesHalf = true := by
  have ⟨inner, inside, kind⟩ := half.exists_nested
  exact List.any_eq_true.mpr ⟨inner, inside, beq_iff_eq.mpr kind⟩

theorem MembersHaveTypes.exists_member : ∀ {members : MemberList}
    {values : List (String × HostValue)}, MembersHaveTypes members values →
      ∀ given ∈ values, ∃ member ∈ members.toList, HasType member.type given.2
  | .nil, values, typed => by
      rw [MembersHaveTypes] at typed
      subst typed
      nofun
  | .cons name type attributes rest, values, typed => by
      rw [MembersHaveTypes] at typed
      rcases typed with ⟨value, others, rfl, valueTyped, restTyped⟩
      intro given listed
      rcases List.mem_cons.mp listed with rfl | listed
      · exact ⟨⟨name, type, attributes⟩, List.mem_cons_self, valueTyped⟩
      · have ⟨member, inside, typed⟩ := restTyped.exists_member given listed
        exact ⟨member, List.mem_cons_of_mem _ inside, typed⟩

theorem HostValue.HasHalf.of_hasType {value : HostValue} (half : value.HasHalf) :
    ∀ {type : TypeDescriptor}, HasType type value → type.HasHalf := by
  induction half with
  | scalar half =>
      intro type typed
      cases type with
      | scalar kind =>
          rw [HasType, half] at typed
          exact typed ▸ .scalar
      | atomic kind =>
          rw [HasType, half] at typed
          exact typed ▸ .atomic
      | _ => cases typed
  | vector listed half =>
      intro type typed
      cases type with
      | vector kind width =>
          rw [HasType] at typed
          have same := typed.2 _ listed
          rw [half] at same
          exact same ▸ .vector width
      | _ => cases typed
  | matrix listed inside half =>
      intro type typed
      cases type with
      | matrix kind columns rows =>
          rw [HasType] at typed
          have same := (typed.2 _ listed).2 _ inside
          rw [half] at same
          exact same ▸ .matrix columns rows
      | _ => cases typed
  | array listed _ induction =>
      intro type typed
      cases type with
      | array element length =>
          rw [HasType] at typed
          exact .array (induction (typed.2 _ listed))
      | _ => cases typed
  | struct listed _ induction =>
      intro type typed
      cases type with
      | struct label members =>
          rw [HasType] at typed
          have ⟨member, inside, memberTyped⟩ := typed.exists_member _ listed
          exact .struct inside (induction memberTyped)
      | _ => cases typed

/-! ## Declarations with half precision numbers -/

/-- A declaration mentions half precision numbers: in the type of a member, in the type or the
value of a constant, in the type of a buffer, in the head of a helper or a function, in a
variable, or in an expression of a function. -/
inductive Declaration.MentionsHalf (context : TraceContext) (table : BindingTable) :
    Declaration → Prop where
  | member {label : Option String} {members : MemberList} {member : Member}
      (listed : member ∈ members.toList) (half : member.type.HasHalf) :
      MentionsHalf context table (.type (.struct label members))
  | constantType {number : Nat} {constant : ModuleConstant}
      (found : context.constant? number = some constant) (half : constant.type.HasHalf) :
      MentionsHalf context table (.constant number)
  | constantValue {number : Nat} {constant : ModuleConstant}
      (found : context.constant? number = some constant) (half : constant.value.HasHalf) :
      MentionsHalf context table (.constant number)
  | binding {slot : Slot} {entry : BindingEntry} (found : table.find? slot = some entry)
      (half : entry.type.HasHalf) : MentionsHalf context table (.binding slot)
  | helperParameter {helper : Helper} {type : TypeDescriptor}
      (listed : type ∈ helper.parameterTypes) (half : type.HasHalf) :
      MentionsHalf context table (.helper helper)
  | helperResult {helper : Helper} (half : helper.resultType.HasHalf) :
      MentionsHalf context table (.helper helper)
  | parameter {id : FunctionId} {recorded : RecordedFunction} {parameter : Parameter}
      (found : context.find? id = some recorded)
      (listed : parameter ∈ recorded.signature.parameters) (half : parameter.type.HasHalf) :
      MentionsHalf context table (.function id)
  | result {id : FunctionId} {recorded : RecordedFunction} {type : TypeDescriptor}
      (found : context.find? id = some recorded) (given : recorded.signature.result = some type)
      (half : type.HasHalf) : MentionsHalf context table (.function id)
  | localVariable {id : FunctionId} {recorded : RecordedFunction} {declared : LocalVariable}
      (found : context.find? id = some recorded) (listed : declared ∈ recorded.locals)
      (half : declared.type.HasHalf) : MentionsHalf context table (.function id)
  | expression {id : FunctionId} {recorded : RecordedFunction} {entry : ExpressionEntry}
      (found : context.find? id = some recorded) (listed : entry ∈ recorded.expressions)
      (half : entry.type.HasHalf) : MentionsHalf context table (.function id)
  | literal {id : FunctionId} {recorded : RecordedFunction} {entry : ExpressionEntry}
      {value : Scalar} (found : context.find? id = some recorded)
      (listed : entry ∈ recorded.expressions) (literal : entry.expression = .literal value)
      (half : value.kind = .f16) : MentionsHalf context table (.function id)

/-! ## What is written is typed -/

/-- The constants of a context and the literals and helpers of its recordings have the types that
the context knows of. -/
structure TraceContext.WrittenTyped (context : TraceContext) : Prop where
  constants : ∀ constant ∈ context.constants, HasType constant.type constant.value
  literals : ∀ recorded ∈ context.finished, ∀ entry ∈ recorded.expressions, ∀ value,
    entry.expression = .literal value → entry.type = .scalar value.kind
  helpers : ∀ recorded ∈ context.finished, ∀ helper ∈ recorded.helpers,
    ∀ type ∈ helper.parameterTypes, ∃ entry ∈ recorded.expressions, entry.type = type

theorem TraceContext.Keyed.hasType {context : TraceContext} (keyed : context.Keyed) :
    ∀ constant ∈ context.constants, HasType constant.type constant.value := by
  intro constant member
  have ⟨key, reads⟩ := exists_left_of_mem keyed.reads member
  rw [reads.type]
  exact hasType_of_decode reads.decoded

theorem Program.Makes.literal {program : Program} {function : ShaderFunction}
    {recorded : RecordedFunction} (makes : program.Makes function recorded)
    {entry : ExpressionEntry} (member : entry ∈ recorded.expressions) {value : Scalar}
    (literal : entry.expression = .literal value) : entry.type = .scalar value.kind := by
  rcases makes.examined entry member with ⟨number, own⟩ | ⟨earlier, _, admitted⟩
  · cases own.symm.trans literal
  · rw [literal] at admitted
    exact admitted

theorem Program.attemptAll_writtenTyped (program : Program) (functions : List ShaderFunction)
    (journal : Journal) :
    (program.attemptAll functions { journal := journal }).context.WrittenTyped := by
  have keyed : (program.attemptAll functions { journal := journal }).context.Keyed :=
    attemptAll_passes (TraceContext.keyed_passage program) (fun _ _ => trivial) _
      TraceContext.keyed_empty
  refine ⟨keyed.hasType, ?_, ?_⟩
  · intro recorded finished entry member value
    exact (makes_of_attemptAll finished).literal member
  · intro recorded finished
    exact (makes_of_attemptAll finished).helpersApplied

/-! ## Declarations without half precision numbers -/

/-- A context whose recordings and constants, and whose table, have no types with half precision
numbers. -/
structure TraceContext.HalfFree (context : TraceContext) (table : BindingTable) : Prop where
  functions : ∀ recorded ∈ context.finished, ∀ type ∈ recorded.mentionedTypes, ¬ type.HasHalf
  constants : ∀ constant ∈ context.constants, ¬ constant.type.HasHalf
  bindings : ∀ entry ∈ table.entries, ¬ entry.type.HasHalf

def WithoutHalf (context : TraceContext) (table : BindingTable) (known : List Declaration) :
    Prop :=
  ∀ declaration ∈ known, ¬ declaration.MentionsHalf context table

section

variable {context : TraceContext} {table : BindingTable} {known : List Declaration}

theorem TraceContext.halfFree_of_usesHalf (unused : context.usesHalf table = false) :
    context.HalfFree table := by
  unfold usesHalf at unused
  rw [Bool.or_eq_false_iff, Bool.or_eq_false_iff] at unused
  have ⟨⟨functions, constants⟩, bindings⟩ := unused
  refine ⟨fun recorded finished type mentioned half => ?_, fun constant member half => ?_,
    fun entry member half => ?_⟩
  · have all := List.any_eq_false.mp functions recorded finished
    exact all (List.any_eq_true.mpr ⟨type, mentioned, half.usesHalf⟩)
  · exact List.any_eq_false.mp constants constant member half.usesHalf
  · exact List.any_eq_false.mp bindings entry member half.usesHalf

theorem WithoutHalf.declare {declaration : Declaration} (without : WithoutHalf context table known)
    (plain : ¬ declaration.MentionsHalf context table) :
    WithoutHalf context table (declare known declaration) := by
  intro other member
  rcases mem_declare.mp member with old | rfl
  · exact without other old
  · exact plain

mutual
theorem TypeDescriptor.declare_withoutHalf : ∀ (type : TypeDescriptor) {known : List Declaration},
    ¬ type.HasHalf → WithoutHalf context table known →
      WithoutHalf context table (type.declare known)
  | .scalar _, _, _, without | .vector _ _, _, _, without
  | .matrix _ _ _, _, _, without | .atomic _, _, _, without => without
  | .array element _, _, plain, without =>
      element.declare_withoutHalf (fun half => plain (.array half)) without
  | .struct label members, known, plain, without => by
      rw [TypeDescriptor.declare]
      split
      next => exact without
      next =>
        have inner := members.declare_withoutHalf
          (fun member listed half => plain (.struct listed half)) without
        apply inner.declare
        rintro ⟨listed, half⟩
        exact plain (.struct listed half)

theorem MemberList.declare_withoutHalf : ∀ (members : MemberList) {known : List Declaration},
    (∀ member ∈ members.toList, ¬ member.type.HasHalf) → WithoutHalf context table known →
      WithoutHalf context table (members.declare known)
  | .nil, _, _, without => without
  | .cons name type attributes rest, _, plain, without => by
      have first := type.declare_withoutHalf (plain ⟨name, type, attributes⟩ List.mem_cons_self)
        without
      exact rest.declare_withoutHalf
        (fun member listed => plain member (List.mem_cons_of_mem _ listed)) first
end

theorem WithoutHalf.declareTypes {types : List TypeDescriptor}
    (without : WithoutHalf context table known) (plain : ∀ type ∈ types, ¬ type.HasHalf) :
    WithoutHalf context table (declareTypes known types) :=
  types.foldlRecOn TypeDescriptor.declare without fun _ without type member =>
    type.declare_withoutHalf (plain type member) without

end

namespace TraceContext.HalfFree

variable {context : TraceContext} {table : BindingTable} {known : List Declaration}
  {recorded : RecordedFunction}

theorem entry (free : context.HalfFree table) (finished : recorded ∈ context.finished)
    {entry : ExpressionEntry} (member : entry ∈ recorded.expressions) : ¬ entry.type.HasHalf :=
  free.functions recorded finished entry.type
    (RecordedFunction.mem_mentionedTypes.mpr (.inr (.inr (.inr ⟨entry, member, rfl⟩))))

theorem constant (free : context.HalfFree table) (typed : context.WrittenTyped) (number : Nat) :
    ¬ Declaration.MentionsHalf context table (.constant number) := by
  intro mentions
  cases mentions with
  | constantType found half => exact free.constants _ (List.mem_of_getElem? found) half
  | constantValue found half =>
      have member := List.mem_of_getElem? found
      exact free.constants _ member (half.of_hasType (typed.constants _ member))

theorem binding (free : context.HalfFree table) (slot : Slot) :
    ¬ Declaration.MentionsHalf context table (.binding slot) := by
  intro mentions
  cases mentions with
  | binding found half => exact free.bindings _ (List.mem_of_find?_eq_some found) half

theorem helperTypes (free : context.HalfFree table) (typed : context.WrittenTyped)
    (finished : recorded ∈ context.finished) {helper : Helper}
    (noted : helper ∈ recorded.helpers) : ∀ type ∈ helper.parameterTypes, ¬ type.HasHalf := by
  intro type listed
  have ⟨entry, member, same⟩ := typed.helpers recorded finished helper noted type listed
  exact same ▸ free.entry finished member

theorem function (free : context.HalfFree table) (typed : context.WrittenTyped)
    (id : FunctionId) : ¬ Declaration.MentionsHalf context table (.function id) := by
  intro mentions
  cases mentions with
  | parameter found listed half =>
      have mentioned := RecordedFunction.mem_mentionedTypes.mpr (.inl ⟨_, listed, rfl⟩)
      exact free.functions _ (find?_mem found).1 _ mentioned half
  | result found given half =>
      have mentioned := RecordedFunction.mem_mentionedTypes.mpr (.inr (.inl given))
      exact free.functions _ (find?_mem found).1 _ mentioned half
  | localVariable found listed half =>
      have mentioned :=
        RecordedFunction.mem_mentionedTypes.mpr (.inr (.inr (.inl ⟨_, listed, rfl⟩)))
      exact free.functions _ (find?_mem found).1 _ mentioned half
  | expression found listed half => exact free.entry (find?_mem found).1 listed half
  | @literal _ recorded entry value found listed literal half =>
      have finished := (find?_mem found).1
      apply free.entry finished listed
      rw [typed.literals recorded finished entry listed value literal, half]
      exact .scalar

theorem declareConstant (free : context.HalfFree table) (typed : context.WrittenTyped)
    (without : WithoutHalf context table known) (number : Nat) :
    WithoutHalf context table (context.declareConstant known number) := by
  apply (without.declareTypes _).declare (free.constant typed number)
  intro type listed
  have ⟨constant, found, same⟩ := List.mem_map.mp listed
  exact same ▸ free.constants constant (List.mem_of_getElem? (Option.mem_toList.mp found))

theorem declareBinding (free : context.HalfFree table)
    (without : WithoutHalf context table known) (used : BindingEntry) :
    WithoutHalf context table (table.declareBinding known used) := by
  apply (without.declareTypes _).declare (free.binding used.slot)
  intro type listed
  have ⟨entry, found, same⟩ := List.mem_map.mp listed
  exact same ▸ free.bindings entry (List.mem_of_find?_eq_some (Option.mem_toList.mp found))

theorem declareHelper (free : context.HalfFree table) (typed : context.WrittenTyped)
    (finished : recorded ∈ context.finished) (without : WithoutHalf context table known)
    {helper : Helper} (noted : helper ∈ recorded.helpers) :
    WithoutHalf context table (helper.declare known) := by
  have plain := free.helperTypes typed finished noted
  apply (without.declareTypes plain).declare
  intro mentions
  cases mentions with
  | helperParameter listed half => exact plain _ listed half
  | helperResult half =>
      -- helpers answer with truth values
      cases helper
      cases half

theorem declare (free : context.HalfFree table) (typed : context.WrittenTyped)
    (finished : recorded ∈ context.finished) (without : WithoutHalf context table known) :
    WithoutHalf context table (recorded.declare context table known) := by
  have types := without.declareTypes (free.functions recorded finished)
  have constants := recorded.constants.foldlRecOn context.declareConstant types
    fun _ without number _ => free.declareConstant typed without number
  have buffers := recorded.bindings.foldlRecOn table.declareBinding constants
    fun _ without used _ => free.declareBinding without used
  have helpers := recorded.helpers.foldlRecOn Helper.declare buffers
    fun _ without _ noted => free.declareHelper typed finished without noted
  exact helpers.declare (free.function typed recorded.id)

theorem declarations (free : context.HalfFree table) (typed : context.WrittenTyped) :
    WithoutHalf context table (context.declarations table) := by
  have empty : WithoutHalf context table [] := nofun
  exact context.finished.foldlRecOn (RecordedFunction.declare context table) empty
    fun _ without recorded finished => free.declare typed finished without

end TraceContext.HalfFree

/-! ## The directive -/

/-- The text of a module begins with the directive where it is needed. -/
theorem TraceContext.directive_of_usesHalf {context : TraceContext} {table : BindingTable}
    (uses : context.usesHalf table = true) (names : ModuleNames) (registry : NameRegistry)
    (named : List (Declaration × String)) :
    "enable f16;".toList <+: (context.moduleText table names registry named).toList := by
  unfold moduleText
  rw [if_pos uses, String.toList_intercalate, List.singleton_append, List.map_cons]
  generalize (named.filterMap _).map String.toList = sections
  cases sections with
  | nil =>
      rw [List.intercalate_singleton]
      exact ⟨['\n'], rfl⟩
  | cons first rest =>
      rw [List.intercalate_cons_cons]
      exact ⟨_, rfl⟩

/-- The directive is missing only where it is not needed. Let a module be resolved, and let its
text not begin with the directive. Then none of its declarations mentions half precision numbers:
not in a member of a structure, a constant or its value, a buffer, a helper, or the head, a
variable, a literal or another expression of a function. Texts that functions are given by are
not considered. -/
theorem Program.resolve_withoutHalf {program : Program} {roots : List ShaderFunction}
    {table : BindingTable} {config : ResolveConfig} {journal after : Journal}
    {resolved : ResolvedModule}
    (resolves : program.resolve roots table config journal = .ok resolved after)
    (unmarked : ¬ "enable f16;".toList <+: resolved.code.toList) :
    ∃ context traced, (program.traceAll roots).alone journal = .ok ((), context) traced ∧
      resolved = context.module roots table config.naming ∧
      ∀ declaration ∈ resolved.declarations.map Prod.fst,
        ¬ declaration.MentionsHalf context table := by
  have ⟨context, traced, ran, _, same⟩ := Program.resolve_eq_ok resolves
  refine ⟨context, traced, ran, same, ?_⟩
  have unused : context.usesHalf table = false := by
    rw [← Bool.not_eq_true]
    intro uses
    rw [same] at unmarked
    exact unmarked (context.directive_of_usesHalf uses _ _ _)
  have typed : context.WrittenTyped :=
    Program.context_of_traceAll ran ▸ program.attemptAll_writtenTyped roots journal
  have listed : resolved.declarations.map Prod.fst = context.declarations table :=
    same ▸ (NameRegistry.new config.naming).nameDeclarations_map_fst context table _
  rw [listed]
  exact (TraceContext.halfFree_of_usesHalf unused).declarations typed

def exampleGlow : ShaderFunction where
  id := ⟨0⟩
  signature := ⟨"glow", [⟨"lamp", exampleLamp⟩], some .f32, none⟩
  implementation := .script (.ofList [.member "power" "$0" "power"]) (some (.register "power"))

theorem resolve_withoutHalf_exampleGlow :
    ∃ resolved after,
      Program.resolve ⟨[exampleGlow]⟩ [exampleGlow] {} {} {} = .ok resolved after ∧
      ¬ "enable f16;".toList <+: resolved.code.toList ∧
      ∃ context traced,
        (Program.traceAll ⟨[exampleGlow]⟩ [exampleGlow]).alone {} = .ok ((), context) traced ∧
        ∀ declaration ∈ [.type exampleLamp, .function ⟨0⟩],
          ¬ Declaration.MentionsHalf context {} declaration := by
  have succeeds : (match Program.resolve ⟨[exampleGlow]⟩ [exampleGlow] {} {} {} with
    | .ok resolved _ => !"enable f16;".toList.isPrefixOf resolved.code.toList &&
        resolved.declarations.map Prod.fst == [.type exampleLamp, .function ⟨0⟩]
    | .error _ _ => false) = true := by decide +kernel
  cases resolves : Program.resolve ⟨[exampleGlow]⟩ [exampleGlow] {} {} {} with
  | error error after =>
      rw [resolves] at succeeds
      cases succeeds
  | ok resolved after =>
      rw [resolves] at succeeds
      have ⟨unmarked, listed⟩ := Bool.and_eq_true_iff.mp succeeds
      rw [Bool.not_eq_true', ← Bool.not_eq_true, List.isPrefixOf_iff_prefix] at unmarked
      have ⟨context, traced, ran, _, without⟩ := Program.resolve_withoutHalf resolves unmarked
      rw [eq_of_beq listed] at without
      exact ⟨resolved, after, rfl, unmarked, context, traced, ran, without⟩

def exampleShrink : ShaderFunction where
  id := ⟨0⟩
  signature := ⟨"shrink", [⟨"x", .f32⟩], some .f32, none⟩
  implementation := .raw "\x7b let half: f16 = f16(x); return f32(half); \x7d" []

/-- The text of the function stands in the module as it is, without the directive. -/
theorem resolve_exampleShrink_unmarked :
    ∃ resolved after,
      Program.resolve ⟨[exampleShrink]⟩ [exampleShrink] {} {} {} = .ok resolved after ∧
      resolved.code =
        "fn shrink(x: f32) -> f32 \x7b let half: f16 = f16(x); return f32(half); \x7d\n" ∧
      ¬ "enable f16;".toList <+: resolved.code.toList := by
  have succeeds : (match Program.resolve ⟨[exampleShrink]⟩ [exampleShrink] {} {} {} with
    | .ok resolved _ => resolved.code ==
        "fn shrink(x: f32) -> f32 \x7b let half: f16 = f16(x); return f32(half); \x7d\n"
    | .error _ _ => false) = true := by decide +kernel
  cases resolves : Program.resolve ⟨[exampleShrink]⟩ [exampleShrink] {} {} {} with
  | error error after =>
      rw [resolves] at succeeds
      cases succeeds
  | ok resolved after =>
      rw [resolves] at succeeds
      have code := eq_of_beq succeeds
      refine ⟨resolved, after, rfl, code, ?_⟩
      rw [code, ← List.isPrefixOf_iff_prefix]
      decide +kernel

end ShaderKit
