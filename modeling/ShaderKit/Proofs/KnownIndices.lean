import ShaderKit.Proofs.Module.Closed
import ShaderKit.Proofs.Recording.Entries

/-!
# Indices that are known before a function runs

Literals and module constants are known when a module is built. The recorder compares a literal
index with the bounds of what it indexes, where these are fixed. It looks neither at the sign of
a literal that indexes a runtime-sized array, nor at the value of a module constant.
-/

namespace ShaderKit

def TraceContext.knownIndex? (context : TraceContext) : Expression → Option Int
  | .constant number => do
      let constant ← context.constant? number
      let value ← constant.value.scalar?
      Recording.literalIndex? (.literal value)
  | expression => Recording.literalIndex? expression

/-- A composite has an element at a position: it is not negative, and below the number of
elements if that is fixed. -/
def TypeDescriptor.HasPosition (type : TypeDescriptor) (position : Int) : Prop :=
  0 ≤ position ∧ ∀ indexing, Recording.indexing? type = some indexing →
    ∀ bound, indexing.bound = some bound → position < bound

/-- An entry of a recording takes the element of a composite at a known position. -/
structure RecordedFunction.TakesAt (recorded : RecordedFunction) (context : TraceContext)
    (entry whole index : ExpressionEntry) (position : Int) : Prop where
  member : entry ∈ recorded.expressions
  parts : ∃ base node, entry.expression = .index base node ∧
    recorded.entry? base = some whole ∧ recorded.entry? node = some index
  known : context.knownIndex? index.expression = some position

/-- A known index that was recorded without a comparison with the bounds: a negative literal into
a runtime-sized array, or a constant into a reference or a vector. -/
def ExpressionEntry.Unexamined (entry whole index : ExpressionEntry) (position : Int) : Prop :=
  ((∃ value, index.expression = .literal value) ∧ whole.type.isRuntimeArray = true ∧
      position < 0) ∨
    (∃ number, index.expression = .constant number) ∧
      (entry.reference.isSome = true ∨ ∃ kind width, whole.type = .vector kind width)

/-! ## Positions -/

namespace Recording

variable {type : TypeDescriptor} {indexing : Indexing} {position : Int}

theorem bound_of_outside {bound : Nat} (inside : outside (some position) (some bound) = none) :
    0 ≤ position ∧ position < bound := by
  simp only [outside] at inside
  split at inside
  next => cases inside
  next within => omega

theorem isRuntimeArray_of_unbounded (indexed : indexing? type = some indexing)
    (unbounded : indexing.bound = none) : type.isRuntimeArray = true := by
  unfold indexing? at indexed
  split at indexed <;> cases indexed
  next => cases unbounded
  next => cases unbounded
  next => cases unbounded
  next => rfl

/-- Only vectors may be indexed by numbers that are not literals while they are values. -/
theorem vector_of_dynamicOk (indexed : indexing? type = some indexing)
    (dynamic : indexing.dynamicOk = true) : ∃ kind width, type = .vector kind width := by
  unfold indexing? at indexed
  split at indexed <;> cases indexed
  next kind width => exact ⟨kind, width, rfl⟩
  all_goals cases dynamic

/-- A literal position that the recorder accepts is one that the composite has, unless it is a
negative position of a runtime-sized array. -/
theorem hasPosition_of_literal (indexed : indexing? type = some indexing)
    (inside : outside (some position) indexing.bound = none) :
    type.HasPosition position ∨ (type.isRuntimeArray = true ∧ position < 0) := by
  cases bounded : indexing.bound with
  | none =>
      by_cases negative : position < 0
      · exact .inr ⟨isRuntimeArray_of_unbounded indexed bounded, negative⟩
      · refine .inl ⟨Int.not_lt.mp negative, ?_⟩
        intro other again bound same
        cases indexed.symm.trans again
        cases bounded.symm.trans same
  | some limit =>
      rw [bounded] at inside
      have within := bound_of_outside inside
      refine .inl ⟨within.1, ?_⟩
      intro other again bound same
      cases indexed.symm.trans again
      cases bounded.symm.trans same
      exact within.2

end Recording

theorem Recording.literalIndex?_isSome {value : Scalar} (integer : value.kind.isInteger = true) :
    (literalIndex? (.literal value)).isSome = true := by
  cases value <;> first | rfl | cases integer

/-! ## Typing of indices -/

namespace Inventory

variable {inventory : Inventory} {type : TypeDescriptor} {reference : Option Reference}

theorem Types.of_index {base node : Node}
    (types : inventory.Types (.index base node) type reference) :
    (∃ whole, inventory.At base whole reference) ∧
      ∃ kind, inventory.ValueAt node (.scalar kind) ∧ kind.isInteger = true := by
  cases types with
  | @index _ _ _ kind _ _ baseAt positionAt integer =>
      cases kind with
      | scalar kind => exact ⟨⟨_, baseAt⟩, kind, positionAt, integer⟩
      | _ => cases integer

theorem Types.of_literal {value : Scalar}
    (types : inventory.Types (.literal value) type reference) : type = .scalar value.kind := by
  cases types
  rfl

theorem Types.of_constant {number : Nat}
    (types : inventory.Types (.constant number) type reference) :
    ∃ constant, inventory.context.constant? number = some constant ∧ constant.type = type := by
  cases types with
  | constant known => exact ⟨_, known, rfl⟩

end Inventory

/-! ## Finished recordings -/

namespace RecordedFunction

variable {recorded : RecordedFunction} {context : TraceContext}

theorem Sound.exists_takesAt (sound : recorded.Sound context)
    (constants : ∀ constant ∈ context.constants, HasType constant.type constant.value)
    {entry index : ExpressionEntry} {base node : Node} (member : entry ∈ recorded.expressions)
    (indexes : entry.expression = .index base node) (found : recorded.entry? node = some index)
    (fixed : (∃ value, index.expression = .literal value) ∨
      ∃ number, index.expression = .constant number) :
    ∃ whole position, recorded.TakesAt context entry whole index position := by
  rcases Array.getElem?_of_mem member with ⟨place, placed⟩
  have types := (sound.entries place entry placed).types
  rw [indexes] at types
  rcases types.of_index with
    ⟨⟨_, whole, foundWhole, _⟩, kind, ⟨other, again, typed, _⟩, integer⟩
  cases found.symm.trans again
  have indexTypes := (sound.entries node.index index found).types
  have isKnown : (context.knownIndex? index.expression).isSome = true := by
    rcases fixed with ⟨value, same⟩ | ⟨number, same⟩
    · rw [same] at indexTypes ⊢
      have sameKind : value.kind = kind := by
        cases typed.symm.trans indexTypes.of_literal
        rfl
      exact Recording.literalIndex?_isSome (sameKind ▸ integer)
    · rw [same] at indexTypes ⊢
      rcases indexTypes.of_constant with ⟨constant, known, sameType⟩
      have known : context.constant? number = some constant := known
      have hasType := constants constant (List.mem_of_getElem? known)
      rw [sameType, typed, hasType_scalar] at hasType
      rcases hasType with ⟨value, isValue, rfl⟩
      have isLiteral : context.knownIndex? (.constant number) =
          Recording.literalIndex? (.literal value) := by
        simp [TraceContext.knownIndex?, known, isValue, HostValue.scalar?]
      rw [isLiteral]
      exact Recording.literalIndex?_isSome integer
  rcases Option.isSome_iff_exists.mp isKnown with ⟨position, known⟩
  exact ⟨whole, position, member, ⟨base, node, indexes, foundWhole, found⟩, known⟩

theorem TakesAt.hasPosition_or_unexamined {program : Program} {function : ShaderFunction}
    (makes : program.Makes function recorded) {entry whole index : ExpressionEntry}
    {position : Int} (takes : recorded.TakesAt context entry whole index position) :
    whole.type.HasPosition position ∨ entry.Unexamined whole index position := by
  rcases takes.parts with ⟨base, node, indexes, foundWhole, foundIndex⟩
  have selects : ∃ earlier : Recorder, (∀ (index : Nat) known,
      earlier.expressions[index]? = some known → recorded.expressions[index]? = some known) ∧
      earlier.Selects base node entry.reference := by
    rcases makes.examined entry takes.member with ⟨number, own⟩ | ⟨earlier, kept, admitted⟩
    · cases indexes.symm.trans own
    · rw [indexes] at admitted
      exact ⟨earlier, kept, admitted⟩
  rcases selects with ⟨earlier, kept, _, _, indexing, wholeAt, indexAt, indexed, inside,
    dynamic⟩
  cases foundWhole.symm.trans (kept _ _ wholeAt)
  cases foundIndex.symm.trans (kept _ _ indexAt)
  have known := takes.known
  cases same : index.expression with
  | literal value =>
      rw [same] at known inside
      have known : Recording.literalIndex? (.literal value) = some position := known
      rw [known] at inside
      rcases Recording.hasPosition_of_literal indexed inside with has | negative
      · exact .inl has
      · exact .inr (.inl ⟨⟨value, same⟩, negative⟩)
  | constant number =>
      refine .inr (.inr ⟨⟨number, same⟩, ?_⟩)
      cases reference : entry.reference with
      | some reference => exact .inl rfl
      | none =>
          rw [same] at dynamic
          rcases dynamic reference with dynamic | impossible
          · exact .inr (Recording.vector_of_dynamicOk indexed dynamic)
          · cases impossible
  | _ =>
      rw [same] at known
      cases known

end RecordedFunction

/-- After any traces, the position is known wherever a literal or a constant indexes, and what is
indexed has an element at a known position, except where a negative literal indexes a
runtime-sized array or a constant indexes a reference or a vector: these positions are not
compared with the bounds. -/
theorem Program.attemptAll_knownIndices {program : Program} {roots : List ShaderFunction}
    (known : ∀ root ∈ roots, program.find? root.id = some root) (journal : Journal) :
    let context := (program.attemptAll roots { journal := journal }).context
    ∀ recorded ∈ context.finished,
      (∀ entry ∈ recorded.expressions, ∀ base node index,
        entry.expression = .index base node → recorded.entry? node = some index →
        ((∃ value, index.expression = .literal value) ∨
          ∃ number, index.expression = .constant number) →
        ∃ whole position, recorded.TakesAt context entry whole index position) ∧
      ∀ entry whole index position, recorded.TakesAt context entry whole index position →
        whole.type.HasPosition position ∨ entry.Unexamined whole index position := by
  intro context recorded member
  have contextSound : context.Sound program :=
    Program.attemptAll_sound known (TraceContext.sound_empty program)
  have sound : recorded.Sound context := sound_of_attemptAll known member
  constructor
  · intro entry inside base node index indexes found fixed
    exact sound.exists_takesAt contextSound.constants inside indexes found fixed
  · intro entry whole index position takes
    exact takes.hasPosition_or_unexamined (makes_of_attemptAll member)

def exampleSamplesEntry : BindingEntry :=
  ⟨⟨0, 0⟩, .array .f32 .runtime, .storage false, some "samples"⟩

def exampleBefore : ShaderFunction where
  id := ⟨0⟩
  signature := ⟨"before", [], some .f32, none⟩
  implementation := .script
    (.ofList [
      .bind "samples" exampleSamplesEntry,
      .index "sample" "samples" (.literal (.i32 (-1)))])
    (some (.register "sample"))

/-- The position before the first one is recorded. -/
theorem attemptAll_exampleBefore_negative :
    let context := (Program.attemptAll ⟨[exampleBefore]⟩ [exampleBefore] {}).context
    ¬ ∀ recorded ∈ context.finished, ∀ entry whole index position,
        recorded.TakesAt context entry whole index position →
          whole.type.HasPosition position := by
  intro context inBounds
  let samples : ExpressionEntry :=
    ⟨.binding ⟨0, 0⟩, .array .f32 .runtime, some ⟨.read, .binding⟩, 0⟩
  let before : ExpressionEntry := ⟨.literal (.i32 (-1)), .i32, none, 0⟩
  let sample : ExpressionEntry :=
    ⟨.index ⟨⟨0⟩, 0⟩ ⟨⟨0⟩, 1⟩, .f32, some ⟨.read, .binding⟩, 1⟩
  let loaded : ExpressionEntry := ⟨.load ⟨⟨0⟩, 2⟩, .f32, none, 1⟩
  have entries : context.finished.map RecordedFunction.expressions =
      [#[samples, before, sample, loaded]] := by decide +kernel
  rcases List.map_eq_singleton_iff.mp entries with ⟨recorded, finished, same⟩
  have takes : recorded.TakesAt context sample samples before (-1) := by
    refine ⟨by simp [same], ⟨⟨⟨0⟩, 0⟩, ⟨⟨0⟩, 1⟩, rfl, ?_, ?_⟩, rfl⟩
    · simp [RecordedFunction.entry?, same]
    · simp [RecordedFunction.entry?, same]
  have has := inBounds recorded (finished ▸ List.mem_singleton_self _) _ _ _ _ takes
  exact absurd has.1 (by decide)

def exampleComponents : ShaderFunction where
  id := ⟨0⟩
  signature := ⟨"components", [⟨"pair", .vector .f32 .two⟩], some .f32, none⟩
  implementation := .script
    (.ofList [
      .index "first" "$0" (.literal (.u32 1)),
      .constant "place" none (.ok .u32) (.scalar (.u32 2)),
      .index "second" "$0" (.register "place"),
      .binary "sum" .add (.register "first") (.register "second")])
    (some (.register "sum"))

/-- The literal is in bounds, and the constant, which is not, was not compared with them. -/
theorem attemptAll_knownIndices_exampleComponents :
    let program : Program := ⟨[exampleComponents]⟩
    let context := (program.attemptAll [exampleComponents] {}).context
    (∀ root ∈ [exampleComponents], program.find? root.id = some root) ∧
    ∃ recorded ∈ context.finished, ∃ first second whole literal constant,
      recorded.TakesAt context first whole literal 1 ∧ whole.type.HasPosition 1 ∧
      recorded.TakesAt context second whole constant 2 ∧
      second.Unexamined whole constant 2 := by
  intro program context
  have known : ∀ root ∈ [exampleComponents], program.find? root.id = some root := by
    intro root member
    rw [List.mem_singleton.mp member]
    rfl
  let pair : ExpressionEntry := ⟨.parameter 0, .vector .f32 .two, none, 0⟩
  let one : ExpressionEntry := ⟨.literal (.u32 1), .u32, none, 0⟩
  let first : ExpressionEntry := ⟨.index ⟨⟨0⟩, 0⟩ ⟨⟨0⟩, 1⟩, .f32, none, 1⟩
  let place : ExpressionEntry := ⟨.constant 0, .u32, none, 0⟩
  let second : ExpressionEntry := ⟨.index ⟨⟨0⟩, 0⟩ ⟨⟨0⟩, 3⟩, .f32, none, 1⟩
  let sum : ExpressionEntry := ⟨.binary .add ⟨⟨0⟩, 2⟩ ⟨⟨0⟩, 4⟩, .f32, none, 1⟩
  have entries : context.finished.map RecordedFunction.expressions =
      [#[pair, one, first, place, second, sum]] := by decide +kernel
  have two : context.knownIndex? (.constant 0) = some 2 := by decide +kernel
  rcases List.map_eq_singleton_iff.mp entries with ⟨recorded, finished, same⟩
  have member : recorded ∈ context.finished := finished ▸ List.mem_singleton_self _
  have takesFirst : recorded.TakesAt context first pair one 1 :=
    ⟨by simp [same], ⟨⟨⟨0⟩, 0⟩, ⟨⟨0⟩, 1⟩, rfl, by simp [RecordedFunction.entry?, same],
      by simp [RecordedFunction.entry?, same]⟩, rfl⟩
  have takesSecond : recorded.TakesAt context second pair place 2 :=
    ⟨by simp [same], ⟨⟨⟨0⟩, 0⟩, ⟨⟨0⟩, 3⟩, rfl, by simp [RecordedFunction.entry?, same],
      by simp [RecordedFunction.entry?, same]⟩, two⟩
  obtain ⟨_, examined⟩ := Program.attemptAll_knownIndices known {} recorded member
  refine ⟨known, recorded, member, first, second, pair, one, place, takesFirst, ?_, takesSecond,
    ?_⟩
  · rcases examined _ _ _ _ takesFirst with has | ⟨_, runtime, _⟩ | ⟨⟨number, impossible⟩, _⟩
    · exact has
    · cases runtime
    · cases impossible
  · rcases examined _ _ _ _ takesSecond with has | unexamined
    · exact absurd (has.2 _ rfl 2 rfl) (by decide)
    · exact unexamined

end ShaderKit
