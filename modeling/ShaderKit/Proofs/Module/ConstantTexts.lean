import ShaderKit.Module.Text
import ShaderKit.Proofs.Descriptor.Registered
import ShaderKit.Proofs.Module.Needs
import ShaderKit.Proofs.Text.ConstantExpressions
import ShaderKit.Proofs.Value.Construct

/-!
# The texts of constants denote their values

A constant of truth values and integers is written so that reading its text gives back the value
in canonical form. No number in the text is out of range, and no other value has the text.
-/

namespace ShaderKit

open ModuleNames (callText componentsText listText)
open Text (Constant Denotes InRange Lexes Scope Spelled Spells SpellsType Suffix Token)

/-! ## Nested types -/

theorem MemberList.mem_nested {inner : TypeDescriptor} (members : MemberList) :
    inner ∈ members.nested ↔ ∃ member ∈ members.toList, inner ∈ member.type.nested := by
  cases members with
  | nil => simp [nested, toList]
  | cons name type attributes rest =>
      simp only [nested, toList, List.mem_append, List.exists_mem_cons_iff, rest.mem_nested]

theorem MemberList.allConstructible_iff (members : MemberList) :
    members.allConstructible = true ↔
      ∀ member ∈ members.toList, member.type.isConstructible = true := by
  cases members with
  | nil => simp [allConstructible, toList]
  | cons name type attributes rest =>
      simp only [allConstructible, toList, Bool.and_eq_true, List.forall_mem_cons,
        rest.allConstructible_iff]

theorem TypeDescriptor.Registered.isFloat_of_matrix {type : TypeDescriptor}
    (registered : type.Registered) : ∀ {kind columns rows},
      .matrix kind columns rows ∈ type.nested → kind.isFloat = true := by
  induction registered with
  | scalar | vector =>
      intro kind columns rows inside
      cases List.mem_singleton.mp inside
  | @matrix given _ _ _ built =>
      intro kind columns rows inside
      rw [matrixOf_eq_ok built] at inside
      cases List.mem_singleton.mp inside
      unfold matrixOf at built
      split at built
      next float => exact float
      next => cases built
  | atomic built =>
      intro kind columns rows inside
      rw [atomicOf_eq_ok built] at inside
      cases List.mem_singleton.mp inside
  | array _ built induction =>
      intro kind columns rows inside
      rcases arrayOf_eq_ok built with ⟨_, rfl, _⟩
      cases inside with
      | tail _ inside => exact induction inside
  | struct _ built induction =>
      intro kind columns rows inside
      rcases structOf_eq_ok built with ⟨_, _, rfl, _⟩
      cases inside with
      | tail _ inside =>
          rcases (MemberList.mem_nested _).mp inside with ⟨member, listed, inside⟩
          rw [MemberList.toList_ofList] at listed
          exact induction member listed inside

/-! ## Names of structures -/

namespace ModuleNames

/-- The structures of a type have distinct names, which a module may declare. -/
structure Distinguishes (names : ModuleNames) (type : TypeDescriptor) : Prop where
  valid : ∀ inner ∈ type.structs, Identifier.isValid (names.typeText inner) = true
  distinct : ∀ inner ∈ type.structs, ∀ other ∈ type.structs,
    names.typeText inner = names.typeText other → inner = other

def scope (names : ModuleNames) (type : TypeDescriptor) : Scope := fun name =>
  type.structs.find? fun inner => names.typeText inner == name

theorem Distinguishes.scope_typeText {names : ModuleNames} {type inner : TypeDescriptor}
    (named : names.Distinguishes type) (inside : inner ∈ type.structs) :
    names.scope type (names.typeText inner) = some inner := by
  unfold scope
  cases found : type.structs.find? fun other => names.typeText other == names.typeText inner with
  | none =>
      have apart := List.find?_eq_none.mp found inner inside
      exact absurd (beq_self_eq_true _) apart
  | some other =>
      have same : (names.typeText other == names.typeText inner) = true :=
        @List.find?_some _ (fun other => names.typeText other == names.typeText inner) _ _ found
      rw [beq_iff_eq] at same
      rw [named.distinct other (List.mem_of_find?_eq_some found) inner inside same]

end ModuleNames

/-- A type whose values have texts that can be read where `scope` knows its structures. Its arrays
are among the given types. -/
structure TypeDescriptor.Readable (names : ModuleNames) (scope : Scope)
    (types : List TypeDescriptor) (type : TypeDescriptor) : Prop where
  constructible : type.isConstructible = true
  discrete : ∀ inner ∈ type.nested, ∀ kind ∈ inner.scalarKind?, kind.isFloat = false
  noMatrix : ∀ inner ∈ type.nested, inner.isMatrix = false
  filled : ∀ element, .array element (.fixed 0) ∉ type.nested
  valid : ∀ inner ∈ type.structs, Identifier.isValid (names.typeText inner) = true
  known : ∀ inner ∈ type.structs, scope (names.typeText inner) = some inner
  counted : type.nested ⊆ types

section

variable {names : ModuleNames} {scope : Scope} {types : List TypeDescriptor}

namespace TypeDescriptor.Readable

theorem nested {type inner : TypeDescriptor} (readable : type.Readable names scope types)
    (constructible : inner.isConstructible = true) (within : inner.nested ⊆ type.nested)
    (structsWithin : inner.structs ⊆ type.structs) : inner.Readable names scope types where
  constructible := constructible
  discrete := fun other inside => readable.discrete other (within inside)
  noMatrix := fun other inside => readable.noMatrix other (within inside)
  filled := fun element inside => readable.filled element (within inside)
  valid := fun other inside => readable.valid other (structsWithin inside)
  known := fun other inside => readable.known other (structsWithin inside)
  counted := fun _ inside => readable.counted (within inside)

theorem element {element : TypeDescriptor} {length : ArrayLength}
    (readable : (TypeDescriptor.array element length).Readable names scope types) :
    element.Readable names scope types := by
  have constructible := readable.constructible
  rw [isConstructible, Bool.and_eq_true] at constructible
  exact readable.nested constructible.2 (List.subset_cons_self _ _) (List.Subset.refl _)

theorem member {label : Option String} {members : MemberList}
    (readable : (TypeDescriptor.struct label members).Readable names scope types) :
    ∀ member ∈ members.toList, member.type.Readable names scope types := by
  intro member listed
  have constructible := readable.constructible
  rw [isConstructible, MemberList.allConstructible_iff] at constructible
  refine readable.nested (constructible member listed) ?_ ?_
  · intro inner inside
    exact List.mem_cons_of_mem _ ((MemberList.mem_nested _).mpr ⟨member, listed, inside⟩)
  · intro inner inside
    exact List.mem_append_left _ ((MemberList.mem_structs _).mpr ⟨member, listed, inside⟩)

end TypeDescriptor.Readable

/-! ## The texts of types -/

theorem TypeDescriptor.Readable.spellsType : ∀ {type : TypeDescriptor},
    type.Readable names scope types →
      ∃ tokens, SpellsType scope types (names.typeText type).toList tokens type
  | .scalar kind, readable => by
      have discrete := readable.discrete _ (List.mem_singleton_self _) kind rfl
      have known : (kind.name, .scalar kind) ∈ Text.predeclared := by
        revert discrete
        cases kind <;> decide
      exact ⟨_, SpellsType.predeclared known⟩
  | .vector kind width, readable => by
      have discrete := readable.discrete _ (List.mem_singleton_self _) kind rfl
      cases kind with
      | f16 | f32 => cases discrete
      | i32 | u32 =>
          have known (kind : ScalarKind) (integer : kind.isInteger = true) :
              ((vector kind width).text, .vector kind width) ∈ Text.predeclared := by
            revert integer
            cases kind <;> cases width <;> decide
          exact ⟨_, SpellsType.predeclared (known _ rfl)⟩
      | bool =>
          have known : ("vec" ++ toString width.count, width) ∈ Text.generators := by
            cases width <;> decide
          have spelled := @SpellsType.generated scope types _ known
          have text : (names.typeText (.vector .bool width)).toList =
              ("vec" ++ toString width.count).toList ++ ['<', 'b', 'o', 'o', 'l', '>'] :=
            String.toList_append
          rw [text]
          exact spelled
  | .matrix kind columns rows, readable => by
      have noMatrix := readable.noMatrix _ (List.mem_singleton_self _)
      cases noMatrix
  | .atomic kind, readable => by
      cases readable.constructible
  | .array element .runtime, readable => by
      cases readable.constructible
  | .array element (.fixed count), readable => by
      rcases readable.element.spellsType with ⟨tokens, spelled⟩
      have positive : 0 < count := by
        apply Nat.pos_of_ne_zero
        rintro rfl
        exact readable.filled element List.mem_cons_self
      have array := spelled.array positive (readable.counted List.mem_cons_self)
      have text : (names.typeText (.array element (.fixed count))).toList =
          "array<".toList ++ (names.typeText element).toList ++ ", ".toList ++
            Nat.toDigits 10 count ++ ['>'] := by
        change ("array<" ++ names.typeText element ++ ", " ++ count.repr ++ ">").toList = _
        simp
      rw [text]
      exact array
  | .struct label members, readable => by
      have own : struct label members ∈ (struct label members).structs :=
        List.mem_append_right _ (List.mem_singleton_self _)
      exact ⟨_, SpellsType.declared (readable.valid _ own) (readable.known _ own)⟩

/-! ## Literals -/

theorem Scalar.spelled_magnitude {kind : ScalarKind} {letter : Char} {number : Nat} {value : Scalar}
    (suffix : Suffix kind letter)
    (fits : Text.integerOf? kind number = some value) :
    Spelled scope types (wrapNegative (number.repr ++ letter.toString)) (.ofScalar value) := by
  have text : (number.repr ++ letter.toString).toList = Nat.toDigits 10 number ++ [letter] := by
    simp
  have numeric := (@Spells.literal types _ _ _ _ suffix fits).1
  rw [wrapNegative_of_numeric (text ▸ numeric), Spelled, text]
  exact Spells.positive suffix fits

theorem Scalar.spelled_i32 (value : Int32) :
    Spelled scope types (Scalar.i32 value).literal (.ofScalar (.i32 value)) := by
  have inRange := Text.integerOf?_i32 value
  by_cases least : value = .ofInt (-2147483648)
  · subst least
    rw [literal, if_pos rfl]
    exact Spells.least
  · rw [literal, if_neg fun same => least (Scalar.i32.inj same)]
    have atLeast : -2147483648 ≤ value.toInt := value.le_toInt
    have notLeast : value.toInt ≠ -2147483648 := fun same =>
      least (by rw [← same, Int32.ofInt_toInt])
    change Spelled scope types (wrapNegative (toString value.toInt ++ "i")) _
    cases signed : value.toInt with
    | ofNat number =>
        rw [signed] at inRange
        exact @spelled_magnitude scope types .i32 'i' number _ .i32 inRange
    | negSucc number =>
        have minus : toString (Int.negSucc number) ++ "i" = "-" ++ ((number + 1).repr ++ "i") := by
          rw [Int.toString_eq_repr, Int.repr, String.append_assoc]
        have magnitude : -((number + 1 : Nat) : Int) = value.toInt := by
          rw [signed, Int.negSucc_eq]
          rfl
        have negative := @Spells.negative scope types (number + 1) (by omega)
        rw [magnitude, Int32.ofInt_toInt] at negative
        rw [minus, wrapNegative_of_minus, Spelled]
        simpa using negative

theorem Scalar.spelled {value : Scalar} (discrete : value.kind.isFloat = false) :
    Spelled scope types value.literal (.ofScalar value) := by
  cases value with
  | bool value =>
      have written : (Scalar.bool value).literal = if value then "true" else "false" := by
        cases value <;> decide
      rw [written]
      exact Spells.truth value
  | f16 | f32 => cases discrete
  | i32 value => exact spelled_i32 value
  | u32 value =>
      exact @spelled_magnitude scope types .u32 'u' value.toNat _ .u32
        (Text.integerOf?_u32 value)

/-! ## Constructors -/

theorem flattenComponents_scalars (components : Components) :
    flattenComponents (components.map HostValue.scalar) = some components := by
  induction components with
  | nil => rfl
  | cons first rest induction => simp [flattenComponents, induction]

namespace Text.Constant

theorem made?_eq {type : TypeDescriptor} {arguments : List Constant} {value : HostValue}
    (constructible : type.isConstructible = true)
    (constructs : Recording.constructs type (arguments.map Constant.type) = true)
    (composed : type.compose (arguments.map Constant.value) = some value)
    (empty : arguments = [] → type.zero = value) : made? type arguments = some ⟨type, value⟩ := by
  unfold made?
  rw [if_neg (by simp [constructible]), if_pos constructs]
  split
  next none => rw [empty (List.isEmpty_iff.mp none)]
  next => rw [composed, Option.map_some]

theorem made?_vector {kind : ScalarKind} {width : VectorWidth} {components : Components}
    (typed : ComponentsOf kind width.count components) :
    made? (.vector kind width) (components.map ofScalar) =
      some ⟨.vector kind width, .vector components⟩ := by
  have scalars : ∀ type ∈ (components.map ofScalar).map Constant.type, type = .scalar kind := by
    intro type member
    rw [List.map_map, List.mem_map] at member
    rcases member with ⟨component, member, rfl⟩
    exact congrArg TypeDescriptor.scalar (typed.2 component member)
  have values : (components.map ofScalar).map Constant.value = components.map HostValue.scalar :=
    List.map_map
  have several : 2 ≤ components.length := by
    rw [typed.1]
    cases width <;> decide
  refine made?_eq rfl ?_ ?_ ?_
  · rw [Recording.constructs, Recording.fillsVector, componentTotal?_scalars scalars]
    simp [typed.1]
  · -- A single component would fill the whole vector.
    rw [TypeDescriptor.compose, values, flattenComponents_scalars]
    rcases components with _ | ⟨first, _ | ⟨second, rest⟩⟩
    · cases several
    · exact absurd several (Nat.not_succ_le_self 1)
    · rfl
  · intro empty
    rw [List.map_eq_nil_iff.mp empty] at several
    cases several

theorem made?_array {element : TypeDescriptor} (values : List HostValue)
    (constructible : element.isConstructible = true) :
    made? (.array element (.fixed values.length)) (values.map (Constant.mk element)) =
      some ⟨.array element (.fixed values.length), .array values⟩ := by
  refine made?_eq ?_ ?_ ?_ ?_
  · simp [TypeDescriptor.isConstructible, constructible]
  · simp [Recording.constructs]
  · simp [TypeDescriptor.compose, Function.comp_def]
  · intro empty
    rw [List.map_eq_nil_iff.mp empty]
    rfl

theorem made?_struct {label : Option String} {members : MemberList} {constants : List Constant}
    (constructible : members.allConstructible = true)
    (typed : constants.map Constant.type = members.toList.map Member.type) :
    made? (.struct label members) constants = some ⟨.struct label members,
      .struct ((members.toList.map Member.name).zip (constants.map Constant.value))⟩ := by
  refine made?_eq constructible (decide_eq_true typed.symm) rfl ?_
  rintro rfl
  cases members with
  | nil => rfl
  | cons => cases typed

end Text.Constant

/-! ## The texts of values -/

theorem spelled_components {kind : ScalarKind} {width : VectorWidth} {components : Components}
    (readable : (TypeDescriptor.vector kind width).Readable names scope types)
    (typed : ComponentsOf kind width.count components) :
    Spelled scope types (componentsText (.vector kind width) components)
      ⟨.vector kind width, .vector components⟩ := by
  have discrete := readable.discrete _ (List.mem_singleton_self _) kind rfl
  rcases readable.spellsType with ⟨tokens, spelledType⟩
  have spelled : List.Forall₂ (Spelled scope types) (components.map Scalar.literal)
      (components.map Constant.ofScalar) := by
    rw [List.forall₂_map_left_iff, List.forall₂_map_right_iff, List.forall₂_same]
    intro component member
    exact Scalar.spelled (by rw [typed.2 component member, discrete])
  exact Text.spelled_call spelledType spelled (Constant.made?_vector typed)

mutual
/-- The text of an accepted value is read as its canonical form. -/
theorem TypeDescriptor.Readable.spelled : ∀ {type : TypeDescriptor} {value : HostValue},
    type.Readable names scope types → type.Accepts value →
      Spelled scope types (type.valueText names value) ⟨type, type.canon value⟩
  | .scalar kind, value, readable, accepted => by
      cases value with
      | scalar value =>
          rw [TypeDescriptor.Accepts] at accepted
          subst accepted
          exact Scalar.spelled (readable.discrete _ (List.mem_singleton_self _) value.kind rfl)
      | _ => exact absurd accepted (by simp [TypeDescriptor.Accepts])
  | .vector kind width, value, readable, accepted => by
      cases value with
      | vector components =>
          rw [TypeDescriptor.Accepts] at accepted
          exact spelled_components readable accepted
      | _ => exact absurd accepted (by simp [TypeDescriptor.Accepts])
  | .matrix kind columns rows, value, readable, _ => by
      cases readable.noMatrix _ (List.mem_singleton_self _)
  | .atomic kind, value, readable, _ => by
      cases readable.constructible
  | .array element length, value, readable, accepted => by
      cases value with
      | array elements =>
          rw [TypeDescriptor.Accepts] at accepted
          have inner := readable.element
          have spelled : List.Forall₂ (Spelled scope types) (elements.map (element.valueText names))
              ((elements.map element.canon).map (Constant.mk element)) := by
            rw [List.forall₂_map_left_iff, List.forall₂_map_right_iff, List.forall₂_map_right_iff,
              List.forall₂_same]
            exact fun value member => inner.spelled (accepted.2 value member)
          have made := Constant.made?_array (elements.map element.canon) inner.constructible
          rcases readable.spellsType with ⟨tokens, spelledType⟩
          cases length with
          | runtime => cases readable.constructible
          | fixed count =>
              have counted : elements.length = count := beq_iff_eq.mp accepted.1
              rw [List.length_map, counted] at made
              exact Text.spelled_call spelledType spelled made
      | _ => exact absurd accepted (by simp [TypeDescriptor.Accepts])
  | .struct label members, value, readable, accepted => by
      cases value with
      | struct values =>
          rw [TypeDescriptor.Accepts] at accepted
          rcases MemberList.spelled readable.member accepted.2 with
            ⟨constants, spelled, typed, valued⟩
          rcases readable.spellsType with ⟨tokens, spelledType⟩
          have made := @Constant.made?_struct label _ _ readable.constructible typed
          rw [valued] at made
          exact Text.spelled_call spelledType spelled made
      | _ => exact absurd accepted (by simp [TypeDescriptor.Accepts])

theorem MemberList.spelled : ∀ {members : MemberList} {values : List (String × HostValue)},
    (∀ member ∈ members.toList, member.type.Readable names scope types) → members.Accepts values →
      ∃ constants, List.Forall₂ (Spelled scope types) (members.valueTexts names values) constants ∧
        constants.map Constant.type = members.toList.map Member.type ∧
          (members.toList.map Member.name).zip (constants.map Constant.value) =
            members.canon values
  | .nil, _, _, _ => ⟨[], .nil, rfl, rfl⟩
  | .cons name type attributes rest, values, readable, accepted => by
      rw [MemberList.Accepts] at accepted
      rcases accepted with ⟨⟨value, found, fits⟩, others⟩
      have first := (readable ⟨name, type, attributes⟩ List.mem_cons_self).spelled fits
      have later : ∀ member ∈ rest.toList, member.type.Readable names scope types :=
        fun member listed => readable member (List.mem_cons_of_mem _ listed)
      rcases MemberList.spelled later others with ⟨constants, spelled, typed, valued⟩
      refine ⟨⟨type, type.canon value⟩ :: constants, ?_, ?_, ?_⟩
      · simp only [MemberList.valueTexts, found]
        exact .cons first spelled
      · rw [List.map_cons, typed]
        rfl
      · rw [MemberList.canon, found, MemberList.toList, List.map_cons, List.map_cons,
          List.zip_cons_cons, valued]
end

end

/-! ## Constants of registered types -/

theorem TypeDescriptor.Registered.readable {type : TypeDescriptor} {names : ModuleNames}
    (registered : type.Registered) (constructible : type.isConstructible = true)
    (discrete : ∀ kind, type.usesKind kind = true → kind ∈ [.bool, .i32, .u32])
    (filled : ∀ element, .array element (.fixed 0) ∉ type.nested)
    (named : names.Distinguishes type) : type.Readable names (names.scope type) type.nested := by
  have noFloat : ∀ inner ∈ type.nested, ∀ kind ∈ inner.scalarKind?, kind.isFloat = false := by
    intro inner inside kind component
    have used : type.usesKind kind = true :=
      List.any_eq_true.mpr ⟨inner, inside, beq_iff_eq.mpr component⟩
    have known := discrete kind used
    revert known
    cases kind <;> decide
  refine ⟨constructible, noFloat, ?_, filled, named.valid, fun _ => named.scope_typeText,
    List.Subset.refl _⟩
  intro inner inside
  cases inner with
  | matrix kind columns rows =>
      have float := registered.isFloat_of_matrix inside
      rw [noFloat _ inside kind rfl] at float
      cases float
  | _ => rfl

/-- The text of a constant of truth values and integers denotes its canonical form and nothing
else, all its numbers are in range, and different canonical forms have different texts. The type
has no arrays without elements at any depth. -/
theorem TypeDescriptor.Registered.valueText_denotes {type : TypeDescriptor} {names : ModuleNames}
    {value : HostValue} (registered : type.Registered)
    (constructible : type.isConstructible = true)
    (discrete : ∀ kind, type.usesKind kind = true → kind ∈ [.bool, .i32, .u32])
    (filled : ∀ element, .array element (.fixed 0) ∉ type.nested)
    (named : names.Distinguishes type) (accepted : type.Accepts value) :
    (∀ constant, Denotes (names.scope type) (type.valueText names value) constant ↔
      constant = ⟨type, type.canon value⟩) ∧
    (∀ tokens, Lexes (type.valueText names value).toList tokens →
      ∀ literal, .number literal ∈ tokens → InRange type.nested literal) ∧
    ∀ other, type.Accepts other → type.canon other ≠ type.canon value →
      type.valueText names other ≠ type.valueText names value := by
  have readable := registered.readable constructible discrete filled named
  have denotes : ∀ {value}, type.Accepts value →
      Denotes (names.scope type) (type.valueText names value) ⟨type, type.canon value⟩ :=
    fun accepted => (readable.spelled accepted).choose_spec.denotes
  refine ⟨fun constant => ⟨fun given => given.unique (denotes accepted), ?_⟩, ?_, ?_⟩
  · rintro rfl
    exact denotes accepted
  · intro tokens lexes
    rcases readable.spelled accepted with ⟨own, spells⟩
    rw [lexes.unique spells.lexes_alone]
    exact spells.inRange
  · intro other otherAccepted different same
    have denotesOther := denotes otherAccepted
    rw [same] at denotesOther
    exact different (congrArg Constant.value (denotesOther.unique (denotes accepted)))

def exampleCell : List Member :=
  [⟨"depth", .i32, {}⟩, ⟨"mask", .vector .bool .two, {}⟩]

def exampleTable : List Member :=
  [⟨"cells", .array (.struct (some "Cell") (.ofList exampleCell)) (.fixed 2), {}⟩,
    ⟨"size", .vector .u32 .three, {}⟩]

theorem exampleTable_registered :
    (TypeDescriptor.struct (some "Table") (.ofList exampleTable)).Registered := by
  have cell : (TypeDescriptor.struct (some "Cell") (.ofList exampleCell)).Registered := by
    apply @TypeDescriptor.Registered.struct (some "Cell") exampleCell
    · intro member inside
      simp only [exampleCell, List.mem_cons, List.not_mem_nil, or_false] at inside
      rcases inside with rfl | rfl
      · exact .scalar .i32
      · exact .vector .bool .two
    · rfl
  apply @TypeDescriptor.Registered.struct (some "Table") exampleTable
  · intro member inside
    simp only [exampleTable, List.mem_cons, List.not_mem_nil, or_false] at inside
    rcases inside with rfl | rfl
    · exact @TypeDescriptor.Registered.array _ _ (.fixed 2) cell rfl
    · exact .vector .u32 .three
  · rfl

def exampleTableNames : ModuleNames :=
  { types :=
      [(.struct (some "Cell") (.ofList exampleCell), "Cell"),
        (.struct (some "Table") (.ofList exampleTable), "Table_1")] }

def exampleTableValue : HostValue :=
  .struct [("size", .vector [.u32 0, .u32 4294967295, .u32 7]),
    ("cells", .array [
      .struct [("mask", .vector [.bool true, .bool false]),
        ("depth", .scalar (.i32 (-2147483648)))],
      .struct [("depth", .scalar (.i32 (-5))), ("mask", .vector [.bool false, .bool true])]])]

/-- The least depth is written as a difference, and the text says it as it is. -/
theorem valueText_denotes_exampleTable :
    let type := TypeDescriptor.struct (some "Table") (.ofList exampleTable)
    type.valueText exampleTableNames exampleTableValue =
      "Table_1(array<Cell, 2>(Cell((-2147483647i - 1i), vec2<bool>(true, false)), " ++
        "Cell((-5i), vec2<bool>(false, true))), vec3u(0u, 4294967295u, 7u))" ∧
    Denotes (exampleTableNames.scope type) (type.valueText exampleTableNames exampleTableValue)
      ⟨type, .struct [
        ("cells", .array [
          .struct [("depth", .scalar (.i32 (-2147483648))),
            ("mask", .vector [.bool true, .bool false])],
          .struct [("depth", .scalar (.i32 (-5))), ("mask", .vector [.bool false, .bool true])]]),
        ("size", .vector [.u32 0, .u32 4294967295, .u32 7])]⟩ := by
  intro type
  have accepted : type.Accepts exampleTableValue := by
    simp [type, exampleTable, exampleTableValue, exampleCell, TypeDescriptor.Accepts,
      MemberList.Accepts, MemberList.ofList, MemberList.find?, HostValue.memberIn?,
      ArrayLength.accepts, ComponentsOf, Scalar.kind, VectorWidth.count]
  have named : exampleTableNames.Distinguishes type := ⟨by decide +kernel, by decide +kernel⟩
  have discrete : ∀ kind, type.usesKind kind = true → kind ∈ [.bool, .i32, .u32] := by
    intro kind
    cases kind <;> decide +kernel
  have filled : ∀ element, .array element (.fixed 0) ∉ type.nested := by
    simp [type, exampleTable, exampleCell, MemberList.ofList, TypeDescriptor.nested,
      MemberList.nested]
  have denotes :=
    (exampleTable_registered.valueText_denotes rfl discrete filled named accepted).1
  exact ⟨by decide +kernel, (denotes _).mpr rfl⟩

/-- An array without elements can be registered and constructed, and its text denotes nothing,
because a type of WGSL has no such arrays. -/
theorem valueText_exampleEmpty_undenoted :
    let type := TypeDescriptor.array .u32 (.fixed 0)
    let names : ModuleNames := {}
    type.Registered ∧ type.isConstructible = true ∧
      (∀ kind, type.usesKind kind = true → kind ∈ [.bool, .i32, .u32]) ∧
      names.Distinguishes type ∧ type.Accepts (.array []) ∧
      type.valueText names (.array []) = "array<u32, 0>()" ∧
      ∀ constant, ¬ Denotes (names.scope type) (type.valueText names (.array [])) constant := by
  intro type names
  have spelled := @Text.SpellsType.predeclared (names.scope type) [] ("u32", .u32) (by decide)
  have closed : Lexes "()".toList [.symbol ['('], .symbol [')']] :=
    @Lexes.delimiter _ _ '(' (by decide) (@Lexes.delimiter _ _ ')' (by decide) .done)
  refine ⟨@TypeDescriptor.Registered.array _ _ (.fixed 0) (.scalar .u32) rfl, rfl, ?_,
    ⟨nofun, nofun⟩, ?_, by decide +kernel, ?_⟩
  · intro kind
    cases kind <;> decide +kernel
  · simp [type, TypeDescriptor.Accepts, ArrayLength.accepts]
  · exact spelled.not_denotes_array (by simp [Text.Delimited]) closed (by decide +kernel)

end ShaderKit
