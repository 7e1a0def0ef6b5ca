import Mathlib.Data.List.Defs
import ShaderKit.Host.Standard
import ShaderKit.Proofs.Value.Operators

/-!
# Standard functions keep to their types

A standard function applied to arguments of types that it accepts gives a value of the type
of its result, except for the length of an array, which is not known on the host.
-/

namespace ShaderKit

/-! ## Components of values -/

theorem HasType.components? {type : TypeDescriptor} {test : ScalarKind → Bool}
    {value : HostValue} (accepted : type.isValueOf test = true) (typed : HasType type value) :
    ∃ kind components, type.scalarKind? = some kind ∧ test kind = true ∧
      value.components? = some components ∧ value.componentKind? = some kind ∧
        ∀ component ∈ components, component.kind = kind := by
  cases type with
  | scalar kind =>
      rcases hasType_scalar.mp typed with ⟨scalar, rfl, same⟩
      refine ⟨kind, [scalar], rfl, accepted, rfl, congrArg some same, ?_⟩
      intro component member
      rw [List.mem_singleton.mp member]
      exact same
  | vector kind width =>
      rcases hasType_vector.mp typed with ⟨components, rfl, counted, same⟩
      refine ⟨kind, components, rfl, accepted, rfl, ?_, same⟩
      cases components with
      | nil => exact absurd counted (Nat.ne_of_lt width.count_pos)
      | cons component rest => exact congrArg some (same component List.mem_cons_self)
  | _ => cases accepted

theorem HasType.componentKind? {type : TypeDescriptor} {value : HostValue}
    (simple : type.isValueOf (fun _ => true) = true ∨ type.isMatrix = true)
    (typed : HasType type value) : ∃ kind, value.componentKind? = some kind := by
  rcases simple with accepted | accepted
  · rcases typed.components? accepted with ⟨kind, _, _, _, _, found, _⟩
    exact ⟨kind, found⟩
  · cases type with
    | matrix kind columns rows =>
        rcases hasType_matrix.mp typed with ⟨values, rfl, wide, high⟩
        exact ⟨kind, componentKind?_matrix wide high⟩
    | _ => cases accepted

theorem TypeDescriptor.isValueOf_mono {type : TypeDescriptor} {test other : ScalarKind → Bool}
    (accepted : type.isValueOf test = true)
    (weaker : ∀ kind, test kind = true → other kind = true) :
    type.isValueOf other = true := by
  cases type <;> first | exact weaker _ accepted | cases accepted

theorem ScalarKind.isNumeric_of_isFloat {kind : ScalarKind} (float : kind.isFloat = true) :
    kind.isNumeric = true := by
  cases kind <;> first | rfl | cases float

/-! ## Componentwise functions -/

namespace Scalar

theorem mapFloat_transforms {transform : Float → Float} {kind : ScalarKind}
    (float : kind.isFloat = true) : Transforms (mapFloat transform) kind kind := by
  rintro component rfl
  exact ⟨_, if_pos float, kind_ofFloat _ _⟩

theorem zipNumber_combines {combine : Float → Float → Float} {kind : ScalarKind}
    (numeric : kind.isNumeric = true) : Combines (zipNumber combine) kind kind kind := by
  rintro left right rfl _
  exact ⟨_, if_pos numeric, kind_ofFloat _ _⟩

theorem least_combines {kind : ScalarKind} (numeric : kind.isNumeric = true) :
    Combines least kind kind kind := by
  intro left right leftKind rightKind
  subst leftKind
  cases left <;> cases right <;> simp only [Scalar.kind, reduceCtorEq] at rightKind
  case i32.i32 first second => exact ⟨_, rfl, rfl⟩
  case u32.u32 first second => exact ⟨_, rfl, rfl⟩
  all_goals exact zipNumber_combines numeric _ _ rfl rfl

theorem greatest_combines {kind : ScalarKind} (numeric : kind.isNumeric = true) :
    Combines greatest kind kind kind := by
  intro left right leftKind rightKind
  subst leftKind
  cases left <;> cases right <;> simp only [Scalar.kind, reduceCtorEq] at rightKind
  case i32.i32 first second => exact ⟨_, rfl, rfl⟩
  case u32.u32 first second => exact ⟨_, rfl, rfl⟩
  all_goals exact zipNumber_combines numeric _ _ rfl rfl

theorem magnitude_transforms (kind : ScalarKind) : Transforms magnitude kind kind := by
  rintro component rfl
  cases component with
  | bool truth => exact ⟨_, rfl, rfl⟩
  | f16 bits | f32 bits => exact mapFloat_transforms rfl _ rfl
  | i32 number | u32 number => exact ⟨_, rfl, rfl⟩

theorem sign_transforms (kind : ScalarKind) : Transforms sign kind kind := by
  rintro component rfl
  exact ⟨_, rfl, kind_ofFloat _ _⟩

end Scalar

section

variable {type : TypeDescriptor} {value first second third : HostValue}

theorem mapFloats_yields {transform : Float → Float}
    (float : type.isValueOf ScalarKind.isFloat = true)
    (typed : HasType type value) : Yields type (value.mapFloats transform) :=
  mapComponents_yields float typed fun _ => Scalar.mapFloat_transforms

theorem zipNumbers_yields {combine : Float → Float → Float}
    (numeric : type.isValueOf ScalarKind.isNumeric = true)
    (firstTyped : HasType type first) (secondTyped : HasType type second) :
    Yields type (HostValue.zipNumbers combine first second) :=
  zipComponents_yields numeric (fun _ => Scalar.zipNumber_combines) firstTyped secondTyped

theorem arithmetic_yields {operator : BinaryOperator} (arithmetic : operator.isArithmetic = true)
    (numeric : type.isValueOf ScalarKind.isNumeric = true)
    (firstTyped : HasType type first) (secondTyped : HasType type second) :
    Yields type (first.applyBinary operator second) := by
  apply numericBroadcast_yields _ arithmetic firstTyped secondTyped
  cases type with
  | scalar kind => exact if_pos ⟨rfl, numeric⟩
  | vector kind width => exact if_pos ⟨rfl, rfl, numeric⟩
  | _ => cases numeric

/-! ## Sums of products -/

theorem foldlM_some {α β : Type} {step : β → α → Option β} {holds : β → Prop} {items : List α}
    (each : ∀ sum item, item ∈ items → holds sum →
      ∃ next, step sum item = some next ∧ holds next) :
    ∀ start, holds start → ∃ result, items.foldlM step start = some result ∧ holds result := by
  induction items with
  | nil =>
      intro start good
      exact ⟨start, rfl, good⟩
  | cons item rest induction =>
      intro start good
      rcases each start item List.mem_cons_self good with ⟨next, stepped, nextGood⟩
      rcases induction (fun sum other member => each sum other (List.mem_cons_of_mem _ member))
        next nextGood with ⟨result, folded, resultGood⟩
      refine ⟨result, ?_, resultGood⟩
      rw [List.foldlM_cons, stepped]
      exact folded

theorem innerProduct_some (numeric : type.isValueOf ScalarKind.isNumeric = true)
    (firstTyped : HasType type first) (secondTyped : HasType type second) :
    ∃ product kind, HostValue.innerProduct first second = some product ∧
      type.scalarKind? = some kind ∧ product.kind = kind := by
  rcases firstTyped.components? numeric with
    ⟨kind, ones, declared, accepted, oneFound, kindFound, oneKinds⟩
  rcases secondTyped.components? numeric with ⟨_, others, same, _, otherFound, _, otherKinds⟩
  rw [declared] at same
  cases same
  have each : ∀ (sum : Scalar) (pair : Scalar × Scalar), pair ∈ ones.zip others →
      sum.kind = kind → ∃ next, (do
        let product ← Scalar.applyBinary .mul pair.1 pair.2
        Scalar.applyBinary .add sum product) = some next ∧ next.kind = kind := by
    intro sum pair member sumKind
    have members := List.of_mem_zip (a := pair.1) (b := pair.2) member
    rcases @BinaryOperator.combines_arithmetic .mul kind rfl accepted pair.1 pair.2
      (oneKinds _ members.1) (otherKinds _ members.2) with ⟨product, found, productKind⟩
    rw [found]
    exact @BinaryOperator.combines_arithmetic .add kind rfl accepted sum product sumKind
      productKind
  rcases foldlM_some each (Scalar.zero kind) (Scalar.kind_zero kind) with
    ⟨result, folded, resultKind⟩
  refine ⟨result, kind, ?_, declared, resultKind⟩
  rw [HostValue.innerProduct, oneFound, otherFound, kindFound]
  exact folded

theorem roundedLength_yields {kind : ScalarKind} {length : Float}
    (found : value.componentKind? = some kind) :
    Yields (.scalar kind) (value.roundLike length) := by
  refine ⟨.scalar (.ofFloat kind length), ?_,
    hasType_scalar.mpr ⟨_, rfl, Scalar.kind_ofFloat kind length⟩⟩
  rw [HostValue.roundLike, found]
  rfl

theorem StandardFunction.keepIf_eq_some {test : Bool} {result : TypeDescriptor} :
    keepIf test type = some result ↔ test = true ∧ type = result := by
  cases test <;> simp [keepIf]

theorem floatComponent?_eq {result : TypeDescriptor}
    (accepted : StandardFunction.floatComponent? type = some result) :
    ∃ kind, type.isValueOf ScalarKind.isFloat = true ∧ type.scalarKind? = some kind ∧
      result = .scalar kind := by
  cases type with
  | scalar kind | vector kind =>
      rcases StandardFunction.keepIf_eq_some.mp accepted with ⟨float, same⟩
      exact ⟨kind, float, rfl, same.symm⟩
  | _ => cases accepted

theorem euclideanLength_yields {result : TypeDescriptor} {like : HostValue}
    (accepted : StandardFunction.floatComponent? type = some result)
    (typed : HasType type value)
    (likeTyped : HasType type like) :
    Yields result (value.euclideanLength.bind like.roundLike) := by
  rcases floatComponent?_eq accepted with ⟨kind, float, declared, rfl⟩
  rcases typed.components? float with ⟨_, components, _, _, found, _, _⟩
  rcases likeTyped.components? float with ⟨_, _, same, _, _, kindFound, _⟩
  rw [declared] at same
  cases same
  rw [HostValue.euclideanLength, found]
  exact roundedLength_yields kindFound

/-! ## Vectors -/

theorem crossProduct_yields {kind : ScalarKind}
    (firstTyped : HasType (.vector kind .three) first)
    (secondTyped : HasType (.vector kind .three) second) :
    Yields (.vector kind .three) (HostValue.crossProduct first second) := by
  rcases hasType_vector.mp firstTyped with ⟨ones, rfl, oneCount, oneKinds⟩
  rcases hasType_vector.mp secondTyped with ⟨others, rfl, otherCount, otherKinds⟩
  match ones, others, oneCount, otherCount with
  | [x₁, y₁, z₁], [x₂, y₂, z₂], _, _ =>
      have same : x₁.kind = kind := oneKinds x₁ List.mem_cons_self
      refine ⟨_, rfl, hasType_vector.mpr ⟨_, rfl, ?_⟩⟩
      rw [same]
      exact componentsOf_roundedVector rfl

theorem normalized_yields (float : type.isValueOf ScalarKind.isFloat = true)
    (typed : HasType type value) : Yields type value.normalized := by
  rcases typed.components? float with ⟨_, components, _, _, found, _, _⟩
  rw [HostValue.normalized, HostValue.euclideanLength, found]
  exact mapFloats_yields float typed

theorem reflected_yields (float : type.isValueOf ScalarKind.isFloat = true)
    (firstTyped : HasType type first) (secondTyped : HasType type second) :
    Yields type (HostValue.reflected first second) := by
  have numeric := TypeDescriptor.isValueOf_mono float fun _ => ScalarKind.isNumeric_of_isFloat
  rcases innerProduct_some numeric secondTyped firstTyped with ⟨product, _, found, _, _⟩
  rw [HostValue.reflected, found]
  exact (mapFloats_yields float secondTyped).bind fun scaled scaledTyped =>
    arithmetic_yields rfl numeric firstTyped scaledTyped

theorem mixed_yields {weight : TypeDescriptor} {kind : ScalarKind}
    (float : type.isValueOf ScalarKind.isFloat = true) (declared : type.scalarKind? = some kind)
    (weighted : weight = type ∨ weight = .scalar kind)
    (firstTyped : HasType type first) (secondTyped : HasType type second)
    (thirdTyped : HasType weight third) :
    Yields type (HostValue.mixed first second third) := by
  have numeric := TypeDescriptor.isValueOf_mono float fun _ => ScalarKind.isNumeric_of_isFloat
  have kindFloat : kind.isFloat = true := by
    cases type <;> cases declared <;> first | exact float | cases float
  have weightFloat : weight.isValueOf ScalarKind.isFloat = true := by
    rcases weighted with rfl | rfl
    · exact float
    · exact kindFloat
  have scaled : ∀ {value factor : HostValue}, HasType type value → HasType weight factor →
      Yields type (value.applyBinary .mul factor) := by
    intro value factor valueTyped factorTyped
    apply numericBroadcast_yields _ rfl valueTyped factorTyped
    have kindNumeric := ScalarKind.isNumeric_of_isFloat kindFloat
    rcases weighted with rfl | rfl
    · cases weight <;> cases declared <;> simp_all [numericBroadcast, TypeDescriptor.isValueOf]
    · cases type <;> cases declared <;> simp_all [numericBroadcast, TypeDescriptor.isValueOf]
  rw [HostValue.mixed]
  refine (mapFloats_yields weightFloat thirdTyped).bind fun rest restTyped => ?_
  refine (scaled firstTyped restTyped).bind fun left leftTyped => ?_
  refine (scaled secondTyped thirdTyped).bind fun right rightTyped => ?_
  exact arithmetic_yields rfl numeric leftTyped rightTyped

theorem componentsOf_zipWith {α β : Type} {kind : ScalarKind} {count : Nat}
    {combine : α → β → Scalar} {ones : List α} {others : List β}
    (oneCount : ones.length = count) (otherCount : others.length = count)
    (kinds : ∀ one ∈ ones, ∀ other ∈ others, (combine one other).kind = kind) :
    ComponentsOf kind count (List.zipWith combine ones others) := by
  constructor
  · rw [List.length_zipWith, oneCount, otherCount, Nat.min_self]
  · intro component member
    rw [← List.map_uncurry_zip_eq_zipWith] at member
    rcases List.mem_map.mp member with ⟨pair, pairMember, rfl⟩
    have members := List.of_mem_zip (a := pair.1) (b := pair.2) pairMember
    exact kinds _ members.1 _ members.2

theorem selectComponents_typed {kind conditionKind : ScalarKind} {count : Nat}
    {conditions rejected accepted : Components}
    (conditionsTyped : ComponentsOf conditionKind count conditions)
    (rejectedTyped : ComponentsOf kind count rejected)
    (acceptedTyped : ComponentsOf kind count accepted) :
    ComponentsOf kind count (HostValue.selectComponents conditions rejected accepted) := by
  apply componentsOf_zipWith conditionsTyped.1
  · rw [List.length_zip, rejectedTyped.1, acceptedTyped.1, Nat.min_self]
  · intro condition _ pair member
    have members := List.of_mem_zip (a := pair.1) (b := pair.2) member
    split
    · exact acceptedTyped.2 _ members.2
    · exact rejectedTyped.2 _ members.1

theorem selected_yields {condition result : TypeDescriptor}
    (accepted : StandardFunction.selectType type type condition = some result)
    (firstTyped : HasType type first) (secondTyped : HasType type second)
    (thirdTyped : HasType condition third) :
    Yields result (HostValue.selected first second third) := by
  simp only [StandardFunction.selectType, StandardFunction.keepIf_eq_some, Bool.and_eq_true]
    at accepted
  rcases accepted with ⟨⟨⟨_, fits⟩, simple⟩, rfl⟩
  split at fits
  next kind width conditionKind conditionWidth =>
    rw [Bool.and_eq_true, beq_iff_eq, beq_iff_eq] at fits
    rcases fits with ⟨rfl, rfl⟩
    rcases hasType_vector.mp firstTyped with ⟨ones, rfl, oneTyped⟩
    rcases hasType_vector.mp secondTyped with ⟨others, rfl, otherTyped⟩
    rcases hasType_vector.mp thirdTyped with ⟨conditions, rfl, conditionsTyped⟩
    exact ⟨_, rfl, hasType_vector.mpr
      ⟨_, rfl, selectComponents_typed conditionsTyped oneTyped otherTyped⟩⟩
  next =>
    rw [decide_eq_true_iff] at fits
    subst fits
    rcases hasType_scalar.mp thirdTyped with ⟨truth, rfl, same⟩
    cases truth with
    | bool truth =>
        cases truth with
        | false => exact ⟨first, rfl, firstTyped⟩
        | true => exact ⟨second, rfl, secondTyped⟩
    | _ => cases same

theorem smoothTransition_yields (float : type.isValueOf ScalarKind.isFloat = true)
    (firstTyped : HasType type first) (secondTyped : HasType type second)
    (thirdTyped : HasType type third) :
    Yields type (HostValue.smoothTransition first second third) := by
  cases type with
  | scalar kind =>
      rcases hasType_scalar.mp firstTyped with ⟨low, rfl, rfl⟩
      rcases hasType_scalar.mp secondTyped with ⟨high, rfl, _⟩
      rcases hasType_scalar.mp thirdTyped with ⟨number, rfl, _⟩
      exact ⟨_, rfl, hasType_scalar.mpr ⟨_, rfl, Scalar.kind_ofFloat _ _⟩⟩
  | vector kind width =>
      rcases firstTyped.components? float with ⟨_, _, declared, _, _, kindFound, _⟩
      cases declared
      rcases hasType_vector.mp firstTyped with ⟨lows, rfl, lowTyped⟩
      rcases hasType_vector.mp secondTyped with ⟨highs, rfl, highTyped⟩
      rcases hasType_vector.mp thirdTyped with ⟨numbers, rfl, numberTyped⟩
      simp only [HostValue.smoothTransition, HostValue.components?, kindFound,
        Option.bind_eq_bind, Option.bind_some]
      refine ⟨_, rfl, hasType_vector.mpr ⟨_, rfl, ?_⟩⟩
      apply componentsOf_zipWith _ numberTyped.1
      · intro edge _ number _
        exact Scalar.kind_ofFloat _ _
      · rw [List.length_zip, lowTyped.1, highTyped.1, Nat.min_self]
  | _ => cases float

end

/-! ## Matrices -/

section

variable {kind : ScalarKind} {columns rows : VectorWidth} {value : HostValue}

theorem transposed_yields (typed : HasType (.matrix kind columns rows) value) :
    Yields (.matrix kind rows columns) value.transposed := by
  rcases hasType_matrix.mp typed with ⟨values, rfl, wide, high⟩
  have row : ∀ index < rows.count, ∃ picked,
      values.mapM (fun column => column[index]?) = some picked ∧
        ComponentsOf kind columns.count picked := by
    intro index below
    have each : ∀ column ∈ values, ∃ component,
        column[index]? = some component ∧ component.kind = kind := by
      intro column member
      have typed := high column member
      have inside : index < column.length := by
        rw [typed.1]
        exact below
      exact ⟨_, List.getElem?_eq_getElem inside, typed.2 _ (List.getElem_mem inside)⟩
    rcases mapM_some each with ⟨picked, mapped, counted, kinds⟩
    exact ⟨picked, mapped, counted.trans wide, kinds⟩
  cases values with
  | nil => exact absurd wide (Nat.ne_of_lt columns.count_pos)
  | cons column rest =>
      have each : ∀ index ∈ List.range column.length, ∃ picked,
          (column :: rest).mapM (fun column => column[index]?) = some picked ∧
            ComponentsOf kind columns.count picked := by
        intro index member
        rw [(high column List.mem_cons_self).1] at member
        exact row index (List.mem_range.mp member)
      rcases mapM_some each with ⟨results, mapped, counted, typed⟩
      rw [List.length_range, (high column List.mem_cons_self).1] at counted
      refine ⟨.matrix results, ?_, hasType_matrix.mpr ⟨_, rfl, counted, typed⟩⟩
      simp only [HostValue.transposed, List.head?_cons, mapped, Option.bind_eq_bind,
        Option.bind_some]

theorem length_removals {α : Type} (items : List α) :
    ∀ removal ∈ removals items, removal.1 ∈ items ∧ removal.2.length + 1 = items.length ∧
      ∀ other ∈ removal.2, other ∈ items := by
  induction items with
  | nil =>
      intro removal impossible
      cases impossible
  | cons item rest induction =>
      intro removal member
      rw [removals, List.mem_cons] at member
      rcases member with rfl | member
      · exact ⟨List.mem_cons_self, rfl, fun other inside => List.mem_cons_of_mem _ inside⟩
      · rcases List.mem_map.mp member with ⟨⟨taken, others⟩, inner, rfl⟩
        rcases induction _ inner with ⟨inside, counted, kept⟩
        refine ⟨List.mem_cons_of_mem _ inside, ?_, ?_⟩
        · rw [List.length_cons, List.length_cons, counted]
        · intro other otherMember
          cases otherMember with
          | head => exact List.mem_cons_self
          | tail _ otherMember => exact List.mem_cons_of_mem _ (kept other otherMember)

theorem determinant_some : ∀ (size : Nat) (numbers : List (List Float)),
    numbers.length = size → (∀ column ∈ numbers, size ≤ column.length) →
      ∃ result, determinant size numbers = some result
  | 0, _, _, _ => ⟨1, rfl⟩
  | 1, numbers, wide, high => by
      match numbers, wide with
      | [column], _ =>
          have tall := high column List.mem_cons_self
          cases column with
          | nil => cases tall
          | cons entry rest => exact ⟨entry, rfl⟩
  | size + 2, numbers, wide, high => by
      have each : ∀ removal ∈ removals numbers, ∃ term, (do
          let entry ← removal.1.head?
          let minor ← determinant (size + 1) (removal.2.map List.tail)
          some (entry, minor)) = some term ∧ True := by
        intro removal member
        rcases length_removals numbers removal member with ⟨inside, counted, kept⟩
        have tall := high removal.1 inside
        have minorWide : (removal.2.map List.tail).length = size + 1 := by
          rw [List.length_map]
          omega
        have minorHigh : ∀ column ∈ removal.2.map List.tail, size + 1 ≤ column.length := by
          intro column columnMember
          rcases List.mem_map.mp columnMember with ⟨original, originalMember, rfl⟩
          have originalTall := high original (kept original originalMember)
          rw [List.length_tail]
          omega
        rcases determinant_some (size + 1) _ minorWide minorHigh with ⟨minor, found⟩
        cases first : removal.1 with
        | nil =>
            rw [first] at tall
            cases tall
        | cons entry rest => exact ⟨(entry, minor), by rw [found]; rfl, trivial⟩
      rcases mapM_some each with ⟨terms, mapped, _, _⟩
      refine ⟨Double.sum (alternating true terms), ?_⟩
      simp only [Option.bind_eq_bind] at mapped
      simp only [determinant, Option.bind_eq_bind, mapped, Option.bind_some]

theorem determinant?_yields (typed : HasType (.matrix kind columns columns) value) :
    Yields (.scalar kind) value.determinant? := by
  rcases hasType_matrix.mp typed with ⟨values, rfl, wide, high⟩
  have tall : ∀ column ∈ columnNumbers values, values.length ≤ column.length := by
    intro column member
    apply Nat.le_of_eq
    rw [columnNumbers_high high column member, wide]
  rcases determinant_some values.length (columnNumbers values)
    (by rw [columnNumbers, List.length_map]) tall with ⟨result, found⟩
  simp only [HostValue.determinant?, found, Option.bind_eq_bind, Option.bind_some]
  exact roundedLength_yields (componentKind?_matrix wide high)

end

/-! ## Application -/

namespace StandardFunction

variable {function : StandardFunction} {type result : TypeDescriptor}
  {first second third : HostValue}

theorem eq_of_allSame {others : List TypeDescriptor} (same : allSame type others = true) :
    ∀ other ∈ others, other = type := by
  intro other member
  exact of_decide_eq_true (List.all_eq_true.mp same other member)

theorem applyOne_yields (accepted : function.resultOf type [] = some result)
    (single : function.arity = 1) (known : function ≠ .arrayLength)
    (typed : HasType type first) : Yields result (function.applyOne first) := by
  cases function with
  | arrayLength => exact absurd rfl known
  | saturate | sin | cos | tan | sinh | cosh | tanh | asin | acos | atan | exp | exp2 | log
  | log2 | sqrt | inverseSqrt | floor | ceil | round | fract | trunc | radians | degrees =>
      rcases keepIf_eq_some.mp accepted with ⟨float, rfl⟩
      exact mapFloats_yields float typed
  | abs =>
      rcases keepIf_eq_some.mp accepted with ⟨numeric, rfl⟩
      exact mapComponents_yields numeric typed fun kind _ => Scalar.magnitude_transforms kind
  | sign =>
      rcases keepIf_eq_some.mp accepted with ⟨signed, rfl⟩
      exact mapComponents_yields signed typed fun kind _ => Scalar.sign_transforms kind
  | length => exact euclideanLength_yields accepted typed typed
  | normalize =>
      rcases keepIf_eq_some.mp accepted with ⟨float, rfl⟩
      cases type with
      | vector kind width => exact normalized_yields float typed
      | _ => cases float
  | transpose =>
      cases type with
      | matrix kind columns rows =>
          cases accepted
          exact transposed_yields typed
      | _ => cases accepted
  | determinant =>
      cases type with
      | matrix kind columns rows =>
          rcases keepIf_eq_some.mp accepted with ⟨square, rfl⟩
          cases beq_iff_eq.mp square
          exact determinant?_yields typed
      | _ => cases accepted
  | allTrue =>
      rcases keepIf_eq_some.mp accepted with ⟨truth, rfl⟩
      rcases typed.components? truth with ⟨_, components, _, _, found, _, _⟩
      rw [applyOne, HostValue.allHold, found]
      exact ⟨_, rfl, hasType_scalar.mpr ⟨_, rfl, rfl⟩⟩
  | anyTrue =>
      rcases keepIf_eq_some.mp accepted with ⟨truth, rfl⟩
      rcases typed.components? truth with ⟨_, components, _, _, found, _, _⟩
      rw [applyOne, HostValue.anyHolds, found]
      exact ⟨_, rfl, hasType_scalar.mpr ⟨_, rfl, rfl⟩⟩
  | _ => exact absurd single (by decide)

theorem applyTwo_yields {other : TypeDescriptor}
    (accepted : function.resultOf type [other] = some result) (double : function.arity = 2)
    (firstTyped : HasType type first) (secondTyped : HasType other second) :
    Yields result (function.applyTwo first second) := by
  cases function with
  | min | max =>
      rcases keepIf_eq_some.mp accepted with ⟨allowed, rfl⟩
      rcases Bool.and_eq_true_iff.mp allowed with ⟨same, numeric⟩
      cases eq_of_allSame same other List.mem_cons_self
      first
      | exact zipComponents_yields numeric (fun _ => Scalar.least_combines) firstTyped
          secondTyped
      | exact zipComponents_yields numeric (fun _ => Scalar.greatest_combines) firstTyped
          secondTyped
  | atan2 | pow | step =>
      rcases keepIf_eq_some.mp accepted with ⟨allowed, rfl⟩
      rcases Bool.and_eq_true_iff.mp allowed with ⟨same, float⟩
      cases eq_of_allSame same other List.mem_cons_self
      apply zipNumbers_yields _ firstTyped secondTyped
      exact TypeDescriptor.isValueOf_mono float fun _ => ScalarKind.isNumeric_of_isFloat
  | dot =>
      cases type with
      | vector kind width =>
          rcases keepIf_eq_some.mp accepted with ⟨allowed, rfl⟩
          rcases Bool.and_eq_true_iff.mp allowed with ⟨same, numeric⟩
          cases eq_of_allSame same other List.mem_cons_self
          rcases @innerProduct_some (.vector kind width) _ _ numeric firstTyped secondTyped with
            ⟨product, _, found, declared, productKind⟩
          cases declared
          refine ⟨.scalar product, ?_, hasType_scalar.mpr ⟨product, rfl, productKind⟩⟩
          rw [applyTwo, found]
          rfl
      | _ => cases accepted
  | cross =>
      cases type with
      | vector kind width =>
          cases width with
          | three =>
              rcases keepIf_eq_some.mp accepted with ⟨allowed, rfl⟩
              rcases Bool.and_eq_true_iff.mp allowed with ⟨same, _⟩
              cases eq_of_allSame same other List.mem_cons_self
              exact crossProduct_yields firstTyped secondTyped
          | _ => cases accepted
      | _ => cases accepted
  | distance =>
      simp only [resultOf] at accepted
      split at accepted
      next same =>
        cases eq_of_allSame same other List.mem_cons_self
        rcases floatComponent?_eq accepted with ⟨kind, float, _, _⟩
        have numeric := TypeDescriptor.isValueOf_mono float fun _ => ScalarKind.isNumeric_of_isFloat
        rw [applyTwo]
        exact (arithmetic_yields rfl numeric firstTyped secondTyped).bind
          fun difference typed => euclideanLength_yields accepted typed firstTyped
      next => cases accepted
  | reflect =>
      rcases keepIf_eq_some.mp accepted with ⟨allowed, rfl⟩
      rcases Bool.and_eq_true_iff.mp allowed with ⟨same, float⟩
      cases eq_of_allSame same other List.mem_cons_self
      cases type with
      | vector kind width => exact reflected_yields float firstTyped secondTyped
      | _ => cases float
  | _ => exact absurd double (by decide)

theorem applyThree_yields {other last : TypeDescriptor}
    (accepted : function.resultOf type [other, last] = some result)
    (triple : function.arity = 3)
    (firstTyped : HasType type first) (secondTyped : HasType other second)
    (thirdTyped : HasType last third) :
    Yields result (function.applyThree first second third) := by
  cases function with
  | clamp =>
      rcases keepIf_eq_some.mp accepted with ⟨allowed, rfl⟩
      rcases Bool.and_eq_true_iff.mp allowed with ⟨same, numeric⟩
      cases eq_of_allSame same other List.mem_cons_self
      cases eq_of_allSame same last (List.mem_cons_of_mem _ List.mem_cons_self)
      rw [applyThree]
      exact (zipComponents_yields numeric (fun _ => Scalar.greatest_combines) firstTyped
        secondTyped).bind fun raised raisedTyped =>
          zipComponents_yields numeric (fun _ => Scalar.least_combines) raisedTyped thirdTyped
  | mix =>
      simp only [resultOf, mixType, keepIf_eq_some, Bool.and_eq_true, decide_eq_true_eq]
        at accepted
      rcases accepted with ⟨⟨⟨rfl, weighted⟩, float⟩, rfl⟩
      rcases firstTyped.components? float with ⟨kind, _, declared, _⟩
      apply mixed_yields float declared _ firstTyped secondTyped thirdTyped
      rcases weighted with same | weight
      · exact .inl same
      · rw [declared] at weight
        exact .inr (Option.some.inj weight).symm
  | smoothStep =>
      rcases keepIf_eq_some.mp accepted with ⟨allowed, rfl⟩
      rcases Bool.and_eq_true_iff.mp allowed with ⟨same, float⟩
      cases eq_of_allSame same other List.mem_cons_self
      cases eq_of_allSame same last (List.mem_cons_of_mem _ List.mem_cons_self)
      exact smoothTransition_yields float firstTyped secondTyped thirdTyped
  | fma =>
      rcases keepIf_eq_some.mp accepted with ⟨allowed, rfl⟩
      rcases Bool.and_eq_true_iff.mp allowed with ⟨same, float⟩
      cases eq_of_allSame same other List.mem_cons_self
      cases eq_of_allSame same last (List.mem_cons_of_mem _ List.mem_cons_self)
      have numeric := TypeDescriptor.isValueOf_mono float fun _ => ScalarKind.isNumeric_of_isFloat
      rw [applyThree]
      exact (arithmetic_yields rfl numeric firstTyped secondTyped).bind
        fun product productTyped => arithmetic_yields rfl numeric productTyped thirdTyped
  | select =>
      have same : other = type := by
        simp only [resultOf, selectType, keepIf_eq_some, Bool.and_eq_true,
          decide_eq_true_eq] at accepted
        exact accepted.1.1.1
      subst same
      exact selected_yields accepted firstTyped secondTyped thirdTyped
  | _ => exact absurd triple (by decide)

theorem simple_of_resultOf {others : List TypeDescriptor}
    (accepted : function.resultOf type others = some result) (known : function ≠ .arrayLength) :
    type.isValueOf (fun _ => true) = true ∨ type.isMatrix = true := by
  cases type with
  | scalar | vector => exact .inl rfl
  | matrix => exact .inr rfl
  | _ =>
      exfalso
      cases function with
      | arrayLength => exact known rfl
      | mix | select =>
          rcases others with _ | ⟨_, _ | ⟨_, _ | ⟨_, _⟩⟩⟩
          · cases accepted
          · cases accepted
          · simp [resultOf, mixType, selectType, keepIf_eq_some, isFloatValue,
              TypeDescriptor.isValueOf] at accepted
          · cases accepted
      | distance =>
          simp only [resultOf, floatComponent?] at accepted
          split at accepted <;> cases accepted
      | _ =>
          simp [resultOf, keepIf_eq_some, isFloatValue, isNumericValue, isFloatVector,
            floatComponent?, TypeDescriptor.isValueOf] at accepted

theorem arity_le_three (function : StandardFunction) : function.arity ≤ 3 := by
  cases function <;> decide

/-- The result of a standard function has the type that the type checker gives it. -/
theorem apply_yields {types : List TypeDescriptor} {values : List HostValue}
    (accepted : function.resultType types = some result) (known : function ≠ .arrayLength)
    (typed : List.Forall₂ HasType types values) : Yields result (function.apply values) := by
  cases typed with
  | nil => cases accepted
  | @cons type value types values valueTyped rest =>
      simp only [resultType] at accepted
      split at accepted
      next counted =>
        rcases valueTyped.componentKind? (simple_of_resultOf accepted known) with ⟨kind, found⟩
        simp only [apply, List.head?_cons, found, Option.bind_eq_bind, Option.bind_some]
        have few := arity_le_three function
        cases rest with
        | nil => exact applyOne_yields accepted counted.symm known valueTyped
        | cons secondTyped rest =>
            cases rest with
            | nil => exact applyTwo_yields accepted counted.symm valueTyped secondTyped
            | cons thirdTyped rest =>
                cases rest with
                | nil =>
                    exact applyThree_yields accepted counted.symm valueTyped secondTyped
                      thirdTyped
                | cons fourthTyped rest =>
                    simp only [List.length_cons] at counted
                    omega
      next => cases accepted

end StandardFunction

end ShaderKit
