import ShaderKit.Host.Arithmetic
import ShaderKit.Proofs.Value.HasType

/-!
# Operators keep to their types

An operator applied to values of types that it accepts gives a value of the type of its
result.
-/

namespace ShaderKit

def Yields (type : TypeDescriptor) (answer : Option HostValue) : Prop :=
  ∃ value, answer = some value ∧ HasType type value

theorem Yields.bind {type result : TypeDescriptor} {answer : Option HostValue}
    {next : HostValue → Option HostValue} (first : Yields type answer)
    (then_ : ∀ value, HasType type value → Yields result (next value)) :
    Yields result (answer.bind next) := by
  rcases first with ⟨value, rfl, typed⟩
  exact then_ value typed

/-! ## Component by component -/

theorem mapM_some {α β : Type} {transform : α → Option β} {holds : β → Prop} {items : List α}
    (each : ∀ item ∈ items, ∃ result, transform item = some result ∧ holds result) :
    ∃ results, items.mapM transform = some results ∧ results.length = items.length ∧
      ∀ result ∈ results, holds result := by
  induction items with
  | nil => exact ⟨[], rfl, rfl, fun _ impossible => nomatch impossible⟩
  | cons item rest induction =>
      rcases each item List.mem_cons_self with ⟨first, found, good⟩
      rcases induction fun other member => each other (List.mem_cons_of_mem _ member) with
        ⟨others, foundRest, counted, allGood⟩
      refine ⟨first :: others, ?_, ?_, ?_⟩
      · rw [List.mapM_cons, found, foundRest]
        rfl
      · rw [List.length_cons, List.length_cons, counted]
      · intro result member
        cases member with
        | head => exact good
        | tail _ member => exact allGood result member

def Transforms (transform : Scalar → Option Scalar) (kind result : ScalarKind) : Prop :=
  ∀ component, component.kind = kind →
    ∃ answer, transform component = some answer ∧ answer.kind = result

def Combines (combine : Scalar → Scalar → Option Scalar)
    (leftKind rightKind result : ScalarKind) : Prop :=
  ∀ left right, left.kind = leftKind → right.kind = rightKind →
    ∃ answer, combine left right = some answer ∧ answer.kind = result

section

variable {transform : Scalar → Option Scalar} {kind result : ScalarKind} {value : HostValue}

theorem Transforms.components {count : Nat} {components : Components}
    (transforms : Transforms transform kind result)
    (typed : ComponentsOf kind count components) :
    ∃ results, components.mapM transform = some results ∧ ComponentsOf result count results := by
  have each : ∀ component ∈ components,
      ∃ answer, transform component = some answer ∧ answer.kind = result := by
    intro component member
    exact transforms component (typed.2 component member)
  rcases mapM_some each with ⟨results, mapped, counted, kinds⟩
  exact ⟨results, mapped, counted.trans typed.1, kinds⟩

theorem Transforms.scalar (transforms : Transforms transform kind result)
    (typed : HasType (.scalar kind) value) :
    Yields (.scalar result) (value.mapComponents transform) := by
  rcases hasType_scalar.mp typed with ⟨scalar, rfl, same⟩
  rcases transforms scalar same with ⟨answer, found, kept⟩
  refine ⟨.scalar answer, ?_, hasType_scalar.mpr ⟨answer, rfl, kept⟩⟩
  rw [HostValue.mapComponents, found]
  rfl

theorem Transforms.vector {width : VectorWidth} (transforms : Transforms transform kind result)
    (typed : HasType (.vector kind width) value) :
    Yields (.vector result width) (value.mapComponents transform) := by
  rcases hasType_vector.mp typed with ⟨components, rfl, same⟩
  rcases transforms.components same with ⟨results, mapped, kept⟩
  refine ⟨.vector results, ?_, hasType_vector.mpr ⟨results, rfl, kept⟩⟩
  rw [HostValue.mapComponents, mapped]
  rfl

theorem mapComponents_yields {type : TypeDescriptor} {test : ScalarKind → Bool}
    (accepted : type.isValueOf test = true) (typed : HasType type value)
    (transforms : ∀ kind, test kind = true → Transforms transform kind kind) :
    Yields type (value.mapComponents transform) := by
  cases type with
  | scalar kind => exact (transforms kind accepted).scalar typed
  | vector kind width => exact (transforms kind accepted).vector typed
  | _ => cases accepted

end

section

variable {combine : Scalar → Scalar → Option Scalar} {leftKind rightKind result : ScalarKind}
  {left right : HostValue} {width : VectorWidth}

theorem Combines.scalars (combines : Combines combine leftKind rightKind result)
    (first : HasType (.scalar leftKind) left) (second : HasType (.scalar rightKind) right) :
    Yields (.scalar result) (HostValue.zipComponents combine left right) := by
  rcases hasType_scalar.mp first with ⟨one, rfl, oneKind⟩
  rcases hasType_scalar.mp second with ⟨other, rfl, otherKind⟩
  rcases combines one other oneKind otherKind with ⟨answer, found, kept⟩
  refine ⟨.scalar answer, ?_, hasType_scalar.mpr ⟨answer, rfl, kept⟩⟩
  rw [HostValue.zipComponents, found]
  rfl

theorem Combines.vectors (combines : Combines combine leftKind rightKind result)
    (first : HasType (.vector leftKind width) left)
    (second : HasType (.vector rightKind width) right) :
    Yields (.vector result width) (HostValue.zipComponents combine left right) := by
  rcases hasType_vector.mp first with ⟨ones, rfl, oneKinds⟩
  rcases hasType_vector.mp second with ⟨others, rfl, otherKinds⟩
  have each : ∀ pair ∈ ones.zip others,
      ∃ answer, combine pair.1 pair.2 = some answer ∧ answer.kind = result := by
    intro pair member
    have members := List.of_mem_zip (a := pair.1) (b := pair.2) member
    exact combines pair.1 pair.2 (oneKinds.2 _ members.1) (otherKinds.2 _ members.2)
  rcases mapM_some each with ⟨results, mapped, counted, kinds⟩
  have full : results.length = width.count := by
    rw [counted, List.length_zip, oneKinds.1, otherKinds.1, Nat.min_self]
  refine ⟨.vector results, ?_, hasType_vector.mpr ⟨results, rfl, full, kinds⟩⟩
  rw [HostValue.zipComponents, HostValue.zipVectors,
    if_pos (oneKinds.1.trans otherKinds.1.symm), mapped]
  rfl

theorem Combines.vectorScalar (combines : Combines combine leftKind rightKind result)
    (first : HasType (.vector leftKind width) left)
    (second : HasType (.scalar rightKind) right) :
    Yields (.vector result width) (HostValue.zipComponents combine left right) := by
  rcases hasType_vector.mp first with ⟨ones, rfl, oneKinds⟩
  rcases hasType_scalar.mp second with ⟨other, rfl, otherKind⟩
  have transforms : Transforms (fun one => combine one other) leftKind result := by
    intro one same
    exact combines one other same otherKind
  rcases transforms.components oneKinds with ⟨results, mapped, kept⟩
  refine ⟨.vector results, ?_, hasType_vector.mpr ⟨results, rfl, kept⟩⟩
  rw [HostValue.zipComponents, mapped]
  rfl

theorem Combines.scalarVector (combines : Combines combine leftKind rightKind result)
    (first : HasType (.scalar leftKind) left)
    (second : HasType (.vector rightKind width) right) :
    Yields (.vector result width) (HostValue.zipComponents combine left right) := by
  rcases hasType_scalar.mp first with ⟨one, rfl, oneKind⟩
  rcases hasType_vector.mp second with ⟨others, rfl, otherKinds⟩
  have transforms : Transforms (fun other => combine one other) rightKind result := by
    intro other same
    exact combines one other oneKind same
  rcases transforms.components otherKinds with ⟨results, mapped, kept⟩
  refine ⟨.vector results, ?_, hasType_vector.mpr ⟨results, rfl, kept⟩⟩
  rw [HostValue.zipComponents, mapped]
  rfl

theorem zipComponents_yields {type : TypeDescriptor} {test : ScalarKind → Bool}
    (accepted : type.isValueOf test = true)
    (combines : ∀ kind, test kind = true → Combines combine kind kind kind)
    (first : HasType type left) (second : HasType type right) :
    Yields type (HostValue.zipComponents combine left right) := by
  cases type with
  | scalar kind => exact (combines kind accepted).scalars first second
  | vector kind width => exact (combines kind accepted).vectors first second
  | _ => cases accepted

end

/-! ## Scalar operators -/

namespace BinaryOperator

def isArithmetic : BinaryOperator → Bool
  | .add | .sub | .mul | .div | .rem => true
  | _ => false

def isComparison : BinaryOperator → Bool
  | .equal | .notEqual | .less | .lessEqual | .greater | .greaterEqual => true
  | _ => false

def isShift : BinaryOperator → Bool
  | .shiftLeft | .shiftRight => true
  | _ => false

variable {operator : BinaryOperator} {kind : ScalarKind}

theorem applyFloat_arithmetic (arithmetic : operator.isArithmetic = true) (left right : Float) :
    ∃ answer, Scalar.applyFloat operator kind left right = some answer ∧ answer.kind = kind := by
  cases operator <;> simp only [isArithmetic, Bool.false_eq_true] at arithmetic
  all_goals exact ⟨_, rfl, Scalar.kind_ofFloat kind _⟩

theorem combines_arithmetic (arithmetic : operator.isArithmetic = true)
    (numeric : kind.isNumeric = true) :
    Combines (Scalar.applyBinary operator) kind kind kind := by
  rintro left right rfl same
  cases left <;> cases right <;> simp only [Scalar.kind, reduceCtorEq] at same
  case bool.bool => cases numeric
  case f16.f16 | f32.f32 => exact applyFloat_arithmetic arithmetic _ _
  all_goals
    cases operator <;> simp only [isArithmetic, Bool.false_eq_true] at arithmetic
  all_goals exact ⟨_, rfl, rfl⟩

theorem combines_comparison (comparison : operator.isComparison = true) :
    Combines (Scalar.applyBinary operator) kind kind .bool := by
  rintro left right rfl same
  cases left <;> cases right <;> simp only [Scalar.kind, reduceCtorEq] at same
  all_goals
    cases operator <;> simp only [isComparison, Bool.false_eq_true] at comparison
  all_goals exact ⟨_, rfl, rfl⟩

theorem combines_shift (shift : operator.isShift = true) (integer : kind.isInteger = true) :
    Combines (Scalar.applyBinary operator) kind .u32 kind := by
  rintro left right rfl same
  cases right <;> simp only [Scalar.kind, reduceCtorEq] at same
  cases left <;> simp only [Scalar.kind, ScalarKind.isInteger, Bool.false_eq_true] at integer
  all_goals
    cases operator <;> simp only [isShift, Bool.false_eq_true] at shift
  all_goals exact ⟨_, rfl, rfl⟩

theorem combines_bitwise (bitwise : operator = .bitAnd ∨ operator = .bitOr)
    (accepted : (kind.isInteger || (true && kind == .bool)) = true) :
    Combines (Scalar.applyBinary operator) kind kind kind := by
  rintro left right rfl same
  cases left <;> cases right <;> simp only [Scalar.kind, reduceCtorEq] at same
  case f16.f16 | f32.f32 => cases accepted
  all_goals rcases bitwise with rfl | rfl <;> exact ⟨_, rfl, rfl⟩

theorem combines_bitXor (integer : (kind.isInteger || (false && kind == .bool)) = true) :
    Combines (Scalar.applyBinary .bitXor) kind kind kind := by
  rintro left right rfl same
  cases left <;> cases right <;> simp only [Scalar.kind, reduceCtorEq] at same
  case bool.bool | f16.f16 | f32.f32 => cases integer
  all_goals exact ⟨_, rfl, rfl⟩

theorem combines_logical (logical : operator = .logicalAnd ∨ operator = .logicalOr) :
    Combines (Scalar.applyBinary operator) .bool .bool .bool := by
  intro left right leftSame rightSame
  cases left <;> simp only [Scalar.kind, reduceCtorEq] at leftSame
  cases right <;> simp only [Scalar.kind, reduceCtorEq] at rightSame
  rcases logical with rfl | rfl <;> exact ⟨_, rfl, rfl⟩

end BinaryOperator

theorem UnaryOperator.transforms {operator : UnaryOperator} {kind : ScalarKind}
    (accepted : operator.accepts kind = true) :
    Transforms (Scalar.applyUnary operator) kind kind := by
  rintro component rfl
  cases operator <;> cases component <;>
    simp only [accepts, Scalar.kind, ScalarKind.isSigned, ScalarKind.isInteger,
      Bool.false_eq_true, beq_iff_eq, reduceCtorEq] at accepted
  all_goals exact ⟨_, rfl, rfl⟩

/-- The result of a unary operator has the type that the type checker gives it. -/
theorem UnaryOperator.apply_yields {operator : UnaryOperator} {type result : TypeDescriptor}
    {value : HostValue} (accepted : operator.resultType type = some result)
    (typed : HasType type value) : Yields result (value.applyUnary operator) := by
  unfold resultType at accepted
  split at accepted
  next allowed =>
    cases accepted
    exact mapComponents_yields allowed typed fun kind => transforms
  next => cases accepted

/-! ## Matrices as numbers -/

theorem VectorWidth.count_pos (width : VectorWidth) : 0 < width.count := by
  cases width <;> decide

section

variable {kind : ScalarKind} {columns rows : VectorWidth}

theorem componentsOf_roundedVector {count : Nat} {numbers : List Float}
    (counted : numbers.length = count) : ComponentsOf kind count (roundedVector kind numbers) := by
  constructor
  · rw [roundedVector, List.length_map]
    exact counted
  · intro component member
    rcases List.mem_map.mp member with ⟨number, _, rfl⟩
    exact Scalar.kind_ofFloat kind number

theorem hasType_roundedMatrix {numbers : List (List Float)}
    (wide : numbers.length = columns.count)
    (high : ∀ column ∈ numbers, column.length = rows.count) :
    HasType (.matrix kind columns rows) (roundedMatrix kind numbers) := by
  refine hasType_matrix.mpr ⟨_, rfl, ?_, ?_⟩
  · rw [List.length_map]
    exact wide
  · intro column member
    rcases List.mem_map.mp member with ⟨original, originalMember, rfl⟩
    exact componentsOf_roundedVector (high original originalMember)

theorem columnNumbers_high {values : List Components}
    (typed : ∀ column ∈ values, ComponentsOf kind rows.count column) :
    ∀ column ∈ columnNumbers values, column.length = rows.count := by
  intro column member
  rcases List.mem_map.mp member with ⟨original, originalMember, rfl⟩
  rw [List.length_map]
  exact (typed original originalMember).1

theorem columnNumbers_wide {values : List Components} (wide : values.length = columns.count) :
    (columnNumbers values).length = columns.count := by
  rw [columnNumbers, List.length_map]
  exact wide

theorem hasType_scaledMatrix {values : List Components} (factor : Float)
    (wide : values.length = columns.count)
    (high : ∀ column ∈ values, ComponentsOf kind rows.count column) :
    HasType (.matrix kind columns rows) (roundedMatrix kind
      ((columnNumbers values).map fun column => column.map (· * factor))) := by
  apply hasType_roundedMatrix
  · rw [List.length_map]
    exact columnNumbers_wide wide
  · intro column member
    rcases List.mem_map.mp member with ⟨original, originalMember, rfl⟩
    rw [List.length_map]
    exact columnNumbers_high high original originalMember

theorem rowCount_eq {numbers : List (List Float)} (wide : numbers.length = columns.count)
    (high : ∀ column ∈ numbers, column.length = rows.count) :
    rowCount numbers = rows.count := by
  cases numbers with
  | nil => exact absurd wide (Nat.ne_of_lt columns.count_pos)
  | cons column rest => exact high column List.mem_cons_self

theorem rowTimesVector_some (vector : List Float) {numbers : List (List Float)} {row : Nat}
    (high : ∀ column ∈ numbers, row < column.length) :
    ∃ result, rowTimesVector numbers vector row = some result := by
  have each : ∀ pair ∈ numbers.zip vector,
      ∃ product, (pair.1[row]?.map (· * pair.2)) = some product ∧ True := by
    intro pair member
    have below := high pair.1 (List.of_mem_zip (a := pair.1) (b := pair.2) member).1
    exact ⟨_, by rw [List.getElem?_eq_getElem below]; rfl, trivial⟩
  rcases mapM_some each with ⟨products, mapped, _, _⟩
  refine ⟨Double.sum products, ?_⟩
  simp only [rowTimesVector, mapped, Option.bind_eq_bind, Option.bind_some]

theorem matrixTimesVector_some (vector : List Float) {numbers : List (List Float)}
    (wide : numbers.length = columns.count)
    (high : ∀ column ∈ numbers, column.length = rows.count) :
    ∃ result, matrixTimesVector numbers vector = some result ∧ result.length = rows.count := by
  have each : ∀ row ∈ List.range (rowCount numbers),
      ∃ result, rowTimesVector numbers vector row = some result ∧ True := by
    intro row member
    rw [rowCount_eq wide high] at member
    rcases rowTimesVector_some vector fun column inside =>
      (high column inside).symm ▸ List.mem_range.mp member with ⟨result, found⟩
    exact ⟨result, found, trivial⟩
  rcases mapM_some each with ⟨results, mapped, counted, _⟩
  refine ⟨results, mapped, ?_⟩
  rw [counted, List.length_range, rowCount_eq wide high]

theorem componentKind?_matrix {values : List Components} (wide : values.length = columns.count)
    (high : ∀ column ∈ values, ComponentsOf kind rows.count column) :
    (HostValue.matrix values).componentKind? = some kind := by
  cases values with
  | nil => exact absurd wide (Nat.ne_of_lt columns.count_pos)
  | cons column rest =>
      have first := high column List.mem_cons_self
      cases column with
      | nil => exact absurd first.1 (Nat.ne_of_lt rows.count_pos)
      | cons component others =>
          rw [HostValue.componentKind?]
          exact congrArg some (first.2 component List.mem_cons_self)

end

/-! ## Binary operators -/

section

variable {operator : BinaryOperator} {left right result : TypeDescriptor}
  {first second : HostValue}

theorem hasType_of_isMatrix {type : TypeDescriptor} {columns : List Components}
    (typed : HasType type (.matrix columns)) : type.isMatrix = true := by
  cases type with
  | matrix => rfl
  | _ => exact absurd typed (by simp [HasType])

theorem applyBinary_eq_zip (firstTyped : HasType left first) (secondTyped : HasType right second)
    (leftPlain : left.isMatrix = false) (rightPlain : right.isMatrix = false) :
    first.applyBinary operator second =
      HostValue.zipComponents (Scalar.applyBinary operator) first second := by
  cases first with
  | matrix columns =>
      rw [hasType_of_isMatrix firstTyped] at leftPlain
      cases leftPlain
  | _ =>
      cases second with
      | matrix columns =>
          rw [hasType_of_isMatrix secondTyped] at rightPlain
          cases rightPlain
      | _ => rfl

theorem numericBroadcast_yields (accepted : numericBroadcast left right = some result)
    (arithmetic : operator.isArithmetic = true)
    (firstTyped : HasType left first) (secondTyped : HasType right second) :
    Yields result (first.applyBinary operator second) := by
  unfold numericBroadcast at accepted
  split at accepted <;> try split at accepted
  all_goals cases accepted
  next kind _ allowed =>
    rcases allowed with ⟨rfl, numeric⟩
    rw [applyBinary_eq_zip firstTyped secondTyped rfl rfl]
    exact (BinaryOperator.combines_arithmetic arithmetic numeric).scalars firstTyped secondTyped
  next kind _ _ width allowed =>
    rcases allowed with ⟨rfl, rfl, numeric⟩
    rw [applyBinary_eq_zip firstTyped secondTyped rfl rfl]
    exact (BinaryOperator.combines_arithmetic arithmetic numeric).vectors firstTyped secondTyped
  next kind width _ allowed =>
    rcases allowed with ⟨rfl, numeric⟩
    rw [applyBinary_eq_zip firstTyped secondTyped rfl rfl]
    exact (BinaryOperator.combines_arithmetic arithmetic numeric).vectorScalar firstTyped
      secondTyped
  next scalarKind kind width allowed =>
    rcases allowed with ⟨rfl, numeric⟩
    rw [applyBinary_eq_zip firstTyped secondTyped rfl rfl]
    exact (BinaryOperator.combines_arithmetic arithmetic numeric).scalarVector firstTyped
      secondTyped

theorem comparison_yields (accepted : left.comparison? = some result)
    (comparison : operator.isComparison = true)
    (firstTyped : HasType left first) (secondTyped : HasType left second) :
    Yields result (first.applyBinary operator second) := by
  cases left with
  | scalar kind =>
      cases accepted
      rw [applyBinary_eq_zip firstTyped secondTyped rfl rfl]
      exact (BinaryOperator.combines_comparison comparison).scalars firstTyped secondTyped
  | vector kind width =>
      cases accepted
      rw [applyBinary_eq_zip firstTyped secondTyped rfl rfl]
      exact (BinaryOperator.combines_comparison comparison).vectors firstTyped secondTyped
  | _ => cases accepted

theorem zipMatrices_shape (combine : Float → Float → Float) {wide high : Nat}
    {one other : List (List Float)} (oneWide : one.length = wide) (otherWide : other.length = wide)
    (oneHigh : ∀ column ∈ one, column.length = high)
    (otherHigh : ∀ column ∈ other, column.length = high) :
    (zipMatrices combine one other).length = wide ∧
      ∀ column ∈ zipMatrices combine one other, column.length = high := by
  constructor
  · rw [zipMatrices, List.length_zipWith, oneWide, otherWide, Nat.min_self]
  · intro column member
    rw [zipMatrices, ← List.map_uncurry_zip_eq_zipWith] at member
    rcases List.mem_map.mp member with ⟨pair, pairMember, rfl⟩
    have members := List.of_mem_zip (a := pair.1) (b := pair.2) pairMember
    change (List.zipWith combine pair.1 pair.2).length = high
    rw [List.length_zipWith, oneHigh _ members.1, otherHigh _ members.2, Nat.min_self]

theorem additive_yields (accepted : additiveType left right = some result)
    (additive : operator = .add ∨ operator = .sub)
    (firstTyped : HasType left first) (secondTyped : HasType right second) :
    Yields result (first.applyBinary operator second) := by
  unfold additiveType at accepted
  split at accepted
  next matrices =>
    split at accepted
    next same =>
      cases accepted
      subst same
      cases left with
      | matrix kind columns rows =>
          rcases hasType_matrix.mp firstTyped with ⟨ones, rfl, oneWide, oneTyped⟩
          rcases hasType_matrix.mp secondTyped with ⟨others, rfl, otherWide, otherTyped⟩
          have shape (combine : Float → Float → Float) :=
            zipMatrices_shape combine (columnNumbers_wide oneWide)
              (columnNumbers_wide otherWide) (columnNumbers_high oneTyped)
              (columnNumbers_high otherTyped)
          rcases additive with rfl | rfl
          · refine ⟨_, ?_, hasType_roundedMatrix (shape (· + ·)).1 (shape (· + ·)).2⟩
            simp only [HostValue.applyBinary, componentKind?_matrix oneWide oneTyped,
              applyMatrices, Option.bind_eq_bind, Option.bind_some]
          · refine ⟨_, ?_, hasType_roundedMatrix (shape (· - ·)).1 (shape (· - ·)).2⟩
            simp only [HostValue.applyBinary, componentKind?_matrix oneWide oneTyped,
              applyMatrices, Option.bind_eq_bind, Option.bind_some]
      | _ => cases matrices
    next => cases accepted
  next =>
    apply numericBroadcast_yields accepted _ firstTyped secondTyped
    rcases additive with rfl | rfl <;> rfl

theorem product_yields (accepted : productType left right = some result)
    (firstTyped : HasType left first) (secondTyped : HasType right second) :
    Yields result (first.applyBinary .mul second) := by
  unfold productType at accepted
  split at accepted
  next kind columns rows _ rightColumns rightRows =>
    split at accepted
    next fits =>
      cases accepted
      rcases fits with ⟨rfl, rfl⟩
      rcases hasType_matrix.mp firstTyped with ⟨ones, rfl, oneWide, oneTyped⟩
      rcases hasType_matrix.mp secondTyped with ⟨others, rfl, otherWide, otherTyped⟩
      have each : ∀ column ∈ columnNumbers others, ∃ product,
          matrixTimesVector (columnNumbers ones) column = some product ∧
            product.length = rows.count := by
        intro column _
        exact matrixTimesVector_some column (columnNumbers_wide oneWide)
          (columnNumbers_high oneTyped)
      rcases mapM_some each with ⟨products, mapped, counted, high⟩
      refine ⟨_, ?_, hasType_roundedMatrix
        (counted.trans (columnNumbers_wide otherWide)) high⟩
      simp only [HostValue.applyBinary, componentKind?_matrix oneWide oneTyped, applyMatrices,
        mapped, Option.bind_eq_bind, Option.bind_some]
    next => cases accepted
  next kind columns rows _ width =>
    split at accepted
    next fits =>
      cases accepted
      rcases hasType_matrix.mp firstTyped with ⟨ones, rfl, oneWide, oneTyped⟩
      rcases hasType_vector.mp secondTyped with ⟨components, rfl, _⟩
      rcases matrixTimesVector_some (components.map Scalar.toFloat) (columnNumbers_wide oneWide)
        (columnNumbers_high oneTyped) with ⟨product, found, counted⟩
      refine ⟨.vector (roundedVector kind product), ?_,
        hasType_vector.mpr ⟨_, rfl, componentsOf_roundedVector counted⟩⟩
      simp only [HostValue.applyBinary, HostValue.applyProduct, if_pos,
        componentKind?_matrix oneWide oneTyped, found, Option.bind_eq_bind, Option.bind_some]
    next => cases accepted
  next _ width kind columns rows =>
    split at accepted
    next fits =>
      cases accepted
      rcases hasType_vector.mp firstTyped with ⟨components, rfl, _⟩
      rcases hasType_matrix.mp secondTyped with ⟨others, rfl, otherWide, otherTyped⟩
      have counted : (vectorTimesMatrix (components.map Scalar.toFloat)
          (columnNumbers others)).length = columns.count := by
        rw [vectorTimesMatrix, List.length_map]
        exact columnNumbers_wide otherWide
      refine ⟨.vector (roundedVector kind _), ?_,
        hasType_vector.mpr ⟨_, rfl, componentsOf_roundedVector counted⟩⟩
      simp only [HostValue.applyBinary, HostValue.applyProduct, if_pos,
        componentKind?_matrix otherWide otherTyped, Option.bind_eq_bind, Option.bind_some]
    next => cases accepted
  next kind columns rows scalarKind =>
    split at accepted
    next same =>
      cases accepted
      rcases hasType_matrix.mp firstTyped with ⟨ones, rfl, oneWide, oneTyped⟩
      rcases hasType_scalar.mp secondTyped with ⟨factor, rfl, _⟩
      refine ⟨_, ?_, hasType_scaledMatrix factor.toFloat oneWide oneTyped⟩
      simp only [HostValue.applyBinary, HostValue.applyProduct, if_pos,
        componentKind?_matrix oneWide oneTyped, Option.bind_eq_bind, Option.bind_some]
    next => cases accepted
  next scalarKind kind columns rows =>
    split at accepted
    next same =>
      cases accepted
      rcases hasType_scalar.mp firstTyped with ⟨factor, rfl, _⟩
      rcases hasType_matrix.mp secondTyped with ⟨others, rfl, otherWide, otherTyped⟩
      refine ⟨_, ?_, hasType_scaledMatrix factor.toFloat otherWide otherTyped⟩
      simp only [HostValue.applyBinary, HostValue.applyProduct, if_pos,
        componentKind?_matrix otherWide otherTyped, Option.bind_eq_bind, Option.bind_some]
    next => cases accepted
  next => exact numericBroadcast_yields accepted rfl firstTyped secondTyped

theorem bitwise_yields {onBool : Bool} (accepted : bitwiseType onBool left right = some result)
    (combines : ∀ kind, (kind.isInteger || (onBool && kind == .bool)) = true →
      Combines (Scalar.applyBinary operator) kind kind kind)
    (firstTyped : HasType left first) (secondTyped : HasType right second) :
    Yields result (first.applyBinary operator second) := by
  unfold bitwiseType at accepted
  split at accepted
  next allowed =>
    cases accepted
    rcases allowed with ⟨rfl, allowed⟩
    have plain : left.isMatrix = false := by
      cases left <;> first | rfl | cases allowed
    rw [applyBinary_eq_zip firstTyped secondTyped plain plain]
    exact zipComponents_yields allowed combines firstTyped secondTyped
  next => cases accepted

theorem shift_yields (accepted : shiftType left right = some result)
    (shift : operator.isShift = true)
    (firstTyped : HasType left first) (secondTyped : HasType right second) :
    Yields result (first.applyBinary operator second) := by
  unfold shiftType at accepted
  split at accepted <;> try split at accepted
  all_goals cases accepted
  next kind integer =>
    rw [applyBinary_eq_zip firstTyped secondTyped rfl rfl]
    exact (BinaryOperator.combines_shift shift integer).scalars firstTyped secondTyped
  next kind width amounts allowed =>
    rcases allowed with ⟨integer, rfl⟩
    rw [applyBinary_eq_zip firstTyped secondTyped rfl rfl]
    exact (BinaryOperator.combines_shift shift integer).vectors firstTyped secondTyped

theorem logical_yields (logical : operator = .logicalAnd ∨ operator = .logicalOr)
    (accepted : (if left = .bool ∧ right = .bool then some TypeDescriptor.bool else none) =
      some result)
    (firstTyped : HasType left first) (secondTyped : HasType right second) :
    Yields result (first.applyBinary operator second) := by
  split at accepted
  next allowed =>
    cases accepted
    rcases allowed with ⟨rfl, rfl⟩
    rw [applyBinary_eq_zip firstTyped secondTyped rfl rfl]
    exact (BinaryOperator.combines_logical logical).scalars firstTyped secondTyped
  next => cases accepted

theorem equality_yields (accepted : equalityType left right = some result)
    (comparison : operator.isComparison = true)
    (firstTyped : HasType left first) (secondTyped : HasType right second) :
    Yields result (first.applyBinary operator second) := by
  unfold equalityType at accepted
  split at accepted
  next same =>
    subst same
    exact comparison_yields accepted comparison firstTyped secondTyped
  next => cases accepted

theorem order_yields (accepted : orderType left right = some result)
    (comparison : operator.isComparison = true)
    (firstTyped : HasType left first) (secondTyped : HasType right second) :
    Yields result (first.applyBinary operator second) := by
  unfold orderType at accepted
  split at accepted
  next allowed =>
    rcases allowed with ⟨rfl, _⟩
    exact comparison_yields accepted comparison firstTyped secondTyped
  next => cases accepted

theorem BinaryOperator.apply_yields (accepted : operator.resultType left right = some result)
    (firstTyped : HasType left first) (secondTyped : HasType right second) :
    Yields result (first.applyBinary operator second) := by
  cases operator with
  | add => exact additive_yields accepted (.inl rfl) firstTyped secondTyped
  | sub => exact additive_yields accepted (.inr rfl) firstTyped secondTyped
  | mul => exact product_yields accepted firstTyped secondTyped
  | div | rem =>
      rw [resultType, quotientType] at accepted
      split at accepted
      next => cases accepted
      next => exact numericBroadcast_yields accepted rfl firstTyped secondTyped
  | equal | notEqual => exact equality_yields accepted rfl firstTyped secondTyped
  | less | lessEqual | greater | greaterEqual =>
      exact order_yields accepted rfl firstTyped secondTyped
  | logicalAnd => exact logical_yields (.inl rfl) accepted firstTyped secondTyped
  | logicalOr => exact logical_yields (.inr rfl) accepted firstTyped secondTyped
  | bitAnd =>
      exact bitwise_yields accepted (fun _ => combines_bitwise (.inl rfl)) firstTyped secondTyped
  | bitOr =>
      exact bitwise_yields accepted (fun _ => combines_bitwise (.inr rfl)) firstTyped secondTyped
  | bitXor => exact bitwise_yields accepted (fun _ => combines_bitXor) firstTyped secondTyped
  | shiftLeft | shiftRight => exact shift_yields accepted rfl firstTyped secondTyped

end

end ShaderKit
