import Mathlib.Data.List.Forall2
import ShaderKit.Host.Evaluation
import ShaderKit.Proofs.Value.Standard

/-!
# Constructors, conversions and swizzles keep to their types
-/

namespace ShaderKit

variable {kind : ScalarKind} {types : List TypeDescriptor} {values : List HostValue}

/-! ## Constructors -/

theorem flattenComponents_some {total : Nat}
    (counted : Recording.componentTotal? kind types = some total)
    (typed : List.Forall₂ HasType types values) :
    ∃ components, flattenComponents values = some components ∧
      ComponentsOf kind total components := by
  induction typed generalizing total with
  | nil =>
      cases counted
      exact ⟨[], rfl, rfl, fun _ impossible => nomatch impossible⟩
  | @cons type value types values valueTyped rest induction =>
      rcases Option.bind_eq_some_iff.mp counted with ⟨first, firstCounted, counted⟩
      rcases Option.bind_eq_some_iff.mp counted with ⟨others, restCounted, same⟩
      cases same
      rcases induction restCounted with ⟨components, flattened, componentsTyped⟩
      cases type with
      | scalar other =>
          rcases hasType_scalar.mp valueTyped with ⟨scalar, rfl, scalarKind⟩
          simp only [Recording.componentCount?] at firstCounted
          split at firstCounted
          next same =>
            cases firstCounted
            refine ⟨scalar :: components, ?_, ?_, ?_⟩
            · rw [flattenComponents, flattened]
              rfl
            · rw [List.length_cons, componentsTyped.1, Nat.add_comm]
            · intro component member
              cases member with
              | head => exact scalarKind.trans same
              | tail _ member => exact componentsTyped.2 component member
          next => cases firstCounted
      | vector other width =>
          rcases hasType_vector.mp valueTyped with ⟨given, rfl, givenTyped⟩
          simp only [Recording.componentCount?] at firstCounted
          split at firstCounted
          next same =>
            cases firstCounted
            refine ⟨given ++ components, ?_, ?_, ?_⟩
            · rw [flattenComponents, flattened]
              rfl
            · rw [List.length_append, givenTyped.1, componentsTyped.1]
            · intro component member
              rcases List.mem_append.mp member with member | member
              · exact (givenTyped.2 component member).trans same
              · exact componentsTyped.2 component member
          next => cases firstCounted
      | _ => cases firstCounted

theorem columnsOf_some {rows : VectorWidth}
    (same : ∀ type ∈ types, type = .vector kind rows) (typed : List.Forall₂ HasType types values) :
    ∃ columns, columnsOf values = some columns ∧ columns.length = types.length ∧
      ∀ column ∈ columns, ComponentsOf kind rows.count column := by
  induction typed with
  | nil => exact ⟨[], rfl, rfl, fun _ impossible => nomatch impossible⟩
  | @cons type value types values valueTyped rest induction =>
      rcases induction fun type member => same type (List.mem_cons_of_mem _ member) with
        ⟨columns, found, counted, columnsTyped⟩
      rw [same type List.mem_cons_self] at valueTyped
      rcases hasType_vector.mp valueTyped with ⟨components, rfl, componentsTyped⟩
      refine ⟨components :: columns, ?_, ?_, ?_⟩
      · rw [columnsOf, found]
        rfl
      · rw [List.length_cons, List.length_cons, counted]
      · intro column member
        cases member with
        | head => exact componentsTyped
        | tail _ member => exact columnsTyped column member

theorem componentTotal?_scalars (same : ∀ type ∈ types, type = .scalar kind) :
    Recording.componentTotal? kind types = some types.length := by
  induction types with
  | nil => rfl
  | cons type types induction =>
      rw [same type List.mem_cons_self, Recording.componentTotal?,
        induction fun type member => same type (List.mem_cons_of_mem _ member)]
      simp [Recording.componentCount?, Nat.add_comm]

theorem cutColumns_shape {height : Nat} (positive : 0 < height) : ∀ (count limit : Nat)
    (components : Components), count ≤ limit → ComponentsOf kind (count * height) components →
      (cutColumns height limit components).length = count ∧
        ∀ column ∈ cutColumns height limit components, ComponentsOf kind height column
  | 0, limit, components, _, typed => by
      rw [Nat.zero_mul] at typed
      cases List.length_eq_zero_iff.mp typed.1
      cases limit <;> exact ⟨rfl, fun _ impossible => nomatch impossible⟩
  | count + 1, limit + 1, components, enough, typed => by
      have counted := typed.1
      rw [Nat.succ_mul] at counted
      cases components with
      | nil =>
          rw [List.length_nil] at counted
          omega
      | cons first others =>
          have rest : ComponentsOf kind (count * height) ((first :: others).drop height) := by
            constructor
            · rw [List.length_drop]
              omega
            · intro component member
              exact typed.2 component (List.mem_of_mem_drop member)
          rcases cutColumns_shape positive count limit _ (Nat.le_of_succ_le_succ enough) rest with
            ⟨length, columns⟩
          simp only [cutColumns]
          refine ⟨by rw [List.length_cons, length], ?_⟩
          intro column member
          rw [List.mem_cons] at member
          rcases member with rfl | member
          · constructor
            · rw [List.length_take]
              omega
            · intro component inside
              exact typed.2 component (List.mem_of_mem_take inside)
          · exact columns column member

theorem hasType_of_all {element : TypeDescriptor} (same : ∀ type ∈ types, type = element)
    (typed : List.Forall₂ HasType types values) :
    values.length = types.length ∧ ∀ value ∈ values, HasType element value := by
  induction typed with
  | nil => exact ⟨rfl, fun _ impossible => absurd impossible List.not_mem_nil⟩
  | @cons type value types values valueTyped rest induction =>
      rcases induction fun type member => same type (List.mem_cons_of_mem _ member) with
        ⟨counted, all⟩
      refine ⟨by rw [List.length_cons, List.length_cons, counted], ?_⟩
      intro other member
      rw [List.mem_cons] at member
      rcases member with rfl | member
      · rw [← same type List.mem_cons_self]
        exact valueTyped
      · exact all other member

theorem membersHaveTypes_zip : ∀ {members : MemberList} {types : List TypeDescriptor}
    {values : List HostValue}, members.toList.map Member.type = types →
      List.Forall₂ HasType types values →
        MembersHaveTypes members ((members.toList.map Member.name).zip values)
  | .nil, _, _, declared, typed => by
      subst declared
      cases typed
      rw [MembersHaveTypes]
      rfl
  | .cons name type attributes rest, _, _, declared, typed => by
      subst declared
      cases typed with
      | @cons _ value _ values valueTyped restTyped =>
          rw [MembersHaveTypes]
          exact ⟨value, _, rfl, valueTyped, membersHaveTypes_zip rfl restTyped⟩

/-- A constructor makes a value of its type from arguments that make one up. -/
theorem compose_yields {type : TypeDescriptor} (accepted : Recording.constructs type types = true)
    (typed : List.Forall₂ HasType types values) : Yields type (type.compose values) := by
  cases type with
  | scalar kind => cases accepted
  | atomic kind => cases accepted
  | vector kind width =>
      simp only [Recording.constructs, Recording.fillsVector] at accepted
      split at accepted
      next total counted =>
        rcases flattenComponents_some counted typed with ⟨components, flattened, componentsTyped⟩
        simp only [TypeDescriptor.compose, flattened, Option.bind_eq_bind, Option.bind_some]
        split
        next single =>
          refine ⟨_, rfl, hasType_vector.mpr ⟨_, rfl, ?_⟩⟩
          exact componentsOf_replicate _ (componentsTyped.2 single List.mem_cons_self)
        next several =>
          have full : total = width.count := by
            simp only [Bool.or_eq_true, Bool.and_eq_true, beq_iff_eq] at accepted
            rcases accepted with full | ⟨_, one⟩
            · exact full
            · have length := componentsTyped.1
              rw [one] at length
              rcases List.length_eq_one_iff.mp length with ⟨single, rfl⟩
              exact absurd rfl (several single)
          rw [full] at componentsTyped
          exact ⟨_, rfl, hasType_vector.mpr ⟨_, rfl, componentsTyped⟩⟩
      next => cases accepted
  | matrix kind columns rows =>
      simp only [Recording.constructs, Bool.or_eq_true, Bool.and_eq_true, beq_iff_eq,
        List.all_eq_true, decide_eq_true_eq] at accepted
      have lengths := typed.length_eq
      rcases accepted with ⟨counted, same⟩ | ⟨counted, same⟩
      · rcases columnsOf_some same typed with ⟨cut, found, length, cutTyped⟩
        rw [TypeDescriptor.compose, if_pos (lengths.symm.trans counted), found]
        exact ⟨_, rfl, hasType_matrix.mpr ⟨_, rfl, length.trans counted, cutTyped⟩⟩
      · rcases flattenComponents_some (componentTotal?_scalars same) typed with
          ⟨components, flattened, componentsTyped⟩
        rw [counted] at componentsTyped
        have several : values.length ≠ columns.count := by
          rw [← lengths, counted]
          cases columns <;> cases rows <;> decide
        rw [TypeDescriptor.compose, if_neg several, flattened]
        refine ⟨_, rfl, hasType_matrix.mpr ⟨_, rfl, ?_⟩⟩
        apply cutColumns_shape rows.count_pos columns.count _ components _ componentsTyped
        rw [componentsTyped.1]
        exact Nat.le_mul_of_pos_right _ rows.count_pos
  | array element length =>
      simp only [Recording.constructs, Bool.and_eq_true, beq_iff_eq, List.all_eq_true,
        decide_eq_true_eq] at accepted
      rcases accepted with ⟨rfl, same⟩
      rcases hasType_of_all same typed with ⟨counted, all⟩
      exact ⟨_, rfl, hasType_array.mpr ⟨_, rfl, beq_iff_eq.mpr counted, all⟩⟩
  | struct label members =>
      simp only [Recording.constructs, decide_eq_true_eq] at accepted
      exact ⟨_, rfl, hasType_struct.mpr ⟨_, rfl, membersHaveTypes_zip accepted typed⟩⟩

/-! ## Conversions, swizzles and helpers -/

theorem convert_yields {source type : TypeDescriptor} {value : HostValue}
    (accepted : Recording.convertible source type = true) (typed : HasType source value) :
    Yields type (Activation.convert type value) := by
  have transforms : ∀ given target : ScalarKind,
      Transforms (fun component => some (component.convert target)) given target := by
    intro given target component _
    exact ⟨_, rfl, Scalar.kind_convert target component⟩
  cases source <;> cases type <;> try cases accepted
  case scalar.scalar source target => exact (transforms source target).scalar typed
  case vector.vector source width target targetWidth =>
    cases beq_iff_eq.mp accepted
    exact (transforms source target).vector typed

theorem pick_yields {width result : VectorWidth} {picked : List Nat} {value : HostValue}
    (below : ∀ position ∈ picked, position < width.count) (counted : picked.length = result.count)
    (typed : HasType (.vector kind width) value) :
    Yields (.vector kind result) (Activation.pick picked value) := by
  rcases hasType_vector.mp typed with ⟨components, rfl, length, kinds⟩
  have each : ∀ position ∈ picked, ∃ component,
      components[position]? = some component ∧ component.kind = kind := by
    intro position member
    have inside : position < components.length := by
      rw [length]
      exact below position member
    exact ⟨_, List.getElem?_eq_getElem inside, kinds _ (List.getElem_mem inside)⟩
  rcases mapM_some each with ⟨results, mapped, resultCount, resultKinds⟩
  refine ⟨.vector results, ?_, hasType_vector.mpr ⟨_, rfl, resultCount.trans counted, resultKinds⟩⟩
  rw [Activation.pick, mapped]
  rfl

theorem Helper.apply_yields {type : TypeDescriptor}
    (comparable : Recording.comparesClosely type = true)
    (typed : List.Forall₂ HasType (Helper.isCloseTo type).parameterTypes values) :
    Yields .bool ((Helper.isCloseTo type).apply values) := by
  match values, typed with
  | [first, second, precision], .cons firstTyped (.cons secondTyped (.cons precisionTyped .nil)) =>
      have parts : ∀ {value : HostValue}, HasType type value →
          ∃ components, value.components? = some components := by
        intro value valueTyped
        cases type with
        | scalar kind =>
            rcases hasType_scalar.mp valueTyped with ⟨scalar, rfl, _⟩
            exact ⟨_, rfl⟩
        | atomic kind =>
            rcases hasType_atomic.mp valueTyped with ⟨scalar, rfl, _⟩
            exact ⟨_, rfl⟩
        | vector kind width =>
            rcases hasType_vector.mp valueTyped with ⟨components, rfl, _⟩
            exact ⟨_, rfl⟩
        | matrix =>
            rw [Recording.comparesClosely, TypeDescriptor.isMatrix, Bool.not_true,
              Bool.and_false] at comparable
            cases comparable
        | _ => cases comparable
      rcases parts firstTyped with ⟨left, leftFound⟩
      rcases parts secondTyped with ⟨right, rightFound⟩
      rcases hasType_scalar.mp precisionTyped with ⟨limit, rfl, _⟩
      rw [apply, leftFound, rightFound]
      exact ⟨_, rfl, hasType_scalar.mpr ⟨_, rfl, rfl⟩⟩

end ShaderKit
