import ShaderKit.Host.Place
import ShaderKit.Proofs.Value.HasType
import ShaderKit.Recording.Recorder

/-!
# Paths that types allow

A path that a type allows leads from a value of the type to a part that has the type at
the end of the path, unless one of its indices is out of range.
-/

namespace ShaderKit

/-- The type at the end of a path. Indices are not compared with lengths. -/
def TypeDescriptor.follow : TypeDescriptor → ValuePath → Option TypeDescriptor
  | type, [] => some type
  | type, .member name :: rest => do
      let (_, member) ← type.members.find? name
      member.type.follow rest
  | type, .index _ :: rest => do
      let indexing ← Recording.indexing? type
      indexing.element.follow rest
termination_by structural _ path => path

def HostValue.extent : HostValue → Nat
  | .vector components => components.length
  | .matrix columns => columns.length
  | .array elements => elements.length
  | _ => 0

/-- Every index of the path is in range for the part that it is applied to. -/
def HostValue.PathInRange (whole : HostValue) (path : ValuePath) : Prop :=
  ∀ front position rest part, path = front ++ .index position :: rest →
    whole.at? front = some part → position < part.extent

/-! ## Paths step by step -/

theorem TypeDescriptor.follow_append (front : ValuePath) : ∀ (type : TypeDescriptor)
    (rest : ValuePath), type.follow (front ++ rest) =
      (type.follow front).bind fun inner => inner.follow rest := by
  induction front with
  | nil =>
      intro type rest
      rfl
  | cons segment front induction =>
      intro type rest
      cases segment with
      | member name =>
          simp only [List.cons_append, follow, Option.bind_eq_bind, Option.bind_assoc]
          congr 1
          funext found
          exact induction found.2.type rest
      | index position =>
          simp only [List.cons_append, follow, Option.bind_eq_bind, Option.bind_assoc]
          congr 1
          funext indexing
          exact induction indexing.element rest

theorem TypeDescriptor.follow_cons {type inner : TypeDescriptor} {segment : PathSegment}
    {rest : ValuePath} (followed : type.follow (segment :: rest) = some inner) :
    ∃ next, type.follow [segment] = some next ∧ next.follow rest = some inner := by
  have split := follow_append [segment] type rest
  rw [List.singleton_append, followed] at split
  exact Option.bind_eq_some_iff.mp split.symm

theorem TypeDescriptor.follow_concat {type next inner : TypeDescriptor}
    {path : ValuePath} {segment : PathSegment} (followed : type.follow path = some next)
    (last : next.follow [segment] = some inner) :
    type.follow (path ++ [segment]) = some inner := by
  rw [follow_append, followed]
  exact last

namespace HostValue

variable {whole part new : HostValue} {segment : PathSegment}

theorem at?_cons (whole : HostValue) (segment : PathSegment) (rest : ValuePath) :
    whole.at? (segment :: rest) = (whole.at? [segment]).bind fun part => part.at? rest := by
  cases whole <;> cases segment <;> try rfl
  case struct.member members name =>
      simp only [at?, Option.bind_eq_bind, Option.bind_assoc]
      rfl
  case array.index elements position =>
      simp only [at?, Option.bind_eq_bind, Option.bind_assoc]
      rfl
  case matrix.index columns position =>
      simp only [at?, Option.bind_eq_bind, Option.bind_assoc]
      rfl
  case vector.index components position =>
      cases rest with
      | nil => simp [at?]
      | cons next rest =>
          cases found : components[position]? with
          | none => simp [at?, found]
          | some component => simp [at?, found]

theorem at?_append (front : ValuePath) (whole : HostValue) (rest : ValuePath) :
    whole.at? (front ++ rest) = (whole.at? front).bind fun part => part.at? rest := by
  induction front generalizing whole with
  | nil => rfl
  | cons segment front induction =>
      rw [List.cons_append, at?_cons whole segment (front ++ rest), at?_cons whole segment front,
        Option.bind_assoc]
      congr 1
      funext part
      exact induction part

theorem replaceAt_length {α : Type} {entries replaced : List α} {position : Nat} {entry : α}
    (done : replaceAt entries position entry = some replaced) :
    replaced.length = entries.length := by
  unfold replaceAt at done
  split at done
  · cases done
    exact List.length_set
  · cases done

theorem replaceComponent_length {components replaced : Components} {position : Nat}
    (done : replaceComponent components position new = some replaced) :
    replaced.length = components.length := by
  rcases Option.bind_eq_some_iff.mp done with ⟨component, _, done⟩
  exact replaceAt_length done

theorem setAt?_column {columns : List Components} {column : Components} {position : Nat}
    (found : columns[position]? = some column) (replacement : HostValue) :
    setAt? replacement (.matrix columns) [.index position] =
      (replaceInColumn column replacement []).map fun replaced =>
        .matrix (columns.set position replaced) := by
  simp only [setAt?, found, Option.map_eq_bind, Function.comp_def]
  rfl

theorem setAt?_cons (found : whole.at? [segment] = some part) (rest : ValuePath) :
    setAt? new whole (segment :: rest) =
      (setAt? new part rest).bind fun replaced => setAt? replaced whole [segment] := by
  cases whole <;> cases segment <;> try cases found
  case struct.member members name =>
      rcases Option.bind_eq_some_iff.mp found with ⟨inner, known, same⟩
      cases same
      simp [setAt?, known]
  case array.index elements position =>
      rcases Option.bind_eq_some_iff.mp found with ⟨inner, known, same⟩
      cases same
      simp [setAt?, known]
  case vector.index components position =>
      rcases Option.bind_eq_some_iff.mp found with ⟨component, known, same⟩
      cases same
      cases rest with
      | nil => rfl
      | cons next rest => simp [setAt?]
  case matrix.index columns position =>
      rcases Option.bind_eq_some_iff.mp found with ⟨column, known, same⟩
      cases same
      match rest with
      | [] => rfl
      | [.index row] =>
          simp only [setAt?, known, replaceInColumn, Option.bind_eq_bind, Option.bind_some]
          cases done : replaceComponent column row new with
          | none => rfl
          | some replaced =>
              simp [replaceComponent_length done]
      | .member name :: rest => simp [setAt?, known, replaceInColumn]
      | .index row :: next :: rest => simp [setAt?, known, replaceInColumn]

theorem setAt?_of_missing (missing : whole.at? [segment] = none) (rest : ValuePath) :
    setAt? new whole (segment :: rest) = none := by
  cases whole <;> cases segment <;> try rfl
  case struct.member members name =>
      have unknown : memberIn? name members = none := by
        simpa [at?] using missing
      simp [setAt?, unknown]
  case array.index elements position =>
      have beyond : elements[position]? = none := by
        simpa [at?] using missing
      simp only [setAt?, beyond, Option.bind_eq_bind, Option.bind_none]
  case matrix.index columns position =>
      have beyond : columns[position]? = none := by
        rw [Option.eq_none_iff_forall_ne_some]
        simpa [at?] using missing
      simp only [setAt?, beyond, Option.bind_eq_bind, Option.bind_none]
  case vector.index components position =>
      have beyond : components[position]? = none := by
        rw [Option.eq_none_iff_forall_ne_some]
        simpa [at?] using missing
      have beyond : ¬ position < components.length :=
        Nat.not_lt_of_le (List.getElem?_eq_none_iff.mp beyond)
      cases rest with
      | nil => cases new <;> simp [setAt?, replaceComponent, replaceAt, scalar?, beyond]
      | cons next rest => rfl

end HostValue

/-! ## Members by name -/

theorem MembersHaveTypes.memberIn? : ∀ {members : MemberList}
    {values : List (String × HostValue)} {name : String} {position : Nat} {member : Member},
    MembersHaveTypes members values → members.find? name = some (position, member) →
      ∃ value, HostValue.memberIn? name values = some value ∧ HasType member.type value
  | .nil, _, _, _, _, _, found => by
      cases found
  | .cons first type attributes rest, values, name, position, member, typed, found => by
      rw [MembersHaveTypes] at typed
      rcases typed with ⟨value, others, rfl, valueTyped, restTyped⟩
      rw [MemberList.find?] at found
      rw [HostValue.memberIn?]
      split at found
      next same =>
        cases found
        rw [if_pos same]
        exact ⟨value, rfl, valueTyped⟩
      next different =>
        rcases Option.map_eq_some_iff.mp found with ⟨⟨index, inner⟩, foundInner, same⟩
        cases same
        rw [if_neg different]
        exact restTyped.memberIn? foundInner

theorem MembersHaveTypes.replaceMember : ∀ {members : MemberList}
    {values : List (String × HostValue)} {name : String} {position : Nat} {member : Member}
    {new : HostValue},
    MembersHaveTypes members values → members.find? name = some (position, member) →
      HasType member.type new →
        MembersHaveTypes members (HostValue.replaceMember name new values)
  | .nil, _, _, _, _, _, _, found, _ => by
      cases found
  | .cons first type attributes rest, values, name, position, member, new, typed, found,
      newTyped => by
      rw [MembersHaveTypes] at typed
      rcases typed with ⟨value, others, rfl, valueTyped, restTyped⟩
      rw [MemberList.find?] at found
      rw [HostValue.replaceMember, MembersHaveTypes]
      split at found
      next same =>
        cases found
        rw [if_pos same]
        exact ⟨new, others, rfl, newTyped, restTyped⟩
      next different =>
        rcases Option.map_eq_some_iff.mp found with ⟨⟨index, inner⟩, foundInner, same⟩
        cases same
        rw [if_neg different]
        exact ⟨value, _, rfl, valueTyped, restTyped.replaceMember foundInner newTyped⟩

theorem MemberList.toList_of_find? : ∀ {members : MemberList} {name : String}
    {position : Nat} {member : Member}, members.find? name = some (position, member) →
      members.toList[position]? = some member ∧ member.name = name
  | .nil, _, _, _, found => by
      cases found
  | .cons first type attributes rest, name, position, member, found => by
      rw [find?] at found
      split at found
      next same =>
        cases found
        exact ⟨rfl, same⟩
      next different =>
        rcases Option.map_eq_some_iff.mp found with ⟨⟨index, inner⟩, foundInner, same⟩
        cases same
        rw [toList, List.getElem?_cons_succ]
        exact toList_of_find? foundInner

/-! ## Typed parts -/

variable {type inner : TypeDescriptor} {whole part new : HostValue}

theorem ComponentsOf.set {kind : ScalarKind} {count position : Nat} {components : Components}
    {component : Scalar} (typed : ComponentsOf kind count components)
    (same : component.kind = kind) :
    ComponentsOf kind count (components.set position component) := by
  constructor
  · rw [List.length_set]
    exact typed.1
  · intro other member
    rcases List.mem_or_eq_of_mem_set member with old | rfl
    · exact typed.2 other old
    · exact same

theorem TypeDescriptor.follow_member {name : String}
    (followed : type.follow [.member name] = some inner) :
    ∃ label members position member, type = .struct label members ∧
      members.find? name = some (position, member) ∧ member.type = inner := by
  rcases Option.bind_eq_some_iff.mp followed with ⟨⟨position, member⟩, found, same⟩
  cases same
  cases type with
  | struct label members => exact ⟨label, members, position, member, rfl, found, rfl⟩
  | _ => cases found

theorem TypeDescriptor.follow_index {position : Nat}
    (followed : type.follow [.index position] = some inner) :
    ∃ indexing, Recording.indexing? type = some indexing ∧ indexing.element = inner := by
  rcases Option.bind_eq_some_iff.mp followed with ⟨indexing, found, same⟩
  cases same
  exact ⟨indexing, found, rfl⟩

theorem HasType.at?_index {indexing : Recording.Indexing} {position : Nat}
    (typed : HasType type whole) (indexed : Recording.indexing? type = some indexing)
    (below : position < whole.extent) :
    ∃ part, whole.at? [.index position] = some part ∧ HasType indexing.element part := by
  cases type with
  | scalar kind => cases indexed
  | atomic kind => cases indexed
  | struct label members => cases indexed
  | vector kind width =>
      cases indexed
      rcases hasType_vector.mp typed with ⟨components, rfl, same⟩
      have found : components[position]? = some components[position] :=
        List.getElem?_eq_getElem below
      refine ⟨.scalar components[position], by simp [HostValue.at?, found], ?_⟩
      exact hasType_scalar.mpr ⟨_, rfl, same.2 _ (List.getElem_mem below)⟩
  | matrix kind columns rows =>
      cases indexed
      rcases hasType_matrix.mp typed with ⟨values, rfl, counted, same⟩
      have found : values[position]? = some values[position] :=
        List.getElem?_eq_getElem below
      refine ⟨.vector values[position], by simp [HostValue.at?, found], ?_⟩
      exact hasType_vector.mpr ⟨_, rfl, same _ (List.getElem_mem below)⟩
  | array element length =>
      rcases hasType_array.mp typed with ⟨elements, rfl, counted, all⟩
      have found : elements[position]? = some elements[position] :=
        List.getElem?_eq_getElem below
      refine ⟨elements[position], by simp [HostValue.at?, found], ?_⟩
      have elementTyped := all _ (List.getElem_mem below)
      cases length <;> cases indexed <;> exact elementTyped

theorem HostValue.lt_extent_of_at? {position : Nat}
    (found : whole.at? [.index position] = some part) : position < whole.extent := by
  cases whole with
  | scalar value => cases found
  | struct members => cases found
  | vector components | matrix components | array components =>
      rcases Option.bind_eq_some_iff.mp found with ⟨inner, known, _⟩
      exact (List.getElem?_eq_some_iff.mp known).1

theorem HasType.at?_segment {segment : PathSegment} (typed : HasType type whole)
    (followed : type.follow [segment] = some inner) :
    (∃ part, whole.at? [segment] = some part ∧ HasType inner part) ∨
      ∃ position, segment = .index position ∧ whole.extent ≤ position := by
  cases segment with
  | member name =>
      rcases TypeDescriptor.follow_member followed with
        ⟨label, members, position, member, rfl, found, rfl⟩
      rcases hasType_struct.mp typed with ⟨values, rfl, all⟩
      rcases all.memberIn? found with ⟨value, known, valueTyped⟩
      exact .inl ⟨value, by simp [HostValue.at?, known], valueTyped⟩
  | index position =>
      rcases TypeDescriptor.follow_index followed with ⟨indexing, indexed, rfl⟩
      by_cases below : position < whole.extent
      · exact .inl (typed.at?_index indexed below)
      · exact .inr ⟨position, rfl, Nat.le_of_not_lt below⟩

theorem HasType.setAt?_segment {segment : PathSegment} (typed : HasType type whole)
    (followed : type.follow [segment] = some inner) (found : whole.at? [segment] = some part)
    (newTyped : HasType inner new) :
    ∃ replaced, HostValue.setAt? new whole [segment] = some replaced ∧
      HasType type replaced := by
  cases segment with
  | member name =>
      rcases TypeDescriptor.follow_member followed with
        ⟨label, members, position, member, rfl, declared, rfl⟩
      rcases hasType_struct.mp typed with ⟨values, rfl, all⟩
      rcases Option.bind_eq_some_iff.mp found with ⟨old, known, _⟩
      refine ⟨.struct (HostValue.replaceMember name new values), ?_, ?_⟩
      · simp [HostValue.setAt?, known]
      · exact hasType_struct.mpr ⟨_, rfl, all.replaceMember declared newTyped⟩
  | index position =>
      rcases TypeDescriptor.follow_index followed with ⟨indexing, indexed, rfl⟩
      cases type with
      | scalar kind => cases indexed
      | atomic kind => cases indexed
      | struct label members => cases indexed
      | vector kind width =>
          cases indexed
          rcases hasType_vector.mp typed with ⟨components, rfl, same⟩
          rcases hasType_scalar.mp newTyped with ⟨scalar, rfl, kept⟩
          rcases Option.bind_eq_some_iff.mp found with ⟨old, known, _⟩
          have below := (List.getElem?_eq_some_iff.mp known).1
          refine ⟨.vector (components.set position scalar), ?_, ?_⟩
          · simp [HostValue.setAt?, HostValue.replaceComponent, HostValue.scalar?,
              HostValue.replaceAt, below]
          · exact hasType_vector.mpr ⟨_, rfl, same.set kept⟩
      | matrix kind columns rows =>
          cases indexed
          rcases hasType_matrix.mp typed with ⟨values, rfl, counted, same⟩
          rcases hasType_vector.mp newTyped with ⟨column, rfl, kept⟩
          rcases Option.bind_eq_some_iff.mp found with ⟨old, known, _⟩
          have oldTyped := same old (List.mem_of_getElem? known)
          refine ⟨.matrix (values.set position column), ?_, ?_⟩
          · rw [HostValue.setAt?_column known]
            simp [HostValue.replaceInColumn, kept.1, oldTyped.1]
          · refine hasType_matrix.mpr ⟨_, rfl, by rw [List.length_set]; exact counted, ?_⟩
            intro other member
            rcases List.mem_or_eq_of_mem_set member with kept | rfl
            · exact same other kept
            · exact kept
      | array element length =>
          rcases hasType_array.mp typed with ⟨elements, rfl, counted, all⟩
          rcases Option.bind_eq_some_iff.mp found with ⟨old, known, _⟩
          have kept : HasType element new := by
            cases length <;> cases indexed <;> exact newTyped
          refine ⟨.array (elements.set position new), by simp [HostValue.setAt?, known], ?_⟩
          refine hasType_array.mpr ⟨_, rfl, by rw [List.length_set]; exact counted, ?_⟩
          intro other member
          rcases List.mem_or_eq_of_mem_set member with old | rfl
          · exact all other old
          · exact kept

namespace HostValue

theorem PathInRange.head {position : Nat} {rest : ValuePath}
    (ranged : whole.PathInRange (.index position :: rest)) : position < whole.extent :=
  ranged [] position rest whole rfl rfl

theorem PathInRange.tail {segment : PathSegment} {rest : ValuePath}
    (ranged : whole.PathInRange (segment :: rest)) (found : whole.at? [segment] = some part) :
    part.PathInRange rest := by
  intro front position after inner same known
  apply ranged (segment :: front) position after inner
  · rw [same, List.cons_append]
  · rw [at?_cons, found]
    exact known

theorem pathInRange_of_at? {path : ValuePath} (found : whole.at? path = some part) :
    whole.PathInRange path := by
  intro front position rest inner same known
  rw [same, at?_append, known, Option.bind_some, at?_cons] at found
  rcases Option.bind_eq_some_iff.mp found with ⟨_, selected, _⟩
  exact lt_extent_of_at? selected

theorem pathInRange_of_setAt? {path : ValuePath} {replaced : HostValue}
    (done : setAt? new whole path = some replaced) : whole.PathInRange path := by
  induction path generalizing whole replaced with
  | nil =>
      intro front position rest part same
      cases front <;> cases same
  | cons segment others induction =>
      cases found : whole.at? [segment] with
      | none =>
          rw [setAt?_of_missing found] at done
          cases done
      | some next =>
          rw [setAt?_cons found] at done
          rcases Option.bind_eq_some_iff.mp done with ⟨inner, doneInside, _⟩
          have inside := induction doneInside
          intro front position rest part same known
          cases front with
          | nil =>
              cases same
              cases known
              exact lt_extent_of_at? found
          | cons first front =>
              cases same
              rw [at?_cons, found] at known
              exact inside front position rest part rfl known

end HostValue

/-- A path whose indices are in range leads to a part of the type at its end. -/
theorem HasType.at? {path : ValuePath} (typed : HasType type whole)
    (followed : type.follow path = some inner) (ranged : whole.PathInRange path) :
    ∃ part, whole.at? path = some part ∧ HasType inner part := by
  induction path generalizing type whole with
  | nil =>
      cases followed
      exact ⟨whole, rfl, typed⟩
  | cons segment rest induction =>
      rcases TypeDescriptor.follow_cons followed with ⟨next, first, others⟩
      rcases typed.at?_segment first with ⟨part, found, partTyped⟩ | ⟨position, rfl, past⟩
      · rcases induction partTyped others (ranged.tail found) with ⟨last, known, lastTyped⟩
        refine ⟨last, ?_, lastTyped⟩
        rw [HostValue.at?_cons, found]
        exact known
      · exact absurd ranged.head (Nat.not_lt_of_le past)

/-- Replacing the part at the end of such a path by a value of its type keeps the type of
the whole. -/
theorem HasType.setAt? {path : ValuePath} (typed : HasType type whole)
    (followed : type.follow path = some inner) (newTyped : HasType inner new)
    (ranged : whole.PathInRange path) :
    ∃ replaced, HostValue.setAt? new whole path = some replaced ∧ HasType type replaced := by
  induction path generalizing type whole with
  | nil =>
      cases followed
      exact ⟨new, by simp [HostValue.setAt?], newTyped⟩
  | cons segment rest induction =>
      rcases TypeDescriptor.follow_cons followed with ⟨next, first, others⟩
      rcases typed.at?_segment first with ⟨part, found, partTyped⟩ | ⟨position, rfl, past⟩
      · rcases induction partTyped others (ranged.tail found) with ⟨inner, done, innerTyped⟩
        rw [HostValue.setAt?_cons found, done]
        exact typed.setAt?_segment first found innerTyped
      · exact absurd ranged.head (Nat.not_lt_of_le past)

end ShaderKit
