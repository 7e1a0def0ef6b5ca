import ShaderKit.Proofs.Codec.Encoding
import ShaderKit.Proofs.Codec.Parts

/-!
# Errors name the first offending place

A plan goes through the places of a type in declaration and index order. Where it fails, the
error names the place of a part that does not fit its type, and says how; every place before that
one is there in the value and holds what fits.
-/

namespace ShaderKit

/-! ## The order of places -/

/-- One step into a type comes before another: an element, column or component of a smaller index,
or a member that is declared earlier. -/
def TypeDescriptor.StepsBefore (type : TypeDescriptor) : PathSegment → PathSegment → Prop
  | .index first, .index second => first < second
  | .member first, .member second => ∃ earlier later,
      (type.members.find? first).map Prod.fst = some earlier ∧
        (type.members.find? second).map Prod.fst = some later ∧ earlier < later
  | _, _ => False

/-- One place comes before another: where the paths part, it takes the earlier step. -/
def TypeDescriptor.PlacedBefore : TypeDescriptor → ValuePath → ValuePath → Prop
  | type, first :: rest, second :: others =>
      type.StepsBefore first second ∨
        first = second ∧ ∃ inner, type.step? first = some (first, inner) ∧
          inner.PlacedBefore rest others
  | _, _, _ => False
termination_by structural _ first => first

@[simp] theorem TypeDescriptor.not_placedBefore_root (type : TypeDescriptor) (path : ValuePath) :
    ¬ type.PlacedBefore path [] := by
  cases path <;> simp [PlacedBefore]

@[simp] theorem TypeDescriptor.not_root_placedBefore (type : TypeDescriptor) (path : ValuePath) :
    ¬ type.PlacedBefore [] path := by
  simp [PlacedBefore]

/-! ## What an error says of a part -/

/-- The outermost shape and extent of a value fit its type, and so does the kind of a scalar.
Nothing is said of the parts of the value. -/
def TypeDescriptor.HeadFits : TypeDescriptor → HostValue → Prop
  | .scalar kind, .scalar value | .atomic kind, .scalar value => value.kind = kind
  | .vector _ width, .vector components => components.length = width.count
  | .matrix _ columns rows, .matrix values =>
      values.length = columns.count ∧ ∀ column ∈ values, column.length = rows.count
  | .array .., .array _ | .struct .., .struct _ => True
  | _, _ => False

def TypeDescriptor.expected : TypeDescriptor → TypeDescriptor
  | .atomic kind => .scalar kind
  | other => other

/-- An error is right about the part at a place: the outermost shape does not fit, a declared
member is missing, a member is not declared while those given before it are, or the number of
elements is another one. -/
def EncodeError.Reports (path : ValuePath) (type : TypeDescriptor) (part : HostValue) :
    EncodeError → Prop
  | .shapeMismatch place expected found =>
      place = path ∧ expected = type.expected ∧ found = part.describe ∧ ¬ type.HeadFits part
  | .missingField place name => place = path ∧ ∃ label members values,
      type = .struct label members ∧ part = .struct values ∧
        (members.find? name).isSome = true ∧ HostValue.memberIn? name values = none
  | .unknownField place name => place = path ∧ ∃ label members before value after,
      type = .struct label members ∧ part = .struct (before ++ (name, value) :: after) ∧
        members.find? name = none ∧ ∀ given ∈ before, (members.find? given.1).isSome = true
  | .arrayLength place expected found => place = path ∧ ∃ element elements,
      type = .array element (.fixed expected) ∧ part = .array elements ∧
        found = elements.length ∧ found ≠ expected
  | _ => False

def EncodeError.missing : EncodeError → ValuePath
  | .missingField _ name => [.member name]
  | _ => []

theorem TypeDescriptor.Accepts.headFits {type : TypeDescriptor} {value : HostValue}
    (accepted : type.Accepts value) : type.HeadFits value := by
  cases type <;> cases value <;> simp only [Accepts, HeadFits] at accepted ⊢ <;>
    first
      | exact accepted
      | exact accepted.1
      | exact ⟨accepted.1, fun column member => (accepted.2 column member).1⟩

theorem MemberList.Accepts.memberIn? : ∀ {members : MemberList} {name : String} {position : Nat}
    {member : Member} {values : List (String × HostValue)}, members.Accepts values →
      members.find? name = some (position, member) →
        ∃ value, HostValue.memberIn? name values = some value ∧ member.type.Accepts value
  | .nil, _, _, _, _, _, found => by
      cases found
  | .cons first type attributes rest, name, _, _, _, accepted, found => by
      simp only [MemberList.Accepts] at accepted
      obtain ⟨⟨value, known, fits⟩, others⟩ := accepted
      simp only [MemberList.find?] at found
      split at found
      next same =>
        cases found
        exact ⟨value, same ▸ known, fits⟩
      next =>
        obtain ⟨⟨index, inner⟩, later, same⟩ := Option.map_eq_some_iff.mp found
        cases same
        exact others.memberIn? later

/-- A part that an error is right about does not fit its type. -/
theorem EncodeError.Reports.not_accepts {error : EncodeError} {path : ValuePath}
    {type : TypeDescriptor} {part : HostValue} (reports : error.Reports path type part) :
    ¬ type.Accepts part := by
  intro accepted
  cases error with
  | shapeMismatch => exact reports.2.2.2 accepted.headFits
  | missingField place name =>
      obtain ⟨_, label, members, values, rfl, rfl, declared, missing⟩ := reports
      simp only [TypeDescriptor.Accepts] at accepted
      obtain ⟨⟨position, member⟩, found⟩ := Option.isSome_iff_exists.mp declared
      obtain ⟨value, known, _⟩ := accepted.2.memberIn? found
      simp [missing] at known
  | unknownField place name =>
      obtain ⟨_, label, members, before, value, after, rfl, rfl, unknown, _⟩ := reports
      simp only [TypeDescriptor.Accepts] at accepted
      have declared := accepted.1 (name, value) (by simp)
      simp [unknown] at declared
  | arrayLength place expected found =>
      obtain ⟨_, element, elements, rfl, rfl, rfl, different⟩ := reports
      simp only [TypeDescriptor.Accepts, ArrayLength.accepts, beq_iff_eq] at accepted
      exact different accepted.1
  | invalidPath | outOfBounds | layout => exact reports

/-! ## Places that are there -/

/-- Every place of a type is there in a value and holds what fits. -/
def TypeDescriptor.FilledBy (type : TypeDescriptor) (value : HostValue) : Prop :=
  ∀ path inner, type.part? path = some (path, inner) →
    ∃ part, value.at? path = some part ∧ inner.Accepts part

theorem TypeDescriptor.part?_cons {type inner : TypeDescriptor} {segment : PathSegment}
    {path : ValuePath} :
    type.part? (segment :: path) = some (segment :: path, inner) ↔
      ∃ next, type.step? segment = some (segment, next) ∧ next.part? path = some (path, inner) := by
  constructor
  · intro found
    simp only [part?, Option.bind_eq_bind, Option.bind_eq_some_iff] at found
    obtain ⟨⟨taken, next⟩, stepped, ⟨rest, last⟩, followed, same⟩ := found
    cases same
    exact ⟨next, stepped, followed⟩
  · rintro ⟨next, stepped, followed⟩
    simp [part?, stepped, followed]

theorem TypeDescriptor.step?_vector {kind : ScalarKind} {width : VectorWidth}
    {segment : PathSegment} {inner : TypeDescriptor}
    (stepped : (TypeDescriptor.vector kind width).step? segment = some (segment, inner)) :
    ∃ index, segment = .index index ∧ index < width.count ∧ inner = .scalar kind := by
  cases segment with
  | index index =>
      simp only [step?, componentStep?, Option.ite_none_right_eq_some, Option.some.injEq,
        Prod.mk.injEq, true_and] at stepped
      exact ⟨index, rfl, stepped.1, stepped.2.symm⟩
  | member letter =>
      -- a letter stands for an index, so it is not the step that selects
      simp [step?, componentStep?, Option.bind_eq_some_iff] at stepped

theorem TypeDescriptor.step?_matrix {kind : ScalarKind} {columns rows : VectorWidth}
    {segment : PathSegment} {inner : TypeDescriptor}
    (stepped : (TypeDescriptor.matrix kind columns rows).step? segment = some (segment, inner)) :
    ∃ index, segment = .index index ∧ index < columns.count ∧ inner = .vector kind rows := by
  cases segment with
  | index index =>
      simp only [step?, Option.ite_none_right_eq_some, Option.some.injEq, Prod.mk.injEq,
        true_and] at stepped
      exact ⟨index, rfl, stepped.1, stepped.2.symm⟩
  | member => cases stepped

theorem TypeDescriptor.step?_array {element inner : TypeDescriptor} {length : ArrayLength}
    {segment : PathSegment}
    (stepped : (TypeDescriptor.array element length).step? segment = some (segment, inner)) :
    ∃ index, segment = .index index ∧ length.admitsIndex index = true ∧ inner = element := by
  cases segment with
  | index index =>
      simp only [step?, Option.ite_none_right_eq_some, Option.some.injEq, Prod.mk.injEq,
        true_and] at stepped
      exact ⟨index, rfl, stepped.1, stepped.2.symm⟩
  | member => cases stepped

theorem TypeDescriptor.step?_struct {label : Option String} {members : MemberList}
    {segment : PathSegment} {inner : TypeDescriptor}
    (stepped : (TypeDescriptor.struct label members).step? segment = some (segment, inner)) :
    ∃ name position member, segment = .member name ∧
      members.find? name = some (position, member) ∧ inner = member.type := by
  cases segment with
  | index => cases stepped
  | member name =>
      obtain ⟨⟨position, member⟩, declared, same⟩ := Option.map_eq_some_iff.mp stepped
      cases same
      exact ⟨name, position, member, rfl, declared, rfl⟩

theorem LaidOut.accepts_step {type inner : TypeDescriptor} {layout : Layout} {size : Nat}
    {value : HostValue} {segment : PathSegment} (laid : LaidOut type layout)
    (sized : layout.size = some size) (accepted : type.Accepts value)
    (stepped : type.step? segment = some (segment, inner)) :
    ∃ part innerLayout innerSize, value.at? [segment] = some part ∧ inner.Accepts part ∧
      LaidOut inner innerLayout ∧ innerLayout.size = some innerSize := by
  cases laid with
  | scalar | atomic => cases segment <;> cases stepped
  | vector kind width =>
      obtain ⟨components, rfl⟩ : ∃ components, value = .vector components := by
        cases value <;> simp_all [TypeDescriptor.Accepts]
      simp only [TypeDescriptor.Accepts] at accepted
      obtain ⟨index, rfl, below, rfl⟩ := TypeDescriptor.step?_vector stepped
      have inside : index < components.length := accepted.1.symm ▸ below
      have known := List.getElem?_eq_getElem inside
      refine ⟨.scalar components[index], _, _, by simp [HostValue.at?, known], ?_, .scalar kind,
        rfl⟩
      simp only [TypeDescriptor.Accepts]
      exact accepted.2 _ (List.getElem_mem inside)
  | matrix kind columns rows =>
      obtain ⟨values, rfl⟩ : ∃ values, value = .matrix values := by
        cases value <;> simp_all [TypeDescriptor.Accepts]
      simp only [TypeDescriptor.Accepts] at accepted
      obtain ⟨index, rfl, below, rfl⟩ := TypeDescriptor.step?_matrix stepped
      have inside : index < values.length := accepted.1.symm ▸ below
      have known := List.getElem?_eq_getElem inside
      refine ⟨.vector values[index], _, _, by simp [HostValue.at?, known], ?_, .vector kind rows,
        rfl⟩
      simp only [TypeDescriptor.Accepts]
      exact accepted.2 _ (List.getElem_mem inside)
  | @array element length innerLayout innerSize elementLaid innerSized fits =>
      cases length with
      | runtime => cases sized
      | fixed count =>
          obtain ⟨elements, rfl⟩ : ∃ elements, value = .array elements := by
            cases value <;> simp_all [TypeDescriptor.Accepts]
          simp only [TypeDescriptor.Accepts, ArrayLength.accepts, beq_iff_eq] at accepted
          obtain ⟨index, rfl, below, rfl⟩ := TypeDescriptor.step?_array stepped
          have inside : index < elements.length := by
            simpa [ArrayLength.admitsIndex, accepted.1] using below
          have known := List.getElem?_eq_getElem inside
          refine ⟨elements[index], innerLayout, innerSize, by simp [HostValue.at?, known], ?_,
            elementLaid, innerSized⟩
          exact accepted.2 _ (List.getElem_mem inside)
  | @struct label members run filled membersLaid fits =>
      obtain ⟨values, rfl⟩ : ∃ values, value = .struct values := by
        cases value <;> simp_all [TypeDescriptor.Accepts]
      simp only [TypeDescriptor.Accepts] at accepted
      obtain ⟨finish, finished, _⟩ := Option.map_eq_some_iff.mp sized
      obtain ⟨name, position, member, rfl, declared, rfl⟩ := TypeDescriptor.step?_struct stepped
      obtain ⟨part, known, partFits⟩ := accepted.2.memberIn? declared
      obtain ⟨place, placed⟩ := membersLaid.memberAt declared
      obtain ⟨⟨_, _, declaredAgain, sameType⟩, _⟩ := placed.found
      have placeLaid := (placed.laid membersLaid finished rfl).1
      obtain ⟨placeSize, placeSized⟩ := placeLaid.sized
      simp only [declared, Option.some.injEq, Prod.mk.injEq] at declaredAgain
      have same : member.type = place.type := declaredAgain.2 ▸ sameType
      exact ⟨part, place.layout, placeSize, by simp [HostValue.at?, known], partFits,
        same ▸ placeLaid.rules, placeSized⟩

theorem LaidOut.filledBy {type : TypeDescriptor} {layout : Layout} {size : Nat}
    {value : HostValue} (laid : LaidOut type layout) (sized : layout.size = some size)
    (accepted : type.Accepts value) : type.FilledBy value := by
  intro path inner found
  induction path generalizing type layout size value with
  | nil =>
      cases found
      exact ⟨value, rfl, accepted⟩
  | cons segment path induction =>
      obtain ⟨next, stepped, followed⟩ := TypeDescriptor.part?_cons.mp found
      obtain ⟨part, nextLayout, nextSize, known, fits, nextLaid, nextSized⟩ :=
        laid.accepts_step sized accepted stepped
      obtain ⟨last, reached, lastFits⟩ := induction nextLaid nextSized fits followed
      refine ⟨last, ?_, lastFits⟩
      simp [HostValue.at?_cons value segment path, known, reached]

/-! ## The first offence -/

/-- What planning a value of a type at `front` says when it fails: it is right about the part at
the end of a path, and every place before that one, or before what is missing there, is there and
holds what fits. -/
structure FirstOffence (front : ValuePath) (type : TypeDescriptor) (value : HostValue)
    (error : EncodeError) (path : ValuePath) (inner : TypeDescriptor) (part : HostValue) : Prop where
  inType : type.part? path = some (path, inner)
  inValue : value.at? path = some part
  reports : error.Reports (front ++ path) inner part
  before : ∀ other earlier, type.part? other = some (other, earlier) →
    type.PlacedBefore other (path ++ error.missing) →
      ∃ found, value.at? other = some found ∧ earlier.Accepts found

def EncodeError.Blames (front : ValuePath) (type : TypeDescriptor) (value : HostValue)
    (error : EncodeError) : Prop :=
  (∀ place offset needed size, error ≠ .outOfBounds place offset needed size) →
    ∃ path inner part, FirstOffence front type value error path inner part

namespace EncodeError.Blames

variable {front : ValuePath} {type next : TypeDescriptor} {value part : HostValue}
  {error : EncodeError}

theorem here (reports : error.Reports front type value) (whole : error.missing = []) :
    error.Blames front type value := by
  intro _
  refine ⟨[], type, value, rfl, rfl, by simpa using reports, ?_⟩
  intro other earlier _ before
  simp [whole] at before

theorem undeclared {label : Option String} {members : MemberList}
    {values : List (String × HostValue)} {unknown : String × HostValue}
    (first : values.find? (fun given => (members.find? given.1).isNone) = some unknown) :
    (EncodeError.unknownField front unknown.1).Blames front (.struct label members)
      (.struct values) := by
  obtain ⟨missing, before, after, rfl, declared⟩ := List.find?_eq_some_iff_append.mp first
  apply here _ rfl
  refine ⟨rfl, label, members, before, unknown.2, after, rfl, rfl, by simpa using missing, ?_⟩
  intro given member
  simpa [Option.isSome_iff_ne_none] using declared given member

theorem mismatch (found : HostValue) (wrong : ¬ type.HeadFits found) :
    (EncodeError.shapeMismatch front type.expected found.describe).Blames front type found :=
  here ⟨rfl, rfl, rfl, wrong⟩ rfl

theorem inside {segment : PathSegment} (stepped : type.step? segment = some (segment, next))
    (known : value.at? [segment] = some part)
    (siblings : ∀ earlier inner, type.step? earlier = some (earlier, inner) →
      type.StepsBefore earlier segment →
        ∃ sibling, value.at? [earlier] = some sibling ∧ inner.FilledBy sibling)
    (blames : error.Blames (front ++ [segment]) next part) : error.Blames front type value := by
  intro bounded
  obtain ⟨path, inner, last, offence⟩ := blames bounded
  refine ⟨segment :: path, inner, last, ?_, ?_, ?_, ?_⟩
  · exact TypeDescriptor.part?_cons.mpr ⟨next, stepped, offence.inType⟩
  · simp [HostValue.at?_cons value segment path, known, offence.inValue]
  · simpa using offence.reports
  · intro other earlier found before
    cases other with
    | nil => simp at before
    | cons first rest =>
        obtain ⟨middle, firstStep, followed⟩ := TypeDescriptor.part?_cons.mp found
        simp only [List.cons_append, TypeDescriptor.PlacedBefore] at before
        rcases before with sooner | ⟨rfl, again, sameStep, later⟩
        · -- the paths part here, and what stands before the step is there and fits
          obtain ⟨sibling, siblingKnown, filled⟩ := siblings first middle firstStep sooner
          obtain ⟨reached, reachedKnown, fits⟩ := filled rest earlier followed
          refine ⟨reached, ?_, fits⟩
          simp [HostValue.at?_cons value first rest, siblingKnown, reachedKnown]
        · cases sameStep.symm.trans stepped
          cases firstStep.symm.trans stepped
          obtain ⟨reached, reachedKnown, fits⟩ := offence.before rest earlier followed later
          refine ⟨reached, ?_, fits⟩
          simp [HostValue.at?_cons value first rest, known, reachedKnown]

end EncodeError.Blames

/-! ## Where plans fail -/

namespace Plan

variable {error : EncodeError}

theorem andThen_fails {first second : Plan}
    (failed : (first.andThen second).failure = some error) :
    first.failure = some error ∨ first.failure = none ∧ second.failure = some error := by
  unfold andThen at failed
  split at failed
  next other stopped => exact .inl (stopped ▸ failed)
  next whole => exact .inr ⟨whole, failed⟩

theorem eq_of_whole {plan : Plan} (whole : plan.failure = none) : plan = ⟨plan.patches, none⟩ := by
  rw [← whole]

theorem each_fails {α : Type} {plan : Nat → α → Plan} {start : Nat} {items : List α}
    (failed : (each plan start items).failure = some error) :
    ∃ index item, items[index]? = some item ∧ (plan (start + index) item).failure = some error ∧
      ∀ (earlier : Nat) before, earlier < index → items[earlier]? = some before →
        (plan (start + earlier) before).failure = none := by
  induction items generalizing start with
  | nil => cases failed
  | cons first rest induction =>
      rcases andThen_fails failed with stopped | ⟨whole, failed⟩
      · exact ⟨0, first, rfl, stopped, nofun⟩
      · obtain ⟨index, item, known, stopped, others⟩ := induction failed
        refine ⟨index + 1, item, known, ?_, ?_⟩
        · rw [← stopped, Nat.add_assoc, Nat.add_comm 1]
        · intro earlier before below inside
          cases earlier with
          | zero =>
              cases inside
              exact whole
          | succ earlier =>
              rw [← others earlier before (by omega) inside, Nat.add_assoc, Nat.add_comm 1]

section

variable {room : Room} {offset : Nat} {kind : ScalarKind} {front : ValuePath}

theorem scalar_blames {type : TypeDescriptor} {value : Scalar}
    (scalars : type.expected = .scalar kind)
    (failed : (scalar room kind front offset value).failure = some error) :
    error.Blames front type (.scalar value) := by
  unfold scalar at failed
  split at failed
  next different =>
    have wrong : ¬ type.HeadFits (.scalar value) := by
      cases type <;> simp_all [TypeDescriptor.expected, TypeDescriptor.HeadFits]
    cases failed
    exact scalars ▸ .mismatch (.scalar value) wrong
  next =>
    split at failed
    next =>
      cases failed
      exact fun bounded => absurd rfl (bounded _ _ _ _)
    next => cases failed

theorem each_blames {α : Type} {plan : Nat → α → Plan} {items : List α}
    {type next : TypeDescriptor} {value : HostValue} (view : α → HostValue)
    (steps : ∀ index, index < items.length → type.step? (.index index) = some (.index index, next))
    (indices : ∀ segment inner, type.step? segment = some (segment, inner) →
      ∃ index, segment = .index index ∧ inner = next)
    (parts : ∀ index, value.at? [.index index] = items[index]?.map view)
    (fills : ∀ index item, item ∈ items → (plan index item).failure = none →
      next.FilledBy (view item))
    (stops : ∀ index item, item ∈ items → (plan index item).failure = some error →
      error.Blames (front ++ [.index index]) next (view item))
    (failed : (each plan 0 items).failure = some error) : error.Blames front type value := by
  obtain ⟨index, item, known, stopped, others⟩ := each_fails failed
  have below := (List.getElem?_eq_some_iff.mp known).1
  rw [Nat.zero_add] at stopped
  have blames := stops index item (List.mem_of_getElem? known) stopped
  apply EncodeError.Blames.inside (steps index below) _ _ blames
  · simp [parts, known]
  · intro earlier inner stepped sooner
    obtain ⟨before, rfl, rfl⟩ := indices earlier inner stepped
    have sooner : before < index := sooner
    have sibling := List.getElem?_eq_getElem (show before < items.length by omega)
    refine ⟨view items[before], by simp [parts, sibling], ?_⟩
    exact fills (0 + before) _ (List.getElem_mem _) (others before _ sooner sibling)

theorem components_blames {width : VectorWidth} {values : Components}
    (counted : values.length = width.count)
    (failed : (components room kind front offset values).failure = some error) :
    error.Blames front (.vector kind width) (.vector values) := by
  have scalars : (TypeDescriptor.scalar kind).expected = .scalar kind := rfl
  apply each_blames HostValue.scalar _ _ _ _ (fun _ _ _ => scalar_blames scalars) failed
  · intro index below
    simp [TypeDescriptor.step?, componentStep?, ← counted, below]
  · intro segment inner stepped
    obtain ⟨index, same, _, scalar⟩ := TypeDescriptor.step?_vector stepped
    exact ⟨index, same, scalar⟩
  · intro index
    cases known : values[index]? <;> simp [HostValue.at?, known]
  · intro index component _ whole
    apply (LaidOut.scalar kind).filledBy rfl
    simp only [TypeDescriptor.Accepts]
    exact kind_of_scalar (eq_of_whole whole)

theorem columns_blames {columns rows : VectorWidth} {values : List Components} {stride : Nat}
    (counted : values.length = columns.count)
    (heights : ∀ column ∈ values, column.length = rows.count)
    (failed : (each (fun index column => components room kind (front ++ [.index index])
      (offset + index * stride) column) 0 values).failure = some error) :
    error.Blames front (.matrix kind columns rows) (.matrix values) := by
  apply each_blames HostValue.vector _ _ _ _
    (fun _ column member => components_blames (heights column member)) failed
  · intro index below
    simp [TypeDescriptor.step?, ← counted, below]
  · intro segment inner stepped
    obtain ⟨index, same, _, column⟩ := TypeDescriptor.step?_matrix stepped
    exact ⟨index, same, column⟩
  · intro index
    cases known : values[index]? <;> simp [HostValue.at?, known]
  · intro index column member whole
    apply (LaidOut.vector kind rows).filledBy rfl
    simp only [TypeDescriptor.Accepts]
    exact componentsOf_of_plan (heights column member) (eq_of_whole whole)

end

end Plan

theorem MemberList.find?_cons_of_rest {name other : String} {type : TypeDescriptor}
    {attributes : MemberAttributes} {rest : MemberList} {position : Nat} {member : Member}
    (distinct : rest.find? name = none) (found : rest.find? other = some (position, member)) :
    (cons name type attributes rest).find? other = some (position + 1, member) := by
  have different : name ≠ other := by
    intro same
    simp [← same, distinct] at found
  simp [find?, different, found]

/-- How the members of a structure fail: at a member, after those declared before it went
through. Either it is missing, or there is a first offence in it. -/
structure MemberOffence (front : ValuePath) (members : MemberList)
    (values : List (String × HostValue)) (error : EncodeError) (name : String) (position : Nat)
    (member : Member) : Prop where
  declared : members.find? name = some (position, member)
  offends : (HostValue.memberIn? name values = none ∧ error = .missingField front name) ∨
    ∃ value, HostValue.memberIn? name values = some value ∧
      error.Blames (front ++ [.member name]) member.type value
  before : ∀ other (earlier : Nat) sibling, members.find? other = some (earlier, sibling) →
    earlier < position → ∃ value, HostValue.memberIn? other values = some value ∧
      sibling.type.FilledBy value

theorem MemberOffence.later {front : ValuePath} {first name : String} {type : TypeDescriptor}
    {attributes : MemberAttributes} {rest : MemberList} {values : List (String × HostValue)}
    {value : HostValue} {error : EncodeError} {position : Nat} {member : Member}
    (offence : MemberOffence front rest values error name position member)
    (distinct : rest.find? first = none) (known : HostValue.memberIn? first values = some value)
    (filled : type.FilledBy value) :
    MemberOffence front (.cons first type attributes rest) values error name (position + 1)
      member where
  declared := MemberList.find?_cons_of_rest distinct offence.declared
  offends := offence.offends
  before other earlier sibling found below := by
    simp only [MemberList.find?] at found
    split at found
    next same =>
      cases found
      exact ⟨value, same ▸ known, filled⟩
    next =>
      obtain ⟨⟨index, inner⟩, foundLater, same⟩ := Option.map_eq_some_iff.mp found
      cases same
      exact offence.before other index inner foundLater (by omega)

theorem MemberOffence.blames {front : ValuePath} {label : Option String} {members : MemberList}
    {values : List (String × HostValue)} {error : EncodeError} {name : String} {position : Nat}
    {member : Member} (offence : MemberOffence front members values error name position member) :
    error.Blames front (.struct label members) (.struct values) := by
  have siblings : ∀ earlier inner,
      (TypeDescriptor.struct label members).step? earlier = some (earlier, inner) →
        (TypeDescriptor.struct label members).StepsBefore earlier (.member name) →
          ∃ sibling, (HostValue.struct values).at? [earlier] = some sibling ∧
            inner.FilledBy sibling := by
    intro earlier inner stepped sooner
    obtain ⟨other, place, sibling, rfl, found, rfl⟩ := TypeDescriptor.step?_struct stepped
    simp only [TypeDescriptor.StepsBefore, TypeDescriptor.members, found, offence.declared,
      Option.map_some, Option.some.injEq] at sooner
    obtain ⟨_, _, rfl, rfl, below⟩ := sooner
    obtain ⟨value, known, filled⟩ := offence.before other place sibling found below
    exact ⟨value, by simp [HostValue.at?, known], filled⟩
  rcases offence.offends with ⟨missing, rfl⟩ | ⟨value, known, blames⟩
  · intro _
    refine ⟨[], _, _, rfl, rfl, ?_, ?_⟩
    · exact ⟨by simp, label, members, values, rfl, rfl, by simp [offence.declared], missing⟩
    · intro other earlier found before
      cases other with
      | nil => simp at before
      | cons first rest =>
          obtain ⟨middle, stepped, followed⟩ := TypeDescriptor.part?_cons.mp found
          simp only [List.nil_append, EncodeError.missing, TypeDescriptor.PlacedBefore] at before
          rcases before with sooner | ⟨_, inner, _, later⟩
          · obtain ⟨sibling, siblingKnown, filled⟩ := siblings first middle stepped sooner
            obtain ⟨reached, reachedKnown, fits⟩ := filled rest earlier followed
            refine ⟨reached, ?_, fits⟩
            simp [HostValue.at?_cons _ first rest, siblingKnown, reachedKnown]
          · simp at later
  · have stepped : (TypeDescriptor.struct label members).step? (.member name) =
        some (.member name, member.type) := by
      simp [TypeDescriptor.step?, offence.declared]
    have reached : (HostValue.struct values).at? [.member name] = some value := by
      simp [HostValue.at?, known]
    exact .inside stepped reached siblings blames

mutual
/-- Where a plan fails, there is a first offence. -/
theorem LaidOut.plan_blames : ∀ {type : TypeDescriptor} {layout : Layout}
    {room : Room} {offset : Nat} {front : ValuePath} {value : HostValue} {error : EncodeError},
    LaidOut type layout → type.Distinct →
      (type.plan room front offset layout value).failure = some error →
        error.Blames front type value
  | .scalar kind, _, _, _, _, value, _, _, _, failed
  | .atomic kind, _, _, _, _, value, _, _, _, failed => by
      cases value with
      | scalar scalar => exact Plan.scalar_blames rfl failed
      | _ =>
          cases failed
          exact .mismatch _ (by simp [TypeDescriptor.HeadFits])
  | .vector kind width, _, _, _, _, value, _, _, _, failed => by
      cases value with
      | vector components =>
          simp only [TypeDescriptor.plan] at failed
          split at failed
          next counted => exact Plan.components_blames counted failed
          next counted =>
            cases failed
            exact .mismatch _ counted
      | _ =>
          cases failed
          exact .mismatch _ (by simp [TypeDescriptor.HeadFits])
  | .matrix kind columns rows, _, _, _, _, value, _, laid, _, failed => by
      cases laid
      cases value with
      | matrix values =>
          simp only [TypeDescriptor.plan, Layout.ofMatrix] at failed
          split at failed
          next complete => exact Plan.columns_blames complete.1 (by simpa using complete.2) failed
          next incomplete =>
            cases failed
            exact .mismatch _ (by simpa [TypeDescriptor.HeadFits] using incomplete)
      | _ =>
          cases failed
          exact .mismatch _ (by simp [TypeDescriptor.HeadFits])
  | .array element length, _, _, _, _, value, _, laid, distinct, failed => by
      cases laid with
      | @array _ _ inner size elementLaid sized fits =>
          cases value with
          | array elements =>
              simp only [TypeDescriptor.plan] at failed
              simp only [TypeDescriptor.Distinct] at distinct
              split at failed
              next accepted =>
                apply Plan.each_blames id _ _ _ _ (fun _ _ _ => elementLaid.plan_blames distinct)
                  failed
                · intro index below
                  have admitted : length.admitsIndex index = true := by
                    cases length <;> simp_all [ArrayLength.accepts, ArrayLength.admitsIndex]
                  simp [TypeDescriptor.step?, admitted]
                · intro segment next stepped
                  obtain ⟨index, same, _, elementType⟩ := TypeDescriptor.step?_array stepped
                  exact ⟨index, same, elementType⟩
                · intro index
                  cases known : elements[index]? <;> simp [HostValue.at?, known]
                · intro index item _ whole
                  exact elementLaid.filledBy sized (elementLaid.accepts (Plan.eq_of_whole whole))
              next refused =>
                cases length with
                | runtime => exact absurd rfl refused
                | fixed count =>
                    cases failed
                    have other : elements.length ≠ count := by
                      simpa [ArrayLength.accepts] using refused
                    exact .here ⟨rfl, element, elements, rfl, rfl, rfl, other⟩ rfl
          | _ =>
              cases failed
              exact .mismatch _ (by simp [TypeDescriptor.HeadFits])
  | .struct label members, _, _, _, _, value, _, laid, distinct, failed => by
      cases laid with
      | struct filled membersLaid fits =>
          cases value with
          | struct values =>
              simp only [TypeDescriptor.plan] at failed
              simp only [TypeDescriptor.Distinct] at distinct
              split at failed
              next unknown first =>
                cases failed
                exact .undeclared first
              next =>
                obtain ⟨name, position, member, offence⟩ :=
                  membersLaid.planEach_blames distinct failed
                exact offence.blames
          | _ =>
              cases failed
              exact .mismatch _ (by simp [TypeDescriptor.HeadFits])

theorem MembersLaidOut.planEach_blames : ∀ {members : MemberList} {free alignment : Nat}
    {run : MemberRun} {room : Room} {offset : Nat} {front : ValuePath}
    {values : List (String × HostValue)} {error : EncodeError},
    MembersLaidOut free alignment members run → members.Distinct →
      (members.planEach room front offset run.layouts values).failure = some error →
        ∃ name position member, MemberOffence front members values error name position member
  | .nil, _, _, _, _, _, _, _, _, laid, _, failed => by
      cases laid
      cases failed
  | .cons name type attributes rest, _, _, _, _, _, _, values, _, laid, distinct, failed => by
      simp only [MemberList.Distinct] at distinct
      have declared : (MemberList.cons name type attributes rest).find? name =
          some (0, ⟨name, type, attributes⟩) := by
        simp [MemberList.find?]
      cases laid with
      | cons memberLaid sized aligns spans fits restLaid =>
          simp only [MemberList.planEach] at failed
          split at failed
          next missing =>
            cases failed
            exact ⟨name, 0, _, declared, .inl ⟨missing, rfl⟩, fun _ _ _ _ => nofun⟩
          next value known =>
            rcases Plan.andThen_fails failed with stopped | ⟨whole, later⟩
            · have blames := memberLaid.plan_blames distinct.2.1 stopped
              exact ⟨name, 0, _, declared, .inr ⟨value, known, blames⟩, fun _ _ _ _ => nofun⟩
            · have filled := memberLaid.filledBy sized
                (memberLaid.accepts (Plan.eq_of_whole whole))
              obtain ⟨other, position, member, offence⟩ :=
                restLaid.planEach_blames distinct.2.2 later
              exact ⟨other, position + 1, member, offence.later distinct.1 known filled⟩
      | tail memberLaid aligns unsized fits =>
          simp only [MemberList.planEach] at failed
          split at failed
          next missing =>
            cases failed
            exact ⟨name, 0, _, declared, .inl ⟨missing, rfl⟩, fun _ _ _ _ => nofun⟩
          next value known =>
            rcases Plan.andThen_fails failed with stopped | ⟨_, later⟩
            · have blames := memberLaid.plan_blames distinct.2.1 stopped
              exact ⟨name, 0, _, declared, .inr ⟨value, known, blames⟩, fun _ _ _ _ => nofun⟩
            · cases later
end

/-- The place that the failure of a plan for a whole value names. It leads to a part of the type
and to a part of the value that does not fit it, and the failure is right about that part. Every
place before that one in declaration and index order, or before the member that is missing there,
is there in the value and holds what fits. -/
theorem LaidOut.plan_firstOffence {type : TypeDescriptor} {layout : Layout} {room : Room}
    {offset : Nat} {value : HostValue} {error : EncodeError} (laid : LaidOut type layout)
    (distinct : type.Distinct)
    (failed : (type.plan room [] offset layout value).failure = some error)
    (bounded : ∀ path start needed size, error ≠ .outOfBounds path start needed size) :
    ∃ path inner part, type.part? path = some (path, inner) ∧ value.at? path = some part ∧
      error.Reports path inner part ∧ ¬ inner.Accepts part ∧
      ∀ other earlier, type.part? other = some (other, earlier) →
        type.PlacedBefore other (path ++ error.missing) →
          ∃ found, value.at? other = some found ∧ earlier.Accepts found := by
  obtain ⟨path, inner, part, offence⟩ := laid.plan_blames distinct failed bounded
  have reports : error.Reports path inner part := offence.reports
  exact ⟨path, inner, part, offence.inType, offence.inValue, reports, reports.not_accepts,
    offence.before⟩

end ShaderKit
