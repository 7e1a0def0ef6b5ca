import ShaderKit.Proofs.Value.Paths

/-!
# Places inside values

What is stored at a place is read there again, and nothing is changed at a place apart from it.
The laws are proved for one segment first. A path takes them over from its segments, because
replacing inside a part replaces the part. A store that is made in place, on parts that stay where
they are, leaves everything as it was if it fails on the way.
-/

namespace ShaderKit.HostValue

/-! ## Members by name -/

section

variable {name other : String} {members : List (String × HostValue)} {old first second : HostValue}

theorem memberIn?_replaceMember_self (known : memberIn? name members = some old) :
    memberIn? name (replaceMember name first members) = some first := by
  induction members with
  | nil => cases known
  | cons member members induction =>
      rw [memberIn?] at known
      rw [replaceMember]
      split at known
      next same => simp [memberIn?, same]
      next different => simp [memberIn?, different, induction known]

theorem memberIn?_replaceMember_of_ne (different : other ≠ name) :
    memberIn? other (replaceMember name first members) = memberIn? other members := by
  induction members with
  | nil => rfl
  | cons member members induction =>
      rw [replaceMember]
      split
      next same => simp [memberIn?, same, different.symm]
      next => simp [memberIn?, induction]

theorem replaceMember_self (known : memberIn? name members = some old) :
    replaceMember name old members = members := by
  induction members with
  | nil => cases known
  | cons member members induction =>
      rw [memberIn?] at known
      rw [replaceMember]
      split at known
      next same =>
        cases known
        rw [if_pos same]
      next different => rw [if_neg different, induction known]

theorem replaceMember_replaceMember :
    replaceMember name second (replaceMember name first members) =
      replaceMember name second members := by
  induction members with
  | nil => rfl
  | cons member members induction =>
      rw [replaceMember]
      split
      next same => simp [replaceMember, same]
      next different => simp [replaceMember, different, induction]

end

/-! ## One segment -/

/-- What replacing the part behind one segment does, by the shape of the whole. A column keeps its
height, and a component is a scalar. -/
inductive Replaces : HostValue → HostValue → PathSegment → HostValue → Prop where
  | member {new old : HostValue} {name : String} {members : List (String × HostValue)}
      (known : memberIn? name members = some old) :
      Replaces new (.struct members) (.member name) (.struct (replaceMember name new members))
  | element {new : HostValue} {position : Nat} {elements : List HostValue}
      (below : position < elements.length) :
      Replaces new (.array elements) (.index position) (.array (elements.set position new))
  | column {position : Nat} {columns : List Components} {column replaced : Components}
      (known : columns[position]? = some column) (height : replaced.length = column.length) :
      Replaces (.vector replaced) (.matrix columns) (.index position)
        (.matrix (columns.set position replaced))
  | component {position : Nat} {components : Components} {component : Scalar}
      (below : position < components.length) :
      Replaces (.scalar component) (.vector components) (.index position)
        (.vector (components.set position component))

variable {new second whole part after : HostValue} {segment other : PathSegment}

theorem replaces_of_setAt? (done : setAt? new whole [segment] = some after) :
    Replaces new whole segment after := by
  cases whole <;> cases segment <;> try cases done
  case struct.member members name =>
      rcases Option.bind_eq_some_iff.mp done with ⟨old, known, same⟩
      cases same
      exact .member known
  case array.index elements position =>
      rcases Option.bind_eq_some_iff.mp done with ⟨old, known, same⟩
      cases same
      exact .element (List.getElem?_eq_some_iff.mp known).1
  case matrix.index columns position =>
      rcases Option.bind_eq_some_iff.mp done with ⟨column, known, rest⟩
      rcases Option.bind_eq_some_iff.mp rest with ⟨replaced, inside, same⟩
      cases same
      cases new with
      | vector components =>
          rw [replaceInColumn] at inside
          split at inside
          next height =>
            cases inside
            exact .column known height
          next => cases inside
      | _ => cases inside
  case vector.index components position =>
      rcases Option.bind_eq_some_iff.mp done with ⟨replaced, inside, same⟩
      cases same
      rcases Option.bind_eq_some_iff.mp inside with ⟨component, scalar, stored⟩
      cases new <;> cases scalar
      rw [replaceAt] at stored
      split at stored
      next below =>
        cases stored
        exact .component below
      next => cases stored

namespace Replaces

theorem at?_self (replaces : Replaces new whole segment after) :
    after.at? [segment] = some new := by
  cases replaces with
  | member known => simp [at?, memberIn?_replaceMember_self known]
  | element below => simp [at?, below]
  | column known => simp [at?, (List.getElem?_eq_some_iff.mp known).1]
  | component below => simp [at?, below]

theorem at?_of_ne (replaces : Replaces new whole segment after) (different : other ≠ segment) :
    after.at? [other] = whole.at? [other] := by
  cases replaces with
  | @member _ _ name members known =>
      cases other with
      | index position => rfl
      | member given =>
          have apart : given ≠ name := fun same => different (by rw [same])
          simp [at?, memberIn?_replaceMember_of_ne apart]
  | @element _ position elements below =>
      cases other with
      | member given => rfl
      | index given =>
          have apart : position ≠ given := fun same => different (by rw [same])
          simp [at?, List.getElem?_set_ne apart]
  | @column position columns _ _ known =>
      cases other with
      | member given => rfl
      | index given =>
          have apart : position ≠ given := fun same => different (by rw [same])
          simp [at?, List.getElem?_set_ne apart]
  | @component position components _ below =>
      cases other with
      | member given => rfl
      | index given =>
          have apart : position ≠ given := fun same => different (by rw [same])
          simp [at?, List.getElem?_set_ne apart]

theorem setAt?_again (replaces : Replaces new whole segment after) :
    setAt? second after [segment] = setAt? second whole [segment] := by
  cases replaces with
  | member known =>
      simp [setAt?, known, memberIn?_replaceMember_self known, replaceMember_replaceMember]
  | element below => simp [setAt?, below]
  | @column position columns column replaced known height =>
      have below := (List.getElem?_eq_some_iff.mp known).1
      rw [setAt?_column known, setAt?_column (List.getElem?_set_self below)]
      cases second <;> simp [replaceInColumn, height]
  | component below =>
      cases second <;> simp [setAt?, replaceComponent, scalar?, replaceAt, below]

end Replaces

theorem setAt?_self_segment (found : whole.at? [segment] = some part) :
    setAt? part whole [segment] = some whole := by
  cases whole <;> cases segment <;> try cases found
  case struct.member members name =>
      rcases Option.bind_eq_some_iff.mp found with ⟨inner, known, same⟩
      cases same
      simp [setAt?, known, replaceMember_self known]
  case array.index elements position =>
      rcases Option.bind_eq_some_iff.mp found with ⟨inner, known, same⟩
      cases same
      rcases List.getElem?_eq_some_iff.mp known with ⟨below, rfl⟩
      simp [setAt?, below]
  case matrix.index columns position =>
      rcases Option.bind_eq_some_iff.mp found with ⟨column, known, same⟩
      cases same
      rcases List.getElem?_eq_some_iff.mp known with ⟨below, rfl⟩
      simp [setAt?_column known, replaceInColumn]
  case vector.index components position =>
      rcases Option.bind_eq_some_iff.mp found with ⟨component, known, same⟩
      cases same
      rcases List.getElem?_eq_some_iff.mp known with ⟨below, rfl⟩
      simp [setAt?, replaceComponent, scalar?, replaceAt, below]

/-! ## Paths -/

variable {path : ValuePath}

theorem parts_of_setAt? {rest : ValuePath}
    (done : setAt? new whole (segment :: rest) = some after) :
    ∃ part replaced, whole.at? [segment] = some part ∧ setAt? new part rest = some replaced ∧
      Replaces replaced whole segment after := by
  cases found : whole.at? [segment] with
  | none =>
      rw [setAt?_of_missing found] at done
      cases done
  | some part =>
      rw [setAt?_cons found] at done
      rcases Option.bind_eq_some_iff.mp done with ⟨replaced, inside, outside⟩
      exact ⟨part, replaced, rfl, inside, replaces_of_setAt? outside⟩

theorem at?_setAt?_self (done : setAt? new whole path = some after) :
    after.at? path = some new := by
  induction path generalizing whole after with
  | nil =>
      cases done
      rfl
  | cons segment rest induction =>
      rcases parts_of_setAt? done with ⟨part, replaced, _, inside, replaces⟩
      rw [at?_cons, replaces.at?_self]
      exact induction inside

/-- Neither of two paths leads on from the other. -/
def Apart (first second : ValuePath) : Prop :=
  ¬ first <+: second ∧ ¬ second <+: first

theorem at?_setAt?_of_apart {other : ValuePath} (done : setAt? new whole path = some after)
    (apart : Apart path other) : after.at? other = whole.at? other := by
  induction path generalizing whole after other with
  | nil => exact absurd List.nil_prefix apart.1
  | cons segment rest induction =>
      rcases parts_of_setAt? done with ⟨part, replaced, found, inside, replaces⟩
      cases other with
      | nil => exact absurd List.nil_prefix apart.2
      | cons first others =>
          rw [at?_cons after, at?_cons whole]
          by_cases same : first = segment
          · subst same
            have further : Apart rest others := by
              rwa [Apart, List.cons_prefix_cons, List.cons_prefix_cons, and_iff_right rfl,
                and_iff_right rfl] at apart
            rw [replaces.at?_self, found]
            exact induction inside further
          · rw [replaces.at?_of_ne same]

theorem setAt?_self (found : whole.at? path = some part) :
    setAt? part whole path = some whole := by
  induction path generalizing whole with
  | nil =>
      cases found
      rfl
  | cons segment rest induction =>
      rw [at?_cons] at found
      rcases Option.bind_eq_some_iff.mp found with ⟨inner, first, behind⟩
      rw [setAt?_cons first, induction behind]
      exact setAt?_self_segment first

theorem setAt?_setAt? (done : setAt? new whole path = some after) :
    setAt? second after path = setAt? second whole path := by
  induction path generalizing whole after with
  | nil => rfl
  | cons segment rest induction =>
      rcases parts_of_setAt? done with ⟨part, replaced, found, inside, replaces⟩
      rw [setAt?_cons replaces.at?_self, setAt?_cons found, induction inside]
      congr 1
      funext inner
      exact replaces.setAt?_again

/-! ## Storing in place -/

def storeComponent (new : HostValue) (components : Components) (position : Nat) :
    Components × Bool :=
  match new.scalar? with
  | some component =>
      if position < components.length then (components.set position component, true)
      else (components, false)
  | none => (components, false)

def storeInColumn (new : HostValue) (column : Components) : ValuePath → Components × Bool
  | [] =>
      match new with
      | .vector components =>
          if components.length = column.length then (components, true) else (column, false)
      | _ => (column, false)
  | [.index position] => storeComponent new column position
  | _ => (column, false)

/-- Store at the end of a path without copying what is around it: the part behind the first
segment stays in the whole while it is changed, whether or not the store inside is done. -/
def storeAt (new : HostValue) : HostValue → ValuePath → HostValue × Bool
  | _, [] => (new, true)
  | .struct members, .member name :: rest =>
      match memberIn? name members with
      | none => (.struct members, false)
      | some inner =>
          let stored := storeAt new inner rest
          (.struct (replaceMember name stored.1 members), stored.2)
  | .array elements, .index position :: rest =>
      match elements[position]? with
      | none => (.array elements, false)
      | some inner =>
          let stored := storeAt new inner rest
          (.array (elements.set position stored.1), stored.2)
  | .matrix columns, .index position :: rest =>
      match columns[position]? with
      | none => (.matrix columns, false)
      | some column =>
          let stored := storeInColumn new column rest
          (.matrix (columns.set position stored.1), stored.2)
  | .vector components, [.index position] =>
      let stored := storeComponent new components position
      (.vector stored.1, stored.2)
  | whole, _ => (whole, false)
termination_by structural _ path => path

def kept {α : Type} (before : α) (replaced : Option α) : α × Bool :=
  (replaced.getD before, replaced.isSome)

theorem storeComponent_eq (components : Components) (position : Nat) :
    storeComponent new components position =
      kept components (replaceComponent components position new) := by
  unfold storeComponent
  cases new with
  | scalar component =>
      by_cases below : position < components.length <;>
        simp [replaceComponent, scalar?, replaceAt, below, kept]
  | _ => rfl

theorem storeInColumn_eq (column : Components) (path : ValuePath) :
    storeInColumn new column path = kept column (replaceInColumn column new path) := by
  match path with
  | [] =>
      cases new with
      | vector components =>
          by_cases height : components.length = column.length <;>
            simp [storeInColumn, replaceInColumn, height, kept]
      | _ => rfl
  | [.index position] => exact storeComponent_eq column position
  | .member name :: rest => rfl
  | .index position :: next :: rest => rfl

/-- Storing in place is replacing, and a store that fails has changed nothing. -/
theorem storeAt_eq (new whole : HostValue) (path : ValuePath) :
    storeAt new whole path = kept whole (setAt? new whole path) := by
  induction path generalizing whole with
  | nil => rfl
  | cons segment rest induction =>
      cases whole <;> cases segment <;> try rfl
      case struct.member members name =>
          cases known : memberIn? name members with
          | none => simp [storeAt, setAt?, known, kept]
          | some inner =>
              cases done : setAt? new inner rest <;>
                simp [storeAt, setAt?, known, kept, induction, done, replaceMember_self known]
      case array.index elements position =>
          cases known : elements[position]? with
          | none => simp [storeAt, setAt?, known, kept]
          | some inner =>
              rcases List.getElem?_eq_some_iff.mp known with ⟨below, rfl⟩
              cases done : setAt? new elements[position] rest <;>
                simp [storeAt, setAt?, kept, induction, done, below]
      case matrix.index columns position =>
          cases known : columns[position]? with
          | none => simp [storeAt, setAt?, known, kept]
          | some column =>
              rcases List.getElem?_eq_some_iff.mp known with ⟨below, rfl⟩
              cases done : replaceInColumn columns[position] new rest <;>
                simp [storeAt, setAt?, kept, storeInColumn_eq, done, below]
      case vector.index components position =>
          cases rest with
          | nil =>
              cases done : replaceComponent components position new <;>
                simp [storeAt, setAt?, kept, storeComponent_eq, done]
          | cons next rest => rfl

/-- Stores and loads through a path: what was stored is loaded, places apart from it keep their
parts, a second store makes the first one undone, and storing what is there changes nothing. A
store in place that fails leaves the value as it was. -/
theorem storeAt_lens (new whole : HostValue) (path : ValuePath) :
    (∀ after, setAt? new whole path = some after →
      storeAt new whole path = (after, true) ∧ after.at? path = some new ∧
        (∀ other, Apart path other → after.at? other = whole.at? other) ∧
        ∀ second, setAt? second after path = setAt? second whole path) ∧
      (∀ part, whole.at? path = some part → setAt? part whole path = some whole) ∧
      (setAt? new whole path = none → storeAt new whole path = (whole, false)) := by
  refine ⟨fun after done => ⟨?_, at?_setAt?_self done, ?_, ?_⟩, ?_, fun failed => ?_⟩
  · rw [storeAt_eq, done]
    rfl
  · exact fun other apart => at?_setAt?_of_apart done apart
  · exact fun second => setAt?_setAt? done
  · exact fun part found => setAt?_self found
  · rw [storeAt_eq, failed]
    rfl

def exampleLamp : HostValue :=
  .struct [("turn", .matrix [[.u32 0, .u32 1], [.u32 2, .u32 3]]), ("level", .scalar (.u32 4)),
    ("turn", .scalar (.u32 5))]

def exampleLampTurned : HostValue :=
  .struct [("turn", .matrix [[.u32 0, .u32 1], [.u32 9, .u32 3]]), ("level", .scalar (.u32 4)),
    ("turn", .scalar (.u32 5))]

theorem storeAt_lens_exampleLamp :
    storeAt (.scalar (.u32 9)) exampleLamp [.member "turn", .index 1, .index 0] =
        (exampleLampTurned, true) ∧
      exampleLampTurned.at? [.member "turn", .index 1, .index 0] = some (.scalar (.u32 9)) ∧
      exampleLampTurned.at? [.member "turn", .index 0] =
        exampleLamp.at? [.member "turn", .index 0] ∧
      setAt? (.scalar (.u32 2)) exampleLampTurned [.member "turn", .index 1, .index 0] =
        setAt? (.scalar (.u32 2)) exampleLamp [.member "turn", .index 1, .index 0] ∧
      setAt? (.scalar (.u32 2)) exampleLamp [.member "turn", .index 1, .index 0] =
        some exampleLamp ∧
      storeAt (.scalar (.u32 9)) exampleLamp [.member "turn", .index 1] =
        (exampleLamp, false) := by
  rcases storeAt_lens (.scalar (.u32 9)) exampleLamp [.member "turn", .index 1, .index 0] with
    ⟨stores, _, _⟩
  rcases stores exampleLampTurned rfl with ⟨done, loaded, others, again⟩
  have old := (storeAt_lens (.scalar (.u32 2)) exampleLamp
    [.member "turn", .index 1, .index 0]).2.1 _ rfl
  have refused := (storeAt_lens (.scalar (.u32 9)) exampleLamp [.member "turn", .index 1]).2.2 rfl
  refine ⟨done, loaded, others [.member "turn", .index 0] ?_, again _, old, refused⟩
  unfold Apart
  decide

end ShaderKit.HostValue
