import ShaderKit.Proofs.Codec.Ranges

/-!
# Updates at unrelated paths

Two paths of which neither begins with the other part somewhere, and there they lead to different
members, elements, columns or components of one value. These have no byte in common, and neither
have the places that the paths lead to inside them. So updates at such paths store apart from each
other, and their order does not matter.
-/

namespace ShaderKit

/-! ## Letters read as indices -/

def TypeDescriptor.indexed (type : TypeDescriptor) (segment : PathSegment) : PathSegment :=
  match type, segment with
  | .vector .., .member letter =>
      match componentOfLetter? letter with
      | some index => .index index
      | none => .member letter
  | _, other => other

def TypeDescriptor.indexedPath : TypeDescriptor → ValuePath → ValuePath
  | _, [] => []
  | type, segment :: rest =>
      type.indexed segment ::
        match type.step? segment with
        | some (_, inner) => inner.indexedPath rest
        | none => rest
termination_by structural _ path => path

/-- Neither of the paths begins with the other, letters read as indices. -/
def TypeDescriptor.Unrelated (type : TypeDescriptor) (first second : ValuePath) : Prop :=
  ¬ type.indexedPath first <+: type.indexedPath second ∧
    ¬ type.indexedPath second <+: type.indexedPath first

section

variable {type : TypeDescriptor} {layout : Layout} {place first second : Place}

theorem TypeDescriptor.step?_of_elementAt {index : Nat}
    (found : type.elementAt layout index = .ok place) :
    type.step? (.index index) = some (.index index, place.type) := by
  unfold elementAt at found
  split at found
  next =>
    split at found
    next admitted => cases found; simp [step?, admitted]
    next => cases found
  next =>
    split at found
    next below => cases found; simp [step?, below]
    next => cases found
  next =>
    split at found
    next below => cases found; simp [step?, componentStep?, below]
    next => cases found
  next => cases found

theorem TypeDescriptor.step?_of_memberAt? {name : String}
    (found : type.memberAt? layout name = some place) :
    type.step? (.member name) = some (.member name, place.type) := by
  cases type with
  | struct label members =>
      simp only [memberAt?, members?, Option.bind_eq_bind, Option.bind_some,
        Option.bind_eq_some_iff, Option.some.injEq] at found
      obtain ⟨⟨position, member⟩, declared, _, _, same⟩ := found
      simp [step?, declared, ← same]
  | _ => cases found

theorem TypeDescriptor.memberAt?_of_stepAt {name : String}
    (stepped : type.stepAt layout (.member name) = .ok (place, .member name)) :
    type.memberAt? layout name = some place := by
  simp only [stepAt] at stepped
  split at stepped
  next found => cases stepped; exact found
  next =>
    split at stepped
    next =>
      obtain ⟨_, _, impossible⟩ := map_eq_ok.mp stepped
      cases impossible
    next => cases stepped

/-- What a step takes is the segment with its letter read as an index, and this segment leads to
the same place. -/
theorem TypeDescriptor.stepAt_indexed {segment taken : PathSegment}
    (stepped : type.stepAt layout segment = .ok (place, taken)) :
    taken = type.indexed segment ∧ type.stepAt layout taken = .ok (place, taken) ∧
      type.step? segment = some (taken, place.type) := by
  cases segment with
  | index index =>
      obtain ⟨inner, found, same⟩ := map_eq_ok.mp stepped
      cases same
      refine ⟨?_, stepped, step?_of_elementAt found⟩
      cases type <;> rfl
  | member name =>
      simp only [stepAt] at stepped
      split at stepped
      next found =>
        cases stepped
        refine ⟨?_, by simp [stepAt, found], step?_of_memberAt? found⟩
        cases type with
        | struct => rfl
        | _ => cases found
      next =>
        split at stepped
        next kind width index letter missing =>
          obtain ⟨inner, found, same⟩ := map_eq_ok.mp stepped
          cases same
          refine ⟨by simp [indexed, letter], by rw [stepAt, found]; rfl, ?_⟩
          rw [← step?_of_elementAt found]
          simp [step?, letter]
        next => cases stepped

/-! ## Different parts of one value -/

/-- The first place has a known size and ends before the second one starts. -/
def Place.Before (first second : Place) : Prop :=
  ∃ size, first.layout.size = some size ∧ first.offset + size ≤ second.offset

theorem LaidOut.elementAt_before {index later : Nat} (laid : LaidOut type layout)
    (one : type.elementAt layout index = .ok first)
    (two : type.elementAt layout later = .ok second) (below : index < later) :
    first.Before second := by
  cases laid with
  | scalar | atomic | struct => cases one
  | vector kind width =>
      simp only [TypeDescriptor.elementAt] at one two
      split at one <;> cases one
      split at two <;> cases two
      exact ⟨_, rfl, item_le below (Nat.le_refl _)⟩
  | matrix kind columns rows =>
      simp only [TypeDescriptor.elementAt, Layout.ofMatrix] at one two
      split at one <;> cases one
      split at two <;> cases two
      exact ⟨_, rfl, item_le below (size_le_columnStride kind rows)⟩
  | @array element length inner size elementLaid sized fits =>
      simp only [TypeDescriptor.elementAt] at one two
      split at one <;> cases one
      split at two <;> cases two
      exact ⟨size, sized, item_le below (le_roundUp elementLaid.alignment_positive size)⟩

theorem MemberAt.free_le {name : String} {members : MemberList} {layouts : MemberLayouts}
    (known : MemberAt name members layouts place) {free alignment : Nat} {run : MemberRun}
    (laid : MembersLaidOut free alignment members run) (same : run.layouts = layouts) :
    free ≤ place.offset := by
  induction known generalizing free alignment run with
  | here =>
      cases laid with
      | cons memberLaid sized aligns =>
          cases same
          exact aligns.le_roundUp memberLaid.alignment_power free
      | tail memberLaid aligns =>
          cases same
          exact aligns.le_roundUp memberLaid.alignment_power free
  | there different later induction =>
      cases laid with
      | cons memberLaid sized aligns spans fits restLaid =>
          cases same
          have start := aligns.le_roundUp memberLaid.alignment_power free
          have next := induction restLaid rfl
          omega
      | tail => cases later

theorem MemberAt.apart {name other : String} {members : MemberList} {layouts : MemberLayouts}
    (one : MemberAt name members layouts first) (two : MemberAt other members layouts second)
    (different : name ≠ other) {free alignment : Nat} {run : MemberRun}
    (laid : MembersLaidOut free alignment members run) (same : run.layouts = layouts) :
    first.Before second ∨ second.Before first := by
  induction one generalizing free alignment run with
  | here =>
      cases two with
      | here => exact absurd rfl different
      | there _ later =>
          cases laid with
          | cons memberLaid sized aligns spans fits restLaid =>
              cases same
              have reserved := spans.le
              have next := later.free_le restLaid rfl
              exact .inl ⟨_, sized, by dsimp only; omega⟩
          | tail => cases later
  | there _ earlier induction =>
      cases laid with
      | cons memberLaid sized aligns spans fits restLaid =>
          cases same
          cases two with
          | here =>
              have reserved := spans.le
              have next := earlier.free_le restLaid rfl
              exact .inr ⟨_, sized, by dsimp only; omega⟩
          | there _ later => exact induction later restLaid rfl
      | tail => cases earlier

/-- Different steps from one type lead to places of which one ends before the other starts. -/
theorem LaidOut.stepAt_apart {one two : PathSegment} (laid : LaidOut type layout)
    (firstStep : type.stepAt layout one = .ok (first, one))
    (secondStep : type.stepAt layout two = .ok (second, two)) (different : one ≠ two) :
    first.Before second ∨ second.Before first := by
  cases one with
  | index index =>
      obtain ⟨_, firstFound, same⟩ := map_eq_ok.mp firstStep
      cases same
      cases two with
      | index other =>
          obtain ⟨_, secondFound, same⟩ := map_eq_ok.mp secondStep
          cases same
          have indices : index ≠ other := fun same => different (congrArg _ same)
          rcases Nat.lt_or_gt_of_ne indices with below | above
          · exact .inl (laid.elementAt_before firstFound secondFound below)
          · exact .inr (laid.elementAt_before secondFound firstFound above)
      | member name =>
          have found := TypeDescriptor.memberAt?_of_stepAt secondStep
          cases laid with
          | struct => cases firstFound
          | _ => cases found
  | member name =>
      have firstFound := TypeDescriptor.memberAt?_of_stepAt firstStep
      cases laid with
      | @struct label members run filled membersLaid fits =>
          cases two with
          | index other => cases secondStep
          | member other =>
              have secondFound := TypeDescriptor.memberAt?_of_stepAt secondStep
              have names : name ≠ other := fun same => different (congrArg _ same)
              exact (membersLaid.memberAt_of_memberAt? firstFound).apart
                (membersLaid.memberAt_of_memberAt? secondFound) names membersLaid rfl
      | _ => cases firstFound

end

/-! ## Unrelated paths lead to places apart from each other -/

namespace Place

variable {root first second place : Place} {path one two visited other : ValuePath}

theorem locate_cons {segment : PathSegment}
    (located : root.locate visited (segment :: path) = .ok place) :
    ∃ inner taken, root.type.stepAt root.layout segment = .ok (inner, taken) ∧
      (root.within inner).locate (visited ++ [taken]) path = .ok place := by
  unfold locate at located
  split at located
  next => cases located
  next inner taken stepped => exact ⟨inner, taken, stepped, located⟩

theorem offset_le_of_locate (located : root.locate visited path = .ok place) :
    root.offset ≤ place.offset := by
  induction path generalizing root visited with
  | nil => cases located; exact Nat.le_refl _
  | cons segment rest induction =>
      obtain ⟨inner, taken, _, later⟩ := locate_cons located
      exact Nat.le_trans (Nat.le_add_right _ _) (induction later)

theorem Laid.encodedLength_le (laid : root.Laid) (located : root.locate visited path = .ok place)
    (value : HostValue) :
    place.offset + place.type.encodedLength place.layout value ≤ root.stop := by
  rcases laid.locate_cases path visited with ⟨part, taken, found, _, inside⟩ | ⟨error, failed, _⟩
  · cases found.symm.trans located
    obtain ⟨size, sized⟩ := inside.laid.sized
    have stops := inside.stops
    rw [stop_of_size sized] at stops
    rwa [encodedLength_of_size value sized]
  · cases failed.symm.trans located

theorem Before.locate (before : first.Before second) (rules : LaidOut first.type first.layout)
    {start finish : Place} (startLocated : (root.within first).locate visited one = .ok start)
    (finishLocated : (root.within second).locate other two = .ok finish) (value : HostValue) :
    start.offset + start.type.encodedLength start.layout value ≤ finish.offset := by
  obtain ⟨size, sized, ends⟩ := before
  have laid : (root.within first).Laid := ⟨rules, size, sized⟩
  have starts := offset_le_of_locate finishLocated
  have stops := laid.encodedLength_le startLocated value
  have reach : (root.within first).stop = (root.within first).offset + size := stop_of_size sized
  rw [reach] at stops
  dsimp only [within] at starts stops
  omega

theorem locate_apart (laid : LaidOut root.type root.layout) (unrelated : root.type.Unrelated one two)
    (firstLocated : root.locate visited one = .ok first)
    (secondLocated : root.locate other two = .ok second) (firstValue secondValue : HostValue) :
    first.offset + first.type.encodedLength first.layout firstValue ≤ second.offset ∨
      second.offset + second.type.encodedLength second.layout secondValue ≤ first.offset := by
  induction one generalizing root two visited other with
  | nil => exact absurd (by simp [TypeDescriptor.indexedPath]) unrelated.1
  | cons segment rest induction =>
      cases two with
      | nil => exact absurd (by simp [TypeDescriptor.indexedPath]) unrelated.2
      | cons otherSegment otherRest =>
          obtain ⟨inner, taken, firstStep, firstLater⟩ := locate_cons firstLocated
          obtain ⟨otherInner, otherTaken, secondStep, secondLater⟩ := locate_cons secondLocated
          obtain ⟨same, firstAgain, firstType⟩ := TypeDescriptor.stepAt_indexed firstStep
          obtain ⟨otherSame, secondAgain, secondType⟩ := TypeDescriptor.stepAt_indexed secondStep
          have innerLaid := laid.stepAt firstStep
          by_cases together : taken = otherTaken
          · subst together
            cases firstAgain.symm.trans secondAgain
            simp only [TypeDescriptor.Unrelated, TypeDescriptor.indexedPath, ← same, ← otherSame,
              firstType, secondType, List.cons_prefix_cons, true_and] at unrelated
            exact @induction (root.within inner) _ _ _ innerLaid unrelated firstLater secondLater
          · rcases laid.stepAt_apart firstAgain secondAgain together with before | before
            · exact .inl (before.locate innerLaid firstLater secondLater _)
            · exact .inr (before.locate (laid.stepAt secondStep) secondLater firstLater _)

end Place

/-! ## Stores apart from each other -/

namespace Bytes

variable {buffer first second : Bytes} {position : Nat}

theorem getElem?_write_congr (size : first.size = second.size)
    (same : first[position]? = second[position]?) (offset : Nat) (bytes : List UInt8) :
    (first.write offset bytes)[position]? = (second.write offset bytes)[position]? := by
  induction bytes generalizing first second offset with
  | nil => exact same
  | cons byte rest induction =>
      apply induction (by simp [size])
      simp only [Array.getElem?_setIfInBounds, size, same]

theorem getElem?_apply_congr (size : first.size = second.size)
    (same : first[position]? = second[position]?) (patches : List Patch) :
    (first.apply patches)[position]? = (second.apply patches)[position]? := by
  induction patches generalizing first second with
  | nil => exact same
  | cons patch rest induction =>
      exact induction (by simp [size]) (getElem?_write_congr size same _ _)

theorem apply_comm {one two : List Patch} (buffer : Bytes) (middle : Nat)
    (before : ∀ patch ∈ one, patch.span.finish ≤ middle)
    (after : ∀ patch ∈ two, middle ≤ patch.span.offset) :
    (buffer.apply one).apply two = (buffer.apply two).apply one := by
  apply Array.ext_getElem?
  intro position
  rcases Nat.lt_or_ge position middle with low | high
  · have untouched : ∀ bytes : Bytes, (bytes.apply two)[position]? = bytes[position]? := by
      intro bytes
      apply getElem?_apply_outside
      intro patch member
      have start := after patch member
      omega
    rw [untouched]
    exact (getElem?_apply_congr (by simp) (untouched buffer) one).symm
  · have untouched : ∀ bytes : Bytes, (bytes.apply one)[position]? = bytes[position]? := by
      intro bytes
      apply getElem?_apply_outside
      intro patch member
      have finish := before patch member
      omega
    rw [untouched]
    exact getElem?_apply_congr (by simp) (untouched buffer) two

end Bytes

section

variable {root : Place} {available : Nat} {buffer : Bytes} {one two : Update}
  {first second : Target}

theorem Update.Accepted.ranges_apart (laid : LaidOut root.type root.layout)
    (unrelated : root.type.Unrelated one.path two.path)
    (firstAccepted : one.Accepted root available first)
    (secondAccepted : two.Accepted root available second) :
    first.range.stop ≤ second.range.start ∨ second.range.stop ≤ first.range.start := by
  have apart := Place.locate_apart laid unrelated firstAccepted.located secondAccepted.located
    one.value two.value
  rwa [← firstAccepted.length, ← secondAccepted.length] at apart

theorem Update.Accepted.apply_comm_of_le (buffer : Bytes)
    (laid : LaidOut root.type root.layout)
    (firstAccepted : one.Accepted root available first)
    (secondAccepted : two.Accepted root available second)
    (apart : first.range.stop ≤ second.range.start) :
    (buffer.apply (first.plan available).patches).apply (second.plan available).patches =
      (buffer.apply (second.plan available).patches).apply (first.plan available).patches := by
  apply Bytes.apply_comm buffer second.range.start
  · intro patch planned
    exact Nat.le_trans (firstAccepted.patch_inside laid planned).2 apart
  · intro patch planned
    exact (secondAccepted.patch_inside laid planned).1

/-- What is planned for updates at unrelated paths is stored alike in both orders. -/
theorem Update.Accepted.apply_comm (buffer : Bytes) (laid : LaidOut root.type root.layout)
    (unrelated : root.type.Unrelated one.path two.path)
    (firstAccepted : one.Accepted root available first)
    (secondAccepted : two.Accepted root available second) :
    (buffer.apply (first.plan available).patches).apply (second.plan available).patches =
      (buffer.apply (second.plan available).patches).apply (first.plan available).patches := by
  rcases firstAccepted.ranges_apart laid unrelated secondAccepted with before | before
  · exact firstAccepted.apply_comm_of_le buffer laid secondAccepted before
  · exact (secondAccepted.apply_comm_of_le buffer laid firstAccepted before).symm

theorem TypeDescriptor.Unrelated.symm {type : TypeDescriptor} {path other : ValuePath}
    (unrelated : type.Unrelated path other) : type.Unrelated other path :=
  And.symm unrelated

end

end ShaderKit
