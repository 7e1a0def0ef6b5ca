import ShaderKit.Proofs.Codec.Independence
import ShaderKit.Proofs.Codec.Words.Plans

/-!
# Updates in words

Updates that are refused leave the buffer as it was. Those that were accepted are written, except
that writing panics at a scalar that straddles the last address. As long as all of them end below
the limit of the addresses there is no such scalar, and updates in words are updates.
-/

namespace ShaderKit

/-- Where the path of the update leads to a place, its value ends below the limit of the
addresses. -/
def Update.Addressable (root : Place) (update : Update) : Prop :=
  ∀ place, root.locate [] update.path = .ok place →
    place.offset + place.type.encodedLength place.layout update.value < addressLimit

def plannedPatches (room : Room) (targets : List Target) : List Patch :=
  targets.flatMap fun target => (target.plan room).patches

section

variable {root : Place} {room : Room} {available : Nat} {update : Update} {target : Target}
  {updates : List Update} {targets : List Target} {buffer : Bytes}

/-! ## Checks in words -/

theorem Update.plan_whole_of_check (checked : update.check root room = .ok target) :
    (target.plan room).failure = none := by
  rcases bind_eq_ok.mp checked with ⟨place, located, checked⟩
  dsimp only at checked
  split at checked
  next => cases checked
  next =>
    split at checked
    next => cases checked
    next whole =>
      cases checked
      exact whole

theorem plan_whole_of_checkUpdates (checked : checkUpdates root room updates = .ok targets) :
    ∀ target ∈ targets, (target.plan room).failure = none := by
  induction updates generalizing targets with
  | nil =>
      cases checked
      nofun
  | cons update rest induction =>
      rcases bind_eq_ok.mp checked with ⟨first, firstChecked, checked⟩
      rcases bind_eq_ok.mp checked with ⟨others, othersChecked, same⟩
      cases same
      intro target member
      cases member with
      | head => exact Update.plan_whole_of_check firstChecked
      | tail _ later => exact induction othersChecked target later

theorem Update.Addressable.check_words (addressable : update.Addressable root)
    (laid : LaidOut root.type root.layout) (available : Nat) :
    update.check root (.words available) = update.check root available := by
  unfold check
  cases located : root.locate [] update.path with
  | error error => rfl
  | ok place =>
      have fits := addressable place located
      have start : place.offset < addressLimit := by omega
      have length : place.type.encodedLength place.layout update.value < addressLimit := by omega
      have placeLaid := Place.locate_laidOut [] laid located
      have planned := placeLaid.plan_words_of_fits available update.path fits
      simp only [ok_bind, Room.address_words, Room.available_words, lowWord_of_lt fits,
        lowWord_of_lt start, lowWord_of_lt length, Target.plan, planned]
      rfl

theorem checkUpdates_words (laid : LaidOut root.type root.layout)
    (addressable : ∀ update ∈ updates, update.Addressable root) :
    checkUpdates root (.words available) updates = checkUpdates root available updates := by
  induction updates with
  | nil => rfl
  | cons update rest induction =>
      have first := (addressable update List.mem_cons_self).check_words laid available
      have others := induction fun other member =>
        addressable other (List.mem_cons_of_mem update member)
      rw [checkUpdates, checkUpdates, first, others]

namespace Machine

/-! ## Writing in words -/

/-- Targets with whole plans are written as they were planned, up to the first scalar that
straddles the last address. -/
theorem writeTargets_of_apart
    (whole : ∀ target ∈ targets, (target.plan (.words buffer.size)).failure = none)
    (apart : ∀ patch ∈ plannedPatches (.words buffer.size) targets, ¬ patch.Straddles) :
    writeTargets buffer targets =
      ⟨buffer.apply (plannedPatches (.words buffer.size) targets), none⟩ := by
  induction targets generalizing buffer with
  | nil => rfl
  | cons target rest induction =>
      have first := whole target List.mem_cons_self
      let written := buffer.apply (target.plan (.words buffer.size)).patches
      have kept : written.size = buffer.size := Bytes.size_apply _ _
      rw [plannedPatches, List.flatMap_cons] at apart ⊢
      have firstApart : ∀ patch ∈ (target.plan (.words buffer.size)).patches,
          ¬ patch.Straddles := fun patch member => apart patch (List.mem_append_left _ member)
      have others := @induction written
        (fun other member => kept.symm ▸ whole other (List.mem_cons_of_mem _ member))
        (fun patch member => apart patch (List.mem_append_right _ (kept ▸ member)))
      rw [kept] at others
      simp only [writeTargets, first, store_of_apart firstApart, Option.map_none]
      rw [others, Bytes.apply_append]
      rfl

theorem writeTargets_of_straddles
    (whole : ∀ target ∈ targets, (target.plan (.words buffer.size)).failure = none)
    (straddles : ∃ patch ∈ plannedPatches (.words buffer.size) targets, patch.Straddles) :
    (writeTargets buffer targets).halt = some .panicked := by
  induction targets generalizing buffer with
  | nil => simp [plannedPatches] at straddles
  | cons target rest induction =>
      have first := whole target List.mem_cons_self
      simp only [writeTargets, first]
      by_cases here : ∃ patch ∈ (target.plan (.words buffer.size)).patches, patch.Straddles
      · rw [store_of_straddles here]
        exact store_of_straddles here
      · have apart : ∀ patch ∈ (target.plan (.words buffer.size)).patches, ¬ patch.Straddles :=
          fun patch member straddles => here ⟨patch, member, straddles⟩
        rw [store_of_apart apart]
        let written := buffer.apply (target.plan (.words buffer.size)).patches
        have kept : written.size = buffer.size := Bytes.size_apply _ _
        apply @induction written
        · exact fun other member => kept.symm ▸ whole other (List.mem_cons_of_mem _ member)
        · rw [kept]
          rcases straddles with ⟨patch, member, straddles⟩
          rw [plannedPatches, List.flatMap_cons, List.mem_append] at member
          rcases member with inside | later
          · exact absurd straddles (apart patch inside)
          · exact ⟨patch, later, straddles⟩

end Machine

/-! ## Updates that end below the limit of the addresses -/

structure Target.SameInWords (available : Nat) (target : Target) : Prop where
  plan : target.plan (.words available) = target.plan available
  apart : ∀ patch ∈ (target.plan available).patches, ¬ patch.Straddles
  range : Machine.range target = target.range

theorem Update.Accepted.sameInWords (laid : LaidOut root.type root.layout)
    (accepted : update.Accepted root available target)
    (addressable : update.Addressable root) : target.SameInWords available := by
  have placeLaid := Place.locate_laidOut [] laid accepted.located
  have fits := addressable target.place accepted.located
  have stops : target.place.offset + target.length < addressLimit := accepted.length ▸ fits
  rw [← accepted.same] at fits
  exact {
    plan := placeLaid.plan_words_of_fits available target.update.path fits
    apart := fun patch planned => placeLaid.not_straddles_of_fits fits planned
    range := by rw [Machine.range, lowWord_of_lt stops, Target.range] }

theorem sameInWords_of_accepted (laid : LaidOut root.type root.layout)
    (accepted : List.Forall₂ (Update.Accepted root available) updates targets)
    (addressable : ∀ update ∈ updates, update.Addressable root) :
    ∀ target ∈ targets, target.SameInWords available := by
  intro target member
  have same := forall₂_of_mem accepted fun update known target here =>
    here.sameInWords laid (addressable update known)
  have ⟨_, here⟩ := exists_left_of_mem same member
  exact here

namespace Machine

def Updated.of (updated : ShaderKit.Updated) : Updated :=
  ⟨updated.buffer, updated.result.mapError .failed⟩

variable {type : TypeDescriptor} {layout : Layout} {offset : Nat}

theorem updateWithLayout_of_failed {error : EncodeError}
    (failed : (updateWithLayout updates type layout buffer offset).result =
      .error (.failed error)) :
    (updateWithLayout updates type layout buffer offset).buffer = buffer := by
  unfold updateWithLayout at failed ⊢
  split
  next => rfl
  next targets checked =>
    have whole := plan_whole_of_checkUpdates checked
    simp only [checked] at failed
    by_cases straddles :
        ∃ patch ∈ plannedPatches (.words buffer.size) targets, patch.Straddles
    · rw [writeTargets_of_straddles whole straddles] at failed
      cases failed
    · have apart : ∀ patch ∈ plannedPatches (.words buffer.size) targets, ¬ patch.Straddles :=
        fun patch member here => straddles ⟨patch, member, here⟩
      rw [writeTargets_of_apart whole apart] at failed
      cases failed

end Machine

end

namespace Machine

/-- Updates that fail leave the buffer as it was. Once every update has been accepted, writing
panics exactly if one of the scalars that were planned straddles the last address, and otherwise
stores what was planned for the buffer before the first write. No scalar straddles the last address
if the updates end below the limit of the addresses. -/
theorem updateBuffer_atomic (updates : List Update) (type : TypeDescriptor) (buffer : Bytes)
    (offset : Nat) :
    (∀ error, (updateBuffer updates type buffer offset).result = .error (.failed error) →
      (updateBuffer updates type buffer offset).buffer = buffer) ∧
    ∀ layout,
      (∀ error,
        (updateWithLayout updates type layout buffer offset).result = .error (.failed error) →
          (updateWithLayout updates type layout buffer offset).buffer = buffer) ∧
      ∀ targets,
        checkUpdates ⟨type, layout, offset⟩ (.words buffer.size) updates = .ok targets →
          let patches := targets.flatMap fun target => (target.plan (.words buffer.size)).patches
          ((writeTargets buffer targets).halt = some .panicked ↔
            ∃ patch ∈ patches, patch.Straddles) ∧
          ((∀ patch ∈ patches, ¬ patch.Straddles) →
            writeTargets buffer targets = ⟨buffer.apply patches, none⟩) ∧
          (type.layout = .ok layout →
            (∀ update ∈ updates, ∀ place,
              Place.locate ⟨type, layout, offset⟩ [] update.path = .ok place →
                place.offset + place.type.encodedLength place.layout update.value <
                  addressLimit) →
              ∀ patch ∈ patches, ¬ patch.Straddles) := by
  refine ⟨?_, fun layout => ⟨fun error failed => updateWithLayout_of_failed failed, ?_⟩⟩
  · intro error failed
    unfold updateBuffer at failed ⊢
    split
    next => rfl
    next layout computed =>
      rw [computed] at failed
      exact updateWithLayout_of_failed failed
  · intro targets checked patches
    have whole := plan_whole_of_checkUpdates checked
    have stores : (∀ patch ∈ patches, ¬ patch.Straddles) →
        writeTargets buffer targets = ⟨buffer.apply patches, none⟩ :=
      writeTargets_of_apart whole
    refine ⟨⟨?_, writeTargets_of_straddles whole⟩, stores, ?_⟩
    · intro panicked
      by_contra none
      rw [stores fun patch member straddles => none ⟨patch, member, straddles⟩] at panicked
      cases panicked
    · intro computed addressable patch member
      have laid := layout_eq_ok.mp computed
      rw [checkUpdates_words laid addressable] at checked
      have same := sameInWords_of_accepted laid (checkUpdates_eq_ok.mp checked) addressable
      have ⟨target, known, inside⟩ := List.mem_flatMap.mp member
      rw [(same target known).plan] at inside
      exact (same target known).apart patch inside

def exampleHalfFitting : List Update :=
  [⟨[.member "weight"], .scalar (.f32 0x3f800000)⟩,
    ⟨[.member "cell"], .vector [.u32 7]⟩]

def exampleWeighted : TypeDescriptor :=
  .struct none (.ofList [⟨"cell", .vector .u32 .two, {}⟩, ⟨"weight", .f32, {}⟩])

theorem updateBuffer_exampleHalfFitting :
    (updateBuffer exampleHalfFitting exampleWeighted (Array.replicate 16 0xff) 0).result =
        .error (.failed
          (.shapeMismatch [.member "cell"] (.vector .u32 .two) "vector of 1 components")) ∧
      (updateBuffer exampleHalfFitting exampleWeighted (Array.replicate 16 0xff) 0).buffer =
        Array.replicate 16 0xff :=
  ⟨rfl, (updateBuffer_atomic _ _ _ _).1 _ rfl⟩

def exampleCounted : TypeDescriptor :=
  .struct none (.ofList [⟨"b", .u32, {}⟩, ⟨"tail", .array .u32 .runtime, {}⟩])

def exampleLastElement : List Update :=
  [⟨[.member "b"], .scalar (.u32 1)⟩,
    ⟨[.member "tail", .index 0x3ffffffffffffffe], .scalar (.u32 2)⟩]

/-- Both updates are accepted, and the first has been written when the second panics. -/
theorem updateBuffer_exampleLastElement_panicked :
    let updated := updateBuffer exampleLastElement exampleCounted (Array.replicate 8 0) 0
    updated.result = .error .panicked ∧ updated.buffer = #[1, 0, 0, 0, 0, 0, 0, 0] :=
  ⟨rfl, by decide +kernel⟩

/-! ## The ranges of updates -/

end Machine

end ShaderKit
