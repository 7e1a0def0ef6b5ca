import ShaderKit.Codec.Update
import ShaderKit.Proofs.Codec.Storage
import ShaderKit.Proofs.RelatedLists

/-!
# Accepted updates

Updates are planned twice, once to check them and once to write them, and the second time
after earlier updates have been written. A plan depends on the size of the buffer and not on
its bytes, so what was accepted is written as it was planned.
-/

namespace ShaderKit

variable {root : Place} {available : Nat} {update : Update} {target : Target}
  {updates : List Update} {targets : List Target}

/-! ## What a check establishes -/

structure Update.Accepted (root : Place) (available : Nat) (update : Update) (target : Target) :
    Prop where
  same : target.update = update
  located : root.locate [] update.path = .ok target.place
  length : target.length =
    target.place.type.encodedLength target.place.layout update.value
  room : target.range.stop ≤ available
  whole : (target.plan available).failure = none

theorem Update.check_eq_ok :
    update.check root available = .ok target ↔ update.Accepted root available target := by
  constructor
  · intro checked
    rcases bind_eq_ok.mp checked with ⟨place, located, checked⟩
    dsimp only at checked
    split at checked
    next => cases checked
    next room =>
      split at checked
      next => cases checked
      next whole =>
        cases checked
        exact ⟨rfl, located, rfl, Nat.le_of_not_lt room, whole⟩
  · rcases target with ⟨own, place, bytes⟩
    rintro ⟨same, located, length, room, whole⟩
    dsimp only at same located length
    subst same length
    unfold check
    rw [located, ok_bind]
    dsimp only
    split
    next short => exact absurd short (Nat.not_lt_of_le room)
    next =>
      split
      next error failed => cases whole.symm.trans failed
      next => rfl

/-- The targets of accepted updates, in the order of the updates. -/
theorem checkUpdates_eq_ok :
    checkUpdates root available updates = .ok targets ↔
      List.Forall₂ (Update.Accepted root available) updates targets := by
  induction updates generalizing targets with
  | nil =>
      rw [List.forall₂_nil_left_iff]
      exact ⟨fun checked => (Except.ok.inj checked).symm, fun empty => empty ▸ rfl⟩
  | cons update rest induction =>
      constructor
      · intro checked
        rcases bind_eq_ok.mp checked with ⟨target, first, checked⟩
        rcases bind_eq_ok.mp checked with ⟨others, later, checked⟩
        cases checked
        exact .cons (Update.check_eq_ok.mp first) (induction.mp later)
      · intro accepted
        cases accepted with
        | cons first later =>
            rw [checkUpdates, Update.check_eq_ok.mpr first, ok_bind, induction.mpr later]
            rfl

theorem whole_of_accepted
    (accepted : List.Forall₂ (Update.Accepted root available) updates targets) :
    ∀ target ∈ targets, (target.plan available).failure = none := by
  intro target member
  have ⟨update, here⟩ := exists_left_of_mem accepted member
  exact here.whole

/-! ## Writing what was planned -/

theorem Bytes.apply_append (buffer : Bytes) (first second : List Patch) :
    buffer.apply (first ++ second) = (buffer.apply first).apply second :=
  List.foldl_append

theorem writeTargets_of_whole {buffer : Bytes}
    (whole : ∀ target ∈ targets, (target.plan buffer.size).failure = none) :
    writeTargets buffer targets =
      ⟨buffer.apply (targets.flatMap fun target => (target.plan buffer.size).patches), none⟩ := by
  induction targets generalizing buffer with
  | nil => rfl
  | cons target rest induction =>
      have first := whole target List.mem_cons_self
      let written := buffer.apply (target.plan buffer.size).patches
      have kept : written.size = buffer.size := Bytes.size_apply _ _
      have others := @induction written fun other member =>
        kept.symm ▸ whole other (List.mem_cons_of_mem _ member)
      rw [kept] at others
      simp only [writeTargets, Target.write, first]
      rw [others, List.flatMap_cons, Bytes.apply_append]

end ShaderKit
