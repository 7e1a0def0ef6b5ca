import ShaderKit.Proofs.Codec.Extent
import ShaderKit.Proofs.Codec.FunctionalUpdate

/-!
# The ranges of updates

Updates report the bytes to upload as ranges in order, with bytes between them that no update
addresses. Joining ranges neither adds a byte nor leaves one out, and the plan for a value stores
nothing outside the bytes that its update addresses.
-/

namespace ShaderKit

/-! ## Joining ranges -/

namespace ByteRange

def Contains (range : ByteRange) (position : Nat) : Prop :=
  range.start ≤ position ∧ position < range.stop

def Covered (ranges : List ByteRange) (position : Nat) : Prop :=
  ∃ range ∈ ranges, range.Contains position

def Sorted (ranges : List ByteRange) : Prop :=
  ranges.Pairwise fun first second => first.start ≤ second.start

def Separated (ranges : List ByteRange) : Prop :=
  ranges.Pairwise fun first second => first.stop < second.start

variable {current range next : ByteRange} {ranges rest : List ByteRange} {position limit : Nat}

@[simp] theorem covered_nil : ¬ Covered [] position := by
  simp [Covered]

theorem Sorted.join (sorted : Sorted (current :: next :: rest)) (stop : Nat) :
    Sorted (⟨current.start, stop⟩ :: rest) := by
  simp only [Sorted, List.pairwise_cons, List.mem_cons, forall_eq_or_imp] at sorted ⊢
  exact ⟨sorted.1.2, sorted.2.2⟩

end ByteRange

/-! ## Addressed bytes -/

/-- The update addresses the byte at the position: it is one of those that the encoding of its
value takes, counted from the place at the end of its path. -/
def Update.Addresses (root : Place) (update : Update) (position : Nat) : Prop :=
  ∃ place, root.locate [] update.path = .ok place ∧ place.offset ≤ position ∧
    position < place.offset + place.type.encodedLength place.layout update.value

section

variable {root : Place} {available position : Nat} {update : Update} {target : Target}
  {updates : List Update} {targets : List Target}

theorem Update.Accepted.contains_iff (accepted : update.Accepted root available target) :
    target.range.Contains position ↔ update.Addresses root position := by
  simp [ByteRange.Contains, Target.range, Addresses, accepted.located, accepted.length]

theorem Update.Accepted.bounded (accepted : update.Accepted root available target) :
    target.range.start ≤ target.range.stop ∧ target.range.stop ≤ available :=
  ⟨Nat.le_add_right _ _, accepted.room⟩

theorem Update.Accepted.patch_inside {patch : Patch} (laid : LaidOut root.type root.layout)
    (accepted : update.Accepted root available target)
    (planned : patch ∈ (target.plan available).patches) :
    target.range.start ≤ patch.span.offset ∧ patch.span.finish ≤ target.range.stop := by
  have placeLaid := Place.locate_laidOut [] laid accepted.located
  have covers := placeLaid.plan_covers _ available target.place.offset target.update.path
    target.update.value fun _ => rfl
  have inside := placeLaid.leaves_inside (covers.begins.subset (List.mem_map_of_mem planned))
  rw [accepted.same, ← accepted.length] at inside
  exact inside

end

end ShaderKit
