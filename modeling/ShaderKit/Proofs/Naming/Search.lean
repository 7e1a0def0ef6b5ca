import ShaderKit.Proofs.Module.FreshNames

/-!
# The search for a free number

A search that tries one number after the other has no bound of its own. It ends all the same, and
where it ends no smaller number was free. The bounded search that registries run is that search.
-/

namespace ShaderKit.NameRegistry

open Identifier

/-- The search from a number on: a number whose name is taken is passed over. -/
inductive Search (registry : NameRegistry) (tag : String) : Nat → Nat → Prop where
  | free {number : Nat} (free : registry.isTaken (numbered tag number) = false) :
      Search registry tag number number
  | taken {number found : Nat} (taken : registry.isTaken (numbered tag number) = true)
      (further : Search registry tag (number + 1) found) : Search registry tag number found

variable {registry : NameRegistry} {tag : String} {number found : Nat}

namespace Search

theorem le (search : registry.Search tag number found) : number ≤ found := by
  induction search with
  | free => exact Nat.le_refl _
  | taken _ _ induction => exact Nat.le_of_succ_le induction

/-- Every number in between was passed over. -/
theorem isTaken_of_lt (search : registry.Search tag number found) {between : Nat}
    (atLeast : number ≤ between) (below : between < found) :
    registry.isTaken (numbered tag between) = true := by
  induction search with
  | free => omega
  | @taken number _ taken _ induction =>
      rcases Nat.eq_or_lt_of_le atLeast with rfl | after
      · exact taken
      · exact induction after below

end Search

theorem freeNumberWithin_le (registry : NameRegistry) (tag : String) (tries number : Nat) :
    registry.freeNumberWithin tag tries number ≤ number + tries := by
  induction tries generalizing number with
  | zero => exact Nat.le_refl _
  | succ tries induction =>
      rw [freeNumberWithin]
      split
      next => exact Nat.le_trans (induction (number + 1)) (by omega)
      next => exact Nat.le_add_right _ _

theorem search_freeNumberWithin {tries : Nat}
    (free : registry.isTaken
      (numbered tag (registry.freeNumberWithin tag tries number)) = false) :
    registry.Search tag number (registry.freeNumberWithin tag tries number) := by
  induction tries generalizing number with
  | zero => exact .free free
  | succ tries induction =>
      rw [freeNumberWithin] at free ⊢
      split at free
      next taken =>
        rw [if_pos taken]
        exact .taken taken (induction free)
      next notTaken =>
        rw [if_neg notTaken]
        exact .free free

/-- The search ends, and it tries at most one number more than there are used names. -/
theorem search_freeNumber (registry : NameRegistry) (tagged : isTag tag.toList = true)
    (number : Nat) :
    registry.Search tag number (registry.freeNumber tag number) ∧
      registry.freeNumber tag number ≤ number + (registry.used.length + 1) :=
  ⟨search_freeNumberWithin (registry.isTaken_freeNumber tagged number),
    freeNumberWithin_le registry tag _ number⟩

theorem nameFor_cases (registry : NameRegistry) (label : String) :
    registry.isTaken (sanitize label) = false ∧ registry.nameFor label = sanitize label ∨
      registry.isTaken (sanitize label) = true ∧
        ∃ found, registry.Search (sanitize label ++ "_") 1 found ∧
          registry.nameFor label = numbered (sanitize label ++ "_") found := by
  rw [nameFor]
  cases taken : registry.isTaken (sanitize label) with
  | false => exact .inl ⟨rfl, rfl⟩
  | true => exact .inr ⟨rfl, _, (search_freeNumber registry (isTag_sanitize label) 1).1, rfl⟩

end ShaderKit.NameRegistry
