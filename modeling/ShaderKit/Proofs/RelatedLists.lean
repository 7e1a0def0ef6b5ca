import Mathlib.Data.List.Forall2

/-!
# Related lists

Lists whose items at the same positions are related.
-/

namespace ShaderKit

section

variable {α β : Type} {related : α → β → Prop} {left : List α} {right : List β}

theorem exists_right_of_mem (all : List.Forall₂ related left right) {first : α}
    (member : first ∈ left) : ∃ second, related first second := by
  rcases List.mem_iff_get.mp member with ⟨index, rfl⟩
  exact ⟨_, all.get index.isLt (all.length_eq ▸ index.isLt)⟩

theorem exists_left_of_mem (all : List.Forall₂ related left right) {second : β}
    (member : second ∈ right) : ∃ first, related first second := by
  rcases List.mem_iff_get.mp member with ⟨index, rfl⟩
  exact ⟨_, all.get (all.length_eq.symm ▸ index.isLt) index.isLt⟩

theorem getElem?_of_forall₂ (all : List.Forall₂ related left right) {index : Nat} {first : α}
    (found : left[index]? = some first) :
    ∃ second, right[index]? = some second ∧ related first second := by
  rcases List.getElem?_eq_some_iff.mp found with ⟨below, rfl⟩
  have inside : index < right.length := all.length_eq ▸ below
  exact ⟨right[index], List.getElem?_eq_getElem inside, all.get below inside⟩

theorem forall₂_of_mem {other : α → β → Prop} (all : List.Forall₂ related left right)
    (weaker : ∀ first ∈ left, ∀ second, related first second → other first second) :
    List.Forall₂ other left right := by
  induction all with
  | nil => exact .nil
  | cons first _ induction =>
      exact .cons (weaker _ List.mem_cons_self _ first)
        (induction fun item member => weaker item (List.mem_cons_of_mem _ member))

end

end ShaderKit
