import Mathlib.Data.List.Nodup
import Mathlib.Logic.Relation

/-!
# Lists in dependency order

A list in which everything that an item needs stands before the item. Such a list is built by
appending items whose needs are met, and what an item needs indirectly stands before it too.
-/

namespace ShaderKit

variable {α : Type} [DecidableEq α]

def Precedes (items : List α) (first second : α) : Prop :=
  first ∈ items ∧ items.idxOf first < items.idxOf second

/-- A list without repetitions in which everything that an item needs stands before it. -/
structure InOrder (needs : α → α → Prop) (items : List α) : Prop where
  nodup : items.Nodup
  earlier : ∀ item ∈ items, ∀ need, needs item need → Precedes items need item

variable {items : List α} {first second third item : α} {needs others : α → α → Prop}

theorem Precedes.trans (one : Precedes items first second)
    (two : Precedes items second third) : Precedes items first third :=
  ⟨one.1, Nat.lt_trans one.2 two.2⟩

theorem Precedes.append (precedes : Precedes items first second) (member : second ∈ items)
    (more : List α) : Precedes (items ++ more) first second := by
  refine ⟨List.mem_append_left _ precedes.1, ?_⟩
  rw [List.idxOf_append_of_mem precedes.1, List.idxOf_append_of_mem member]
  exact precedes.2

theorem precedes_concat (member : first ∈ items) (new : item ∉ items) :
    Precedes (items ++ [item]) first item := by
  refine ⟨List.mem_append_left _ member, ?_⟩
  rw [List.idxOf_append_of_mem member, List.idxOf_append_of_notMem new]
  exact Nat.lt_add_right _ (List.idxOf_lt_length_of_mem member)

theorem Precedes.position (precedes : Precedes items first second) (nodup : items.Nodup)
    {position : Nat} (found : items[position]? = some second) :
    ∃ earlier, earlier < position ∧ items[earlier]? = some first := by
  rcases List.getElem?_eq_some_iff.mp found with ⟨below, rfl⟩
  refine ⟨items.idxOf first, ?_, List.getElem?_idxOf precedes.1⟩
  rw [← nodup.idxOf_getElem position below]
  exact precedes.2

theorem Precedes.mem_of_append {before after : List α}
    (precedes : Precedes (before ++ item :: after) first item) : first ∈ before := by
  by_contra absent
  have position := precedes.2
  rw [List.idxOf_append_of_notMem absent] at position
  by_cases inside : item ∈ before
  · rw [List.idxOf_append_of_mem inside] at position
    have below := List.idxOf_lt_length_of_mem inside
    omega
  · rw [List.idxOf_append_of_notMem inside, List.idxOf_cons_self] at position
    omega

namespace InOrder

theorem nil (needs : α → α → Prop) : InOrder needs [] where
  nodup := .nil
  earlier _ member := nomatch member

theorem concat (ordered : InOrder needs items) (new : item ∉ items)
    (old : ∀ known ∈ items, ∀ need, others known need → needs known need)
    (met : ∀ need, others item need → need ∈ items) : InOrder others (items ++ [item]) where
  nodup := List.concat_eq_append ▸ ordered.nodup.concat new
  earlier known member need needed := by
    rcases List.mem_append.mp member with inside | last
    · exact (ordered.earlier known inside need (old known inside need needed)).append inside _
    · rw [List.mem_singleton.mp last] at needed ⊢
      exact precedes_concat (met need needed) new

/-- All that an item needs, also indirectly, precedes it. -/
theorem precedes_of_transGen (ordered : InOrder needs items) {need : α} (member : item ∈ items)
    (reached : Relation.TransGen needs item need) : Precedes items need item := by
  induction reached with
  | single needed => exact ordered.earlier item member _ needed
  | tail _ needed earlier => exact (ordered.earlier _ earlier.1 _ needed).trans earlier

end InOrder

end ShaderKit
