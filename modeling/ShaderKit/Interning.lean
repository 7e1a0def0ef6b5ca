/-!
# Ordered interning

Values are numbered in the order in which they are first seen, and a value that comes
again keeps its number. The values stand in a list by their numbers and the numbers in a
table by their values; the list and the table always say the same.
-/

namespace ShaderKit

/-- The distinct values seen so far, oldest first, and a table of their numbers. -/
structure Interning (α : Type) [DecidableEq α] where
  values : List α
  numbers : List (α × Nat)
  inverse : ∀ value number,
    (numbers.find? fun entry => entry.1 = value).map Prod.snd = some number ↔
      values[number]? = some value

namespace Interning

variable {α : Type} [DecidableEq α] {value other : α} {number : Nat}

def empty : Interning α where
  values := []
  numbers := []
  inverse := by simp

instance : EmptyCollection (Interning α) := ⟨empty⟩

def find? (interning : Interning α) (value : α) : Option Nat :=
  (interning.numbers.find? fun entry => entry.1 = value).map Prod.snd

def get? (interning : Interning α) (number : Nat) : Option α :=
  interning.values[number]?

def contains (interning : Interning α) (value : α) : Bool :=
  interning.numbers.any fun entry => entry.1 = value

def size (interning : Interning α) : Nat :=
  interning.values.length

theorem find?_eq_some_iff {interning : Interning α} :
    interning.find? value = some number ↔ interning.get? number = some value :=
  interning.inverse value number

theorem find?_eq_none_iff {interning : Interning α} :
    interning.find? value = none ↔ value ∉ interning.values := by
  rw [Option.eq_none_iff_forall_ne_some, List.mem_iff_getElem?, not_exists]
  exact forall_congr' fun number => not_congr find?_eq_some_iff

theorem contains_iff {interning : Interning α} :
    interning.contains value = true ↔ value ∈ interning.values := by
  rw [contains, ← List.isSome_find?, ← Option.isSome_map (f := Prod.snd), Option.isSome_iff_exists,
    List.mem_iff_getElem?]
  exact exists_congr fun number => find?_eq_some_iff

/-! ## New values -/

omit [DecidableEq α] in
theorem getElem?_concat_eq_some_iff {values : List α} :
    (values ++ [value])[number]? = some other ↔
      values[number]? = some other ∨ number = values.length ∧ value = other := by
  rw [List.getElem?_append]
  split
  next below =>
    have inside : number ≠ values.length := Nat.ne_of_lt below
    rw [or_iff_left fun last => inside last.1]
  next past =>
    have absent : values[number]? = none := List.getElem?_eq_none (Nat.le_of_not_lt past)
    rw [absent, List.getElem?_singleton]
    split
    next zero =>
      have last : number = values.length := by omega
      simp [last]
    next nonzero =>
      have later : number ≠ values.length := by omega
      simp [later]

def add (interning : Interning α) (value : α) (new : interning.find? value = none) :
    Interning α where
  values := interning.values ++ [value]
  numbers := (value, interning.size) :: interning.numbers
  inverse other number := by
    rw [getElem?_concat_eq_some_iff, ← interning.inverse other number, List.find?_cons]
    change _ ↔ interning.find? other = some number ∨ _
    by_cases same : value = other
    · subst same
      simp [new, size, eq_comm]
    · simp [same, find?]

@[simp] theorem values_add (interning : Interning α) (new : interning.find? value = none) :
    (interning.add value new).values = interning.values ++ [value] :=
  rfl

/-- Number a value: the new state, its number, and whether it was seen for the first
time. -/
def intern (interning : Interning α) (value : α) : Interning α × Nat × Bool :=
  match found : interning.find? value with
  | some number => (interning, number, false)
  | none => (interning.add value found, interning.size, true)

theorem intern_cases (interning : Interning α) (value : α) :
    (∃ number, interning.get? number = some value ∧
      interning.intern value = (interning, number, false)) ∨
    ∃ new : interning.find? value = none,
      interning.intern value = (interning.add value new, interning.size, true) := by
  unfold intern
  split
  next number found => exact .inl ⟨number, find?_eq_some_iff.mp found, rfl⟩
  next new => exact .inr ⟨new, rfl⟩

end Interning

end ShaderKit
