import Mathlib.Data.List.Induction
import Mathlib.Data.List.Nodup
import ShaderKit.Interning

/-!
# Runs of interning

However many values are numbered one after the other, each value has the number of its first
occurrence among the different ones, and keeps it.
-/

namespace ShaderKit.Interning

variable {α : Type} [DecidableEq α]

/-- Number several values in order. The answers are their numbers, each with whether the value
was seen for the first time. -/
def internAll (interning : Interning α) : List α → Interning α × List (Nat × Bool)
  | [] => (interning, [])
  | value :: rest =>
      let (next, answer) := interning.intern value
      let (final, answers) := next.internAll rest
      (final, answer :: answers)

/-! ## One step -/

section

variable (interning : Interning α) (value : α)

theorem nodup_values : interning.values.Nodup := by
  rw [List.nodup_iff_getElem?_ne_getElem?]
  intro first second before below same
  have found : interning.get? first = some interning.values[second] :=
    same.trans (List.getElem?_eq_getElem below)
  have again : interning.get? second = some interning.values[second] :=
    List.getElem?_eq_getElem below
  have equal : some first = some second :=
    (find?_eq_some_iff.mpr found).symm.trans (find?_eq_some_iff.mpr again)
  exact Nat.ne_of_lt before (Option.some.inj equal)

theorem values_intern : (interning.intern value).1.values =
    if value ∈ interning.values then interning.values else interning.values ++ [value] := by
  rcases interning.intern_cases value with ⟨number, found, seen⟩ | ⟨new, first⟩
  · rw [seen, if_pos (List.mem_of_getElem? found)]
  · rw [first, values_add, if_neg (find?_eq_none_iff.mp new)]

theorem answer_intern : (interning.intern value).2 =
    ((interning.intern value).1.values.idxOf value, decide (value ∉ interning.values)) := by
  rcases interning.intern_cases value with ⟨number, found, seen⟩ | ⟨new, first⟩
  · have ⟨below, same⟩ := List.getElem?_eq_some_iff.mp found
    have place : interning.values.idxOf value = number := by
      rw [← same]
      exact interning.nodup_values.idxOf_getElem number below
    rw [seen, place]
    simp [List.mem_of_getElem? found]
  · have unseen := find?_eq_none_iff.mp new
    rw [first, values_add, List.idxOf_append_of_notMem unseen, List.idxOf_cons_self]
    simp [unseen, size]

theorem values_prefix_intern : interning.values <+: (interning.intern value).1.values := by
  rw [values_intern]
  split
  · exact List.prefix_refl _
  · exact List.prefix_append _ _

end

/-! ## Every run -/

section

variable (interning : Interning α)

theorem internAll_cons (value : α) (rest : List α) : interning.internAll (value :: rest) =
    (((interning.intern value).1.internAll rest).1,
      (interning.intern value).2 :: ((interning.intern value).1.internAll rest).2) :=
  rfl

theorem internAll_append (inputs more : List α) : interning.internAll (inputs ++ more) =
    (((interning.internAll inputs).1.internAll more).1,
      (interning.internAll inputs).2 ++ ((interning.internAll inputs).1.internAll more).2) := by
  induction inputs generalizing interning with
  | nil => rfl
  | cons value rest induction =>
      rw [List.cons_append, internAll_cons, induction, internAll_cons, List.cons_append]

theorem length_internAll (inputs : List α) :
    (interning.internAll inputs).2.length = inputs.length := by
  induction inputs generalizing interning with
  | nil => rfl
  | cons value rest induction => exact congrArg Nat.succ (induction _)

theorem values_prefix_internAll (inputs : List α) :
    interning.values <+: (interning.internAll inputs).1.values := by
  induction inputs generalizing interning with
  | nil => exact List.prefix_refl _
  | cons value rest induction => exact (interning.values_prefix_intern value).trans (induction _)

end

theorem values_internAll (inputs : List α) :
    (({} : Interning α).internAll inputs).1.values = inputs.eraseDups := by
  induction inputs using List.reverseRecOn with
  | nil => rfl
  | append_singleton earlier last induction =>
      rw [internAll_append, List.eraseDups_append]
      change (intern _ last).1.values = _
      rw [values_intern, induction]
      by_cases seen : last ∈ earlier
      · simp [seen, List.removeAll]
      · simp [seen, List.removeAll, List.eraseDups_cons]

theorem find?_internAll {interning : Interning α} {value : α} {number : Nat}
    (found : interning.find? value = some number) (more : List α) :
    (interning.internAll more).1.find? value = some number := by
  rw [find?_eq_some_iff] at found ⊢
  have ⟨later, grown⟩ := interning.values_prefix_internAll more
  have ⟨below, _⟩ := List.getElem?_eq_some_iff.mp found
  rw [get?, ← grown, List.getElem?_append_left below]
  exact found

theorem mem_values_intern (interning : Interning α) (value : α) :
    value ∈ (interning.intern value).1.values := by
  rw [values_intern]
  split
  next known => exact known
  next => exact List.mem_append_right _ (List.mem_singleton_self value)

/-- The answer to a value is its place among the different values, and whether it did not occur
before. -/
theorem answer_internAll (earlier later : List α) (value : α) :
    let run := ({} : Interning α).internAll (earlier ++ value :: later)
    run.2[earlier.length]? = some (run.1.values.idxOf value, decide (value ∉ earlier)) := by
  rw [internAll_append, internAll_cons]
  have before := values_internAll earlier
  have count := length_internAll {} earlier
  generalize ({} : Interning α).internAll earlier = run at before count
  -- what follows the value does not change its place
  have ⟨added, grown⟩ := (run.1.intern value).1.values_prefix_internAll later
  dsimp only
  rw [← count, List.getElem?_append_right (Nat.le_refl _), Nat.sub_self, List.getElem?_cons_zero,
    ← grown, List.idxOf_append_of_mem (run.1.mem_values_intern value), answer_intern]
  simp only [before, List.mem_eraseDups]

/-- Every run of interning. The values stand in the order of their first occurrences, each once.
Every value is answered by its place among them, and as new exactly if it did not occur before;
numbers never change; the number of a value and the value of a number are inverse to each other;
and a value is contained exactly if it has occurred. -/
theorem internAll_inOrder (inputs more : List α) :
    let run := ({} : Interning α).internAll inputs
    let later := ({} : Interning α).internAll (inputs ++ more)
    run.1.values = inputs.eraseDups ∧
    (run.2.length = inputs.length ∧ ∀ index value, inputs[index]? = some value →
      run.2[index]? = some (run.1.values.idxOf value, decide (value ∉ inputs.take index))) ∧
    (run.2 <+: later.2 ∧ ∀ value number,
      run.1.find? value = some number → later.1.find? value = some number) ∧
    (∀ value number, run.1.find? value = some number ↔ run.1.get? number = some value) ∧
    ∀ value, run.1.contains value = true ↔ value ∈ inputs := by
  intro run later
  have values : run.1.values = inputs.eraseDups := values_internAll inputs
  have continued : later = _ := internAll_append {} inputs more
  refine ⟨values, ⟨length_internAll {} inputs, fun index value asked => ?_⟩,
    ⟨?_, fun value number found => ?_⟩, fun value number => find?_eq_some_iff, fun value => ?_⟩
  · have ⟨below, same⟩ := List.getElem?_eq_some_iff.mp asked
    have answer := answer_internAll (inputs.take index) (inputs.drop (index + 1)) value
    rw [← same, List.getElem_cons_drop, List.take_append_drop,
      List.length_take_of_le (Nat.le_of_lt below), same] at answer
    exact answer
  · rw [continued]
    exact List.prefix_append _ _
  · rw [continued]
    exact find?_internAll found more
  · rw [contains_iff, values, List.mem_eraseDups]

def exampleLetters : List String := ["b", "a", "b", "c", "a"]

theorem internAll_inOrder_exampleLetters :
    exampleLetters.eraseDups = ["b", "a", "c"] ∧ exampleLetters[4]? = some "a" ∧
      (({} : Interning String).internAll exampleLetters).2[4]? = some (1, false) ∧
      (({} : Interning String).internAll (exampleLetters ++ ["d"])).1.find? "c" = some 2 := by
  have different : exampleLetters.eraseDups = ["b", "a", "c"] := by decide
  have asked : exampleLetters[4]? = some "a" := rfl
  rcases internAll_inOrder exampleLetters ["d"] with
    ⟨values, ⟨_, answers⟩, ⟨_, kept⟩, inverse, _⟩
  have answer := answers 4 "a" asked
  have third : (({} : Interning String).internAll exampleLetters).1.find? "c" = some 2 := by
    rw [inverse, get?, values, different]
    rfl
  rw [values, different] at answer
  exact ⟨different, asked, answer, kept "c" 2 third⟩

end ShaderKit.Interning
