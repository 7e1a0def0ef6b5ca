import ShaderKit.Proofs.Codec.Recoding
import ShaderKit.Proofs.Recording.Gathering
import ShaderKit.Proofs.Recording.Keys

/-!
# The table of constants

After any traces, a context has one constant for each type and canonical value that occurred,
with the label of the first occurrence. Numbers of constants are numbers of their keys: a
constant in its canonical form has just the bytes of its key.
-/

namespace ShaderKit

/-! ## Numbers of occurrences -/

namespace Occurrence

variable {occurrence : Occurrence} {log : List Occurrence} {number other : Nat}

theorem Gets.unique (gets : occurrence.Gets number) (again : occurrence.Gets other) :
    number = other := by
  have ⟨_, interned⟩ := gets
  have ⟨_, internedToo⟩ := again
  cases interned.symm.trans internedToo
  rfl

/-- An occurrence leaves the context as it was, or it is numbered by its type and bytes. -/
theorem next_cases (occurrence : Occurrence) :
    (occurrence.next = occurrence.context ∧ ∀ number, ¬ occurrence.Gets number) ∨
      ∃ number bytes, occurrence.Gets number ∧
        encodeNew occurrence.value occurrence.type = .ok bytes ∧
        occurrence.context.Numbers occurrence.label occurrence.type bytes number
          occurrence.next := by
  cases interned : occurrence.context.internConstant occurrence.label occurrence.type
      occurrence.value with
  | error error context =>
      have next : occurrence.next = context := by rw [next, interned]
      rcases TraceContext.internConstant_error occurrence.constructible interned with ⟨kept, _⟩
      refine .inl ⟨next.trans kept, ?_⟩
      rintro number ⟨_, numbered⟩
      cases interned.symm.trans numbered
  | ok number context =>
      have next : occurrence.next = context := by rw [next, interned]
      rcases TraceContext.numbers_of_internConstant interned with ⟨bytes, encoded, numbers⟩
      exact .inr ⟨number, bytes, ⟨context, interned⟩, encoded, next ▸ numbers⟩

/-- The occurrence gets the number, and no earlier one of the log does. -/
def IsFirst (log : List Occurrence) (number : Nat) (occurrence : Occurrence) : Prop :=
  ∃ earlier later, log = earlier ++ occurrence :: later ∧ occurrence.Gets number ∧
    ∀ other ∈ earlier, ¬ other.Gets number

theorem IsFirst.mem (first : IsFirst log number occurrence) : occurrence ∈ log := by
  have ⟨_, _, same, _⟩ := first
  simp [same]

theorem IsFirst.gets (first : IsFirst log number occurrence) : occurrence.Gets number := by
  have ⟨_, _, _, gets, _⟩ := first
  exact gets

theorem IsFirst.append (first : IsFirst log number occurrence) (more : List Occurrence) :
    IsFirst (log ++ more) number occurrence := by
  have ⟨earlier, later, same, gets, new⟩ := first
  exact ⟨earlier, later ++ more, by simp [same], gets, new⟩

end Occurrence

/-! ## Contexts of occurrences -/

namespace TraceContext

open Occurrence

variable {context before after : TraceContext} {log : List Occurrence} {occurrence : Occurrence}
  {number : Nat}

/-- A context whose constants are those of the listed occurrences. -/
structure Tabulates (context : TraceContext) (log : List Occurrence) : Prop where
  keyed : context.Keyed
  numbered : ∀ occurrence ∈ log, ∀ number, occurrence.Gets number → ∃ bytes,
    encodeNew occurrence.value occurrence.type = .ok bytes ∧
      context.constantKeys.values[number]? = some (occurrence.type, bytes)
  first : ∀ number constant, context.constant? number = some constant →
    ∃ occurrence, IsFirst log number occurrence ∧ constant.label = occurrence.label

theorem tabulates_empty : Tabulates {} [] where
  keyed := keyed_empty
  numbered _ impossible := nomatch impossible
  first _ _ impossible := nomatch impossible

theorem Tabulates.of_same (tabulates : before.Tabulates log)
    (same : after.constantTable = before.constantTable) : after.Tabulates log := by
  have ⟨keys, constants⟩ := Prod.mk.inj same
  have ⟨⟨distinct, reads⟩, numbered, first⟩ := tabulates
  rw [← keys] at distinct reads numbered
  rw [← constants] at reads
  refine ⟨⟨distinct, reads⟩, numbered, fun number constant found => ?_⟩
  rw [constant?, constants] at found
  exact first number constant found

theorem Tabulates.isFirst (tabulates : before.Tabulates log)
    (gets : occurrence.Gets before.constantKeys.values.length) :
    IsFirst (log ++ [occurrence]) before.constantKeys.values.length occurrence := by
  refine ⟨log, [], rfl, gets, fun other member known => ?_⟩
  have ⟨_, _, found⟩ := tabulates.numbered other member _ known
  exact Nat.lt_irrefl _ (List.getElem?_eq_some_iff.mp found).1

theorem Tabulates.first_next (tabulates : occurrence.context.Tabulates log) {bytes : Bytes}
    {next : TraceContext} (gets : occurrence.Gets number)
    (numbers : occurrence.context.Numbers occurrence.label occurrence.type bytes number next)
    {position : Nat} {constant : ModuleConstant} (found : next.constant? position = some constant) :
    ∃ other, IsFirst (log ++ [occurrence]) position other ∧ constant.label = other.label := by
  cases numbers with
  | known =>
      rcases tabulates.first position constant found with ⟨other, first, label⟩
      exact ⟨other, first.append _, label⟩
  | added canonical new decoded =>
      rw [constant?, withConstant, List.getElem?_append] at found
      split at found
      next =>
        rcases tabulates.first position constant found with ⟨other, first, label⟩
        exact ⟨other, first.append _, label⟩
      next later =>
        -- the new constant stands at the end, at the number of the new key
        rcases List.getElem?_eq_some_iff.mp found with ⟨last, same⟩
        have count := tabulates.keyed.reads.length_eq
        rw [List.length_singleton] at last
        have position : position = occurrence.context.constantKeys.values.length := by omega
        rw [position]
        refine ⟨occurrence, tabulates.isFirst gets, ?_⟩
        rw [← same, List.getElem_singleton]

theorem Tabulates.next (tabulates : occurrence.context.Tabulates log) :
    occurrence.next.Tabulates (log ++ [occurrence]) := by
  rcases occurrence.next_cases with ⟨same, unnumbered⟩ | ⟨number, bytes, gets, encoded, numbers⟩
  · rw [same]
    refine ⟨tabulates.keyed, fun other member number gets => ?_, fun number constant found => ?_⟩
    · rcases List.mem_append.mp member with old | last
      · exact tabulates.numbered other old number gets
      · cases List.mem_singleton.mp last
        exact (unnumbered number gets).elim
    · have ⟨other, first, label⟩ := tabulates.first number constant found
      exact ⟨other, first.append _, label⟩
  · refine ⟨numbers.keyed tabulates.keyed,
      fun other member position known => ?_, fun _ _ => tabulates.first_next gets numbers⟩
    rcases List.mem_append.mp member with old | last
    · have ⟨others, same, found⟩ := tabulates.numbered other old position known
      exact ⟨others, same, getElem?_of_prefix numbers.continues.keys found⟩
    · cases List.mem_singleton.mp last
      cases gets.unique known
      exact ⟨bytes, encoded, numbers.found⟩

theorem Gathers.tabulates (gathers : Gathers {} log after) : after.Tabulates log := by
  induction gathers with
  | nothing same => exact tabulates_empty.of_same same
  | more _ same earlier => exact earlier.next.of_same same

/-! ## What the table says -/

theorem Tabulates.constant?_of_gets (tabulates : context.Tabulates log) (member : occurrence ∈ log)
    (gets : occurrence.Gets number) : ∃ constant, context.constant? number = some constant ∧
      constant.type = occurrence.type ∧
      occurrence.value.canonical occurrence.type = .ok constant.value := by
  have ⟨bytes, encoded, found⟩ := tabulates.numbered occurrence member number gets
  have ⟨constant, known, reads⟩ := tabulates.keyed.constant? found
  exact ⟨constant, known, reads.type, HostValue.canonical_of_encodeNew encoded reads.decoded⟩

theorem Tabulates.occurrence_of_keyed (tabulates : context.Tabulates log) {entry : ExpressionEntry}
    (keyed : entry.KeyedIn context) (refers : entry.expression = .constant number) :
    ∃ occurrence ∈ log, occurrence.Gets number ∧ occurrence.type = entry.type := by
  have ⟨bytes, key⟩ := keyed number refers
  have ⟨constant, known, _⟩ := tabulates.keyed.constant? key
  have ⟨occurrence, first, _⟩ := tabulates.first number constant known
  have ⟨_, _, found⟩ := tabulates.numbered occurrence first.mem number first.gets
  have same := Option.some.inj (found.symm.trans key)
  exact ⟨occurrence, first.mem, first.gets, congrArg Prod.fst same⟩

section

variable (registered : ∀ occurrence ∈ log, occurrence.type.Registered)

include registered

theorem Tabulates.encoded (tabulates : context.Tabulates log) {constant : ModuleConstant}
    (found : context.constant? number = some constant) :
    constant.value.canonical constant.type = .ok constant.value ∧ ∃ bytes,
      encodeNew constant.value constant.type = .ok bytes ∧
        context.constantKeys.values[number]? = some (constant.type, bytes) := by
  have ⟨occurrence, first, _⟩ := tabulates.first number constant found
  have ⟨bytes, encoded, key⟩ := tabulates.numbered occurrence first.mem number first.gets
  have ⟨again, known, reads⟩ := tabulates.keyed.constant? key
  cases found.symm.trans known
  have decoded : decode bytes occurrence.type 0 = .ok constant.value := reads.decoded
  have type : constant.type = occurrence.type := reads.type
  have sized := TypeDescriptor.isSized_of_isConstructible occurrence.constructible
  have same := encodeNew_of_decode (registered occurrence first.mem) sized encoded decoded
  rw [type]
  exact ⟨HostValue.canonical_of_encodeNew same decoded, bytes, same, key⟩

/-- Occurrences have one number if they have one type and one canonical value. -/
theorem Tabulates.number_eq_iff (tabulates : context.Tabulates log) {other : Occurrence}
    {counterpart : Nat} (member : occurrence ∈ log) (memberToo : other ∈ log)
    (gets : occurrence.Gets number) (getsToo : other.Gets counterpart) :
    number = counterpart ↔ occurrence.type = other.type ∧
      occurrence.value.canonical occurrence.type = other.value.canonical other.type := by
  have ⟨first, known, type, canonical⟩ := tabulates.constant?_of_gets member gets
  have ⟨second, knownToo, typeToo, canonicalToo⟩ := tabulates.constant?_of_gets memberToo getsToo
  constructor
  · rintro rfl
    cases known.symm.trans knownToo
    exact ⟨type.symm.trans typeToo, canonical.trans canonicalToo.symm⟩
  · rintro ⟨types, values⟩
    have types : first.type = second.type := type.trans (types.trans typeToo.symm)
    have values : first.value = second.value :=
      Except.ok.inj (canonical.symm.trans (values.trans canonicalToo))
    -- one canonical value has the same bytes each time, and a key stands in one place only
    have ⟨_, bytes, encoded, key⟩ := tabulates.encoded registered known
    have ⟨_, others, encodedToo, keyToo⟩ := tabulates.encoded registered knownToo
    rw [types, values, encodedToo] at encoded
    cases encoded
    have below := (List.getElem?_eq_some_iff.mp key).1
    exact (List.getElem?_inj below tabulates.keyed.distinct).mp
      (key.trans (types ▸ keyToo.symm))

end

end TraceContext

/-- Numbering of constants is exact. After any traces, each of which may fail, let the constants
that they met be of registered types. Then the context has as many constants as keys. A constant
is in canonical form and is encoded to just the bytes of its key. Finished recordings list
constants of the context only, and each reference to a constant in them is listed and has the
number and the type of an occurrence. An occurrence that has been numbered has the number of a constant
of its type with its canonical value, and two of them have one number if and only if their types
and canonical values are equal. The label of a constant is that of the first occurrence with its
number. -/
theorem Program.attemptAll_constants (program : Program) (functions : List ShaderFunction)
    (journal : Journal)
    (registered : ∀ occurrence ∈ program.occurrences functions { journal := journal },
      occurrence.type.Registered) :
    let log := program.occurrences functions { journal := journal }
    let context := (program.attemptAll functions { journal := journal }).context
    context.constants.length = context.constantKeys.values.length ∧
      (∀ number constant, context.constant? number = some constant →
        constant.value.canonical constant.type = .ok constant.value ∧ ∃ bytes,
          encodeNew constant.value constant.type = .ok bytes ∧
            context.constantKeys.values[number]? = some (constant.type, bytes)) ∧
      (∀ recorded ∈ context.finished,
        (∀ number ∈ recorded.constants, number < context.constants.length) ∧
        ∀ entry ∈ recorded.expressions, ∀ number, entry.expression = .constant number →
          number ∈ recorded.constants ∧
            ∃ occurrence ∈ log, occurrence.Gets number ∧ occurrence.type = entry.type) ∧
      (∀ occurrence ∈ log, ∀ number, occurrence.Gets number →
        ∃ constant, context.constant? number = some constant ∧
          constant.type = occurrence.type ∧
          occurrence.value.canonical occurrence.type = .ok constant.value) ∧
      (∀ first ∈ log, ∀ second ∈ log, ∀ number other, first.Gets number → second.Gets other →
        (number = other ↔ first.type = second.type ∧
          first.value.canonical first.type = second.value.canonical second.type)) ∧
      ∀ number constant, context.constant? number = some constant →
        ∃ occurrence, Occurrence.IsFirst log number occurrence ∧
          constant.label = occurrence.label := by
  intro log context
  have tabulates : context.Tabulates log :=
    (program.attemptAll_gathers functions { journal := journal }).tabulates
  have ordered : context.Ordered :=
    program.attemptAll_ordered functions TraceContext.ordered_empty
  refine ⟨tabulates.keyed.reads.length_eq.symm, fun _ _ => tabulates.encoded registered, ?_,
    fun _ member _ => tabulates.constant?_of_gets member, ?_, tabulates.first⟩
  · intro recorded finished
    have accounted := ordered.accounted recorded finished
    refine ⟨accounted.constants, fun entry member number refers => ?_⟩
    exact ⟨accounted.covers member refers,
      tabulates.occurrence_of_keyed (accounted.keyed entry member) refers⟩
  · intro first member second memberToo _ _
    exact tabulates.number_eq_iff registered member memberToo

def exampleTorn : ShaderFunction where
  id := ⟨0⟩
  signature := ⟨"torn", [], none, none⟩
  implementation := .script
    (.ofList [
      .constant "half" (some "half") (.ok .f32) (.scalar (.f32 0x3f000000)),
      .callVoid ⟨2⟩ []])
    none

def exampleMarks : ShaderFunction where
  id := ⟨1⟩
  signature := ⟨"marks", [], none, none⟩
  implementation := .script
    (.ofList [
      .constant "zero" (some "zero") (.ok .f32) (.scalar (.f32 0)),
      .constant "again" (some "again") (.ok .f32) (.scalar (.f32 0x3f000000)),
      .constant "minus" (some "minus") (.ok .f32) (.scalar (.f32 0x80000000))])
    none

def exampleMarking : Program where
  functions := [exampleTorn, exampleMarks]

theorem attemptAll_constants_exampleMarking :
    let log := exampleMarking.occurrences [exampleTorn, exampleMarks] { journal := {} }
    let context := (exampleMarking.attemptAll [exampleTorn, exampleMarks] { journal := {} }).context
    (∀ occurrence ∈ log, occurrence.type.Registered) ∧
      log.map Occurrence.label = [some "half", some "zero", some "again", some "minus"] ∧
      context.constants.map ModuleConstant.label = [some "half", some "zero", some "minus"] ∧
      (∀ first ∈ log, ∀ second ∈ log, ∀ number other, first.Gets number → second.Gets other →
        (number = other ↔ first.type = second.type ∧
          first.value.canonical first.type = second.value.canonical second.type)) ∧
      ∀ number constant, context.constant? number = some constant →
        ∃ occurrence, Occurrence.IsFirst log number occurrence ∧
          constant.label = occurrence.label := by
  intro log context
  have types : log.map Occurrence.type = [.f32, .f32, .f32, .f32] := by decide +kernel
  have registered : ∀ occurrence ∈ log, occurrence.type.Registered := by
    intro occurrence member
    have listed := List.mem_map_of_mem (f := Occurrence.type) member
    rw [types] at listed
    have type : occurrence.type = .f32 := by simpa using listed
    exact type ▸ .scalar .f32
  have ⟨_, _, _, _, shared, labels⟩ :=
    exampleMarking.attemptAll_constants [exampleTorn, exampleMarks] {} registered
  exact ⟨registered, by decide +kernel, by decide +kernel, shared, labels⟩

end ShaderKit
