import Mathlib.Data.List.Nodup
import Mathlib.Data.List.Perm.Subperm
import ShaderKit.Naming
import ShaderKit.Proofs.Identifier.Shape

/-!
# Names that are handed out are fresh

Every name that a registry hands out may be declared and was not in use. A label is turned into
a text of identifier shape; where that text is taken, numbered names never run out, and none of
them is reserved.
-/

namespace ShaderKit

namespace Identifier

/-! ## Sanitized labels have the shape of identifiers -/

theorem dropDoubledUnderscores_spec (name : List Char) :
    isImplementationName (dropDoubledUnderscores name) = false ∧
      ∀ char ∈ dropDoubledUnderscores name, char ∈ name := by
  induction name with
  | nil => exact ⟨rfl, fun _ member => member⟩
  | cons first rest induction =>
      rw [dropDoubledUnderscores]
      split
      next =>
        exact ⟨induction.1, fun char member => List.mem_cons_of_mem _ (induction.2 char member)⟩
      next ordinary => exact ⟨Bool.not_eq_true _ ▸ ordinary, fun _ member => member⟩

theorem hasIdentifierShape_repairStart {name : List Char}
    (body : ∀ char ∈ name, isBodyChar char = true)
    (ordinary : isImplementationName name = false) :
    hasIdentifierShape (repairStart name) = true := by
  unfold repairStart
  split
  next => rfl
  next => rfl
  next first rest named =>
    split
    next digit =>
      refine hasIdentifierShape_cons.mpr ⟨rfl, body, nofun, ?_⟩
      rw [Bool.eq_false_iff]
      intro doubled
      rcases isImplementationName_iff.mp doubled with ⟨after, same⟩
      rw [List.cons.injEq, List.cons.injEq] at same
      rw [same.2.1] at digit
      cases digit
    next notDigit =>
      have start := isStartChar_of_isBodyChar (body first List.mem_cons_self) notDigit
      refine hasIdentifierShape_cons.mpr
        ⟨start, fun char member => body char (List.mem_cons_of_mem _ member), ?_, ordinary⟩
      intro same
      rw [List.cons.injEq] at same
      exact named same.1 same.2

def cleaned (label : String) : List Char :=
  label.toList.map fun char => if isBodyChar char then char else '_'

theorem isBodyChar_of_mem_cleaned {label : String} {char : Char} (member : char ∈ cleaned label) :
    isBodyChar char = true := by
  rcases List.mem_map.mp member with ⟨original, _, rfl⟩
  split
  next body => exact body
  next => rfl

theorem toList_sanitize (label : String) :
    (sanitize label).toList = repairStart (dropDoubledUnderscores (cleaned label)) :=
  String.toList_ofList

theorem hasIdentifierShape_sanitize (label : String) :
    hasIdentifierShape (sanitize label).toList = true := by
  rcases dropDoubledUnderscores_spec (cleaned label) with ⟨ordinary, kept⟩
  rw [toList_sanitize]
  exact hasIdentifierShape_repairStart
    (fun char member => isBodyChar_of_mem_cleaned (kept char member)) ordinary

/-! ## Numbered names are not reserved -/

def stem (name : List Char) : List Char :=
  (name.reverse.dropWhile Char.isDigit).reverse

theorem stem_append {tag digits : List Char} {last : Char} (ends : tag.getLast? = some last)
    (letter : ¬ last.isDigit = true) (numeric : ∀ char ∈ digits, char.isDigit = true) :
    stem (tag ++ digits) = tag := by
  have begins : tag.reverse = last :: tag.reverse.tail := by
    have head : tag.reverse.head? = some last := by rw [List.head?_reverse, ends]
    cases turned : tag.reverse with
    | nil =>
        rw [turned] at head
        cases head
    | cons first rest =>
        rw [turned] at head
        cases head
        rfl
  have passed : ∀ char ∈ digits.reverse, char.isDigit = true := fun char member =>
    numeric char (List.mem_reverse.mp member)
  rw [stem, List.reverse_append, List.dropWhile_append_of_pos passed, begins,
    List.dropWhile_cons_of_neg letter, ← begins, List.reverse_reverse]

def isTag (tag : List Char) : Bool :=
  hasIdentifierShape tag && (tag == ['v'] || tag.getLast? == some '_')

def isNumbered (name : List Char) : Bool :=
  name.getLast?.any Char.isDigit && isTag (stem name)

theorem not_isNumbered_reserved : ∀ word ∈ reservedWords, isNumbered word.toList = false := by
  decide +kernel

theorem isValid_append {tag digits : String} (tagged : isTag tag.toList = true)
    (some : digits.toList ≠ []) (numeric : ∀ char ∈ digits.toList, char.isDigit = true) :
    isValid (tag ++ digits) = true := by
  have parts := tagged
  rw [isTag, Bool.and_eq_true, Bool.or_eq_true, beq_iff_eq, beq_iff_eq] at parts
  have ends : ∃ last, tag.toList.getLast? = Option.some last ∧ ¬ last.isDigit = true := by
    rcases parts.2 with value | underscore
    · exact ⟨'v', by rw [value]; rfl, by decide⟩
    · exact ⟨'_', underscore, by decide⟩
  rcases ends with ⟨last, ends, letter⟩
  have digit := numeric _ (List.getLast_mem some)
  have numbered : isNumbered (tag.toList ++ digits.toList) = true := by
    rw [isNumbered, stem_append ends letter numeric, tagged,
      List.getLast?_append_of_ne_nil _ some, List.getLast?_eq_some_getLast some, Option.any_some,
      digit]
    rfl
  have shaped : hasIdentifierShape (tag.toList ++ digits.toList) = true :=
    hasIdentifierShape_append parts.1 fun char member => isBodyChar_of_isDigit (numeric char member)
  have unreserved : reservedWords.contains (tag ++ digits) = false := by
    rw [Bool.eq_false_iff]
    intro reserved
    have word := not_isNumbered_reserved _ (List.contains_iff_mem.mp reserved)
    rw [String.toList_append, numbered] at word
    cases word
  have noAlias : isAlias (tag.toList ++ digits.toList) = false := by
    unfold isAlias
    rw [List.getLast?_append_of_ne_nil _ some, List.getLast?_eq_some_getLast some]
    have suffix : isAliasSuffix (digits.toList.getLast some) = false := by
      rw [Bool.eq_false_iff]
      intro letter
      simp only [isAliasSuffix, Bool.or_eq_true, beq_iff_eq] at letter
      rcases letter with ((same | same) | same) | same <;> rw [same] at digit <;> cases digit
    dsimp only
    rw [suffix, Bool.false_and, Bool.false_and]
  rw [isValid, isReserved, String.toList_append, shaped, unreserved, noAlias]
  rfl

end Identifier

namespace NameRegistry

open Identifier

/-! ## Free numbers -/

theorem numbered_injective (tag : String) : Function.Injective (numbered tag) := by
  intro first second same
  have texts : toString first = toString second := (String.append_right_inj tag).mp same
  have digits : Nat.toDigits 10 first = Nat.toDigits 10 second := by
    rw [← Nat.toList_repr, ← Nat.toList_repr]
    exact congrArg String.toList texts
  have read (number : Nat) : Nat.ofDigitChars 10 (Nat.toDigits 10 number) 0 = number :=
    Nat.ofDigitChars_toDigits (by decide) (by decide)
  rw [← read first, digits, read]

theorem isValid_numbered {tag : String} (tagged : isTag tag.toList = true) (number : Nat) :
    isValid (numbered tag number) = true := by
  have digits : (toString number).toList = Nat.toDigits 10 number := Nat.toList_repr
  refine isValid_append tagged ?_ ?_
  · rw [digits]
    exact Nat.toDigits_ne_nil
  · rw [digits]
    exact fun char member => Nat.isDigit_of_mem_toDigits (by decide) (by decide) member

theorem isTaken_eq_false {registry : NameRegistry} {name : String} :
    registry.isTaken name = false ↔ name ∉ registry.used ∧ isValid name = true := by
  rw [isTaken, Bool.or_eq_false_iff, Bool.not_eq_false', Bool.eq_false_iff, Ne,
    List.contains_iff_mem]

/-- A search that finds no free number has passed over used names only. -/
theorem freeNumberWithin_cases (registry : NameRegistry) {tag : String}
    (tagged : isTag tag.toList = true) (tries number : Nat) :
    registry.isTaken (numbered tag (registry.freeNumberWithin tag tries number)) = false ∨
      ∀ offset < tries, numbered tag (number + offset) ∈ registry.used := by
  induction tries generalizing number with
  | zero => exact .inr fun _ below => absurd below (Nat.not_lt_zero _)
  | succ tries induction =>
      rw [freeNumberWithin]
      split
      next taken =>
        have used : numbered tag number ∈ registry.used := by
          rw [isTaken, isValid_numbered tagged, Bool.not_true, Bool.or_false] at taken
          exact List.contains_iff_mem.mp taken
        apply (induction (number + 1)).imp_right
        intro later offset below
        cases offset with
        | zero => exact used
        | succ offset =>
            have placed := later offset (Nat.lt_of_succ_lt_succ below)
            rw [Nat.add_assoc, Nat.add_comm 1] at placed
            exact placed
      next free => exact .inl (Bool.not_eq_true _ ▸ free)

/-- One more number than there are used names is enough: the numbered names are different, so
they cannot all be used. -/
theorem isTaken_freeNumber (registry : NameRegistry) {tag : String}
    (tagged : isTag tag.toList = true) (number : Nat) :
    registry.isTaken (numbered tag (registry.freeNumber tag number)) = false := by
  rcases registry.freeNumberWithin_cases tagged (registry.used.length + 1) number with
    free | used
  · exact free
  · let names := (List.range (registry.used.length + 1)).map fun offset =>
      numbered tag (number + offset)
    have injective : Function.Injective fun offset => numbered tag (number + offset) :=
      fun _ _ same => Nat.add_left_cancel (numbered_injective tag same)
    have different : names.Nodup := List.Nodup.map injective List.nodup_range
    have inside : names ⊆ registry.used := by
      intro name member
      rcases List.mem_map.mp member with ⟨offset, below, rfl⟩
      exact used offset (List.mem_range.mp below)
    have bounded := (List.subperm_of_subset different inside).length_le
    rw [List.length_map, List.length_range] at bounded
    exact absurd bounded (Nat.not_succ_le_self _)

/-! ## Handing out -/

/-- A registry hands out a name that was free, and uses it from then on. -/
structure Hands (before : NameRegistry) (name : String) (after : NameRegistry) : Prop where
  free : before.isTaken name = false
  used : after.used = name :: before.used

theorem isTag_sanitize (label : String) : isTag (sanitize label ++ "_").toList = true := by
  have underscore : ∀ char ∈ "_".toList, isBodyChar char = true := by
    intro char member
    rw [List.mem_singleton.mp member]
    decide
  rw [String.toList_append, isTag, Bool.and_eq_true]
  refine ⟨hasIdentifierShape_append (hasIdentifierShape_sanitize label) underscore, ?_⟩
  have ends : ((sanitize label).toList ++ "_".toList).getLast? = some '_' :=
    List.getLast?_concat
  rw [ends, beq_self_eq_true, Bool.or_true]

theorem isTaken_nameFor (registry : NameRegistry) (label : String) :
    registry.isTaken (registry.nameFor label) = false := by
  unfold nameFor
  dsimp only
  split
  next => exact registry.isTaken_freeNumber (isTag_sanitize label) 1
  next free => exact Bool.not_eq_true _ ▸ free

theorem makeUniqueLabel_hands (registry : NameRegistry) (label : String) :
    registry.Hands (registry.makeUniqueLabel label).2 (registry.makeUniqueLabel label).1 :=
  ⟨registry.isTaken_nameFor label, rfl⟩

theorem makeCompact_hands (registry : NameRegistry) :
    registry.Hands registry.makeCompact.2 registry.makeCompact.1 :=
  ⟨registry.isTaken_freeNumber (by decide) _, rfl⟩

theorem makeUnique_hands (registry : NameRegistry) (label : String) :
    registry.Hands (registry.makeUnique label).2 (registry.makeUnique label).1 := by
  unfold makeUnique
  split
  next => exact registry.makeUniqueLabel_hands label
  next => exact registry.makeCompact_hands

inductive HandsAll : NameRegistry → List String → NameRegistry → Prop where
  | nil (registry : NameRegistry) : HandsAll registry [] registry
  | cons {before middle after : NameRegistry} {names : List String} {name : String}
      (earlier : HandsAll before names middle) (hands : middle.Hands name after) :
      HandsAll before (name :: names) after

namespace HandsAll

variable {before middle after : NameRegistry} {names more : List String} {name : String}

theorem single (hands : before.Hands name after) : HandsAll before [name] after :=
  .cons (.nil before) hands

theorem trans (earlier : HandsAll before names middle) (later : HandsAll middle more after) :
    HandsAll before (more ++ names) after := by
  induction later with
  | nil => exact earlier
  | cons _ hands induction => exact .cons induction hands

theorem used (handsAll : HandsAll before names after) : after.used = names ++ before.used := by
  induction handsAll with
  | nil => rfl
  | cons _ hands induction => rw [hands.used, induction, List.cons_append]

theorem nodup (handsAll : HandsAll before names after) : names.Nodup := by
  induction handsAll with
  | nil => exact .nil
  | cons earlier hands induction =>
      have unused := (isTaken_eq_false.mp hands.free).1
      rw [earlier.used, List.mem_append, not_or] at unused
      exact List.nodup_cons.mpr ⟨unused.1, induction⟩

/-- Names that are handed out may be declared, and none of them was used before. -/
theorem fresh (handsAll : HandsAll before names after) :
    ∀ name ∈ names, name ∉ before.used ∧ isValid name = true := by
  induction handsAll with
  | nil => exact fun _ member => nomatch member
  | cons earlier hands induction =>
      intro name member
      rcases List.mem_cons.mp member with rfl | member
      · rcases isTaken_eq_false.mp hands.free with ⟨unused, valid⟩
        rw [earlier.used, List.mem_append, not_or] at unused
        exact ⟨unused.2, valid⟩
      · exact induction name member

end HandsAll

end NameRegistry

end ShaderKit
