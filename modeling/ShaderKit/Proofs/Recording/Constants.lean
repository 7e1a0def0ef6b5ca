import ShaderKit.Proofs.Codec.Accepts
import ShaderKit.Proofs.Recording.Typing

/-!
# Module constants

A constant that is numbered in a context has a value of its type, and the numbers of
constants go with the numbers of their keys.
-/

namespace ShaderKit

/-! ## Sizes of constructible types -/

mutual
theorem TypeDescriptor.isSized_of_isConstructible : ∀ {type : TypeDescriptor},
    type.isConstructible = true → type.isSized = true
  | .scalar _, _ | .vector _ _, _ | .matrix _ _ _, _ | .atomic _, _ => rfl
  | .array element length, constructible => by
      rw [TypeDescriptor.isConstructible, Bool.and_eq_true] at constructible
      exact constructible.1
  | .struct label members, constructible => by
      rw [TypeDescriptor.isConstructible] at constructible
      rw [TypeDescriptor.isSized]
      exact MemberList.allSized_of_allConstructible constructible

theorem MemberList.allSized_of_allConstructible : ∀ {members : MemberList},
    members.allConstructible = true → members.allSized = true
  | .nil, _ => rfl
  | .cons name type attributes rest, constructible => by
      rw [MemberList.allConstructible, Bool.and_eq_true] at constructible
      rw [MemberList.allSized, Bool.and_eq_true]
      exact ⟨TypeDescriptor.isSized_of_isConstructible constructible.1,
        MemberList.allSized_of_allConstructible constructible.2⟩
end

theorem hasType_decode {type : TypeDescriptor} {value : HostValue} {bytes : Bytes}
    (sized : type.isSized = true) (encoded : encodeNew value type = .ok bytes) :
    ∃ canonical, decode bytes type 0 = .ok canonical ∧ HasType type canonical := by
  have laid : ∃ layout, LaidOut type layout := by
    cases computed : type.layout with
    | error error =>
        rw [encodeNew, computed] at encoded
        cases encoded
    | ok layout => exact ⟨layout, layout_eq_ok.mp computed⟩
  rcases laid with ⟨layout, laid⟩
  rcases laid.size_of_isSized sized with ⟨size, layoutSize⟩
  rcases laid.decode_encodeNew layoutSize encoded with ⟨accepted, decoded⟩
  exact ⟨_, decoded, hasType_canon accepted⟩

/-! ## Numbering -/

namespace TraceContext

variable {context next : TraceContext} {program : Program} {label : Option String}
  {type : TypeDescriptor} {value : HostValue} {number : Nat}

theorem grows_concat (added : ModuleConstant) (keys : Interning (TypeDescriptor × Bytes)) :
    context.Grows { context with
      constantKeys := keys
      constants := context.constants ++ [added] } where
  finished _ _ found := found
  constants number constant found := by
    have below := (List.getElem?_eq_some_iff.mp found).1
    exact (List.getElem?_append_left below).trans found

theorem type_of_key (sound : context.Sound program) {bytes : Bytes}
    (known : context.constantKeys.values[number]? = some (type, bytes)) :
    ∃ constant, context.constant? number = some constant ∧ constant.type = type := by
  have types : (context.constants.map ModuleConstant.type)[number]? = some type := by
    rw [← sound.keys, List.getElem?_map, known]
    rfl
  rw [List.getElem?_map] at types
  exact Option.map_eq_some_iff.mp types

def withConstant (context : TraceContext) (label : Option String) (type : TypeDescriptor)
    (bytes : Bytes) (canonical : HostValue)
    (new : context.constantKeys.find? (type, bytes) = none) : TraceContext :=
  { context with
    constantKeys := context.constantKeys.add (type, bytes) new
    constants := context.constants ++ [⟨label, type, canonical⟩] }

/-- A constant with a known key has its number; any other one is added at the end. -/
inductive Numbers (context : TraceContext) (label : Option String) (type : TypeDescriptor)
    (bytes : Bytes) : Nat → TraceContext → Prop where
  | known {number : Nat} (found : context.constantKeys.values[number]? = some (type, bytes)) :
      Numbers context label type bytes number context
  | added (canonical : HostValue) (new : context.constantKeys.find? (type, bytes) = none)
      (decoded : decode bytes type 0 = .ok canonical) :
      Numbers context label type bytes context.constantKeys.values.length
        (context.withConstant label type bytes canonical new)

theorem Numbers.found {bytes : Bytes} (numbers : context.Numbers label type bytes number next) :
    next.constantKeys.values[number]? = some (type, bytes) := by
  cases numbers with
  | known found => exact found
  | added => exact List.getElem?_concat_length

/-- Numbering succeeds with the number of the key of the encoded value. -/
theorem numbers_of_internConstant
    (interned : context.internConstant label type value = .ok number next) :
    ∃ bytes, encodeNew value type = .ok bytes ∧ context.Numbers label type bytes number next := by
  unfold internConstant at interned
  split at interned
  next => cases interned
  next bytes encoded =>
    refine ⟨bytes, encoded, ?_⟩
    rcases context.constantKeys.intern_cases (type, bytes) with
      ⟨found, known, seen⟩ | ⟨new, unseen⟩
    · rw [seen] at interned
      cases interned
      exact .known known
    · rw [unseen] at interned
      dsimp only at interned
      rw [if_pos rfl] at interned
      split at interned
      next => cases interned
      next canonical decoded =>
        cases interned
        exact .added canonical new decoded

/-- Only encoding can fail for a type whose values can be constructed, and then nothing has
been numbered. -/
theorem internConstant_error {error : ShaderError} (constructible : type.isConstructible = true)
    (failed : context.internConstant label type value = .error error next) :
    next = context ∧ ∃ cause, error = .encode cause ∧ encodeNew value type = .error cause := by
  unfold internConstant at failed
  split at failed
  next cause encoded =>
    cases failed
    exact ⟨rfl, cause, rfl, encoded⟩
  next bytes encoded =>
    rcases hasType_decode (TypeDescriptor.isSized_of_isConstructible constructible) encoded with
      ⟨canonical, decoded, _⟩
    rcases context.constantKeys.intern_cases (type, bytes) with ⟨_, _, seen⟩ | ⟨_, unseen⟩
    · rw [seen] at failed
      cases failed
    · rw [unseen] at failed
      dsimp only at failed
      rw [if_pos rfl, decoded] at failed
      cases failed

/-- Numbering a constant keeps the context sound, and the number is that of a constant of
the type. -/
theorem internConstant_sound (sound : context.Sound program)
    (constructible : type.isConstructible = true)
    (interned : context.internConstant label type value = .ok number next) :
    next.Sound program ∧ context.Grows next ∧
      ∃ constant, next.constant? number = some constant ∧ constant.type = type := by
  rcases numbers_of_internConstant interned with ⟨bytes, encoded, found | ⟨canonical, new, decoded⟩⟩
  · exact ⟨sound, .refl context, type_of_key sound found⟩
  · rcases hasType_decode (TypeDescriptor.isSized_of_isConstructible constructible) encoded with
      ⟨other, again, typed⟩
    rw [decoded] at again
    cases again
    have grows := context.grows_concat ⟨label, type, canonical⟩
      (context.constantKeys.add (type, bytes) new)
    have counted : context.constantKeys.values.length = context.constants.length := by
      rw [← List.length_map (f := Prod.fst), sound.keys, List.length_map]
    refine ⟨⟨?_, ?_, ?_⟩, grows, ⟨label, type, canonical⟩, ?_, rfl⟩
    · intro id recorded found
      rcases sound.finished id recorded found with ⟨known, recordedSound⟩
      exact ⟨known, recordedSound.mono grows⟩
    · intro constant member
      rcases List.mem_append.mp member with old | new
      · exact sound.constants constant old
      · rw [List.mem_singleton.mp new]
        exact typed
    · simp only [withConstant, Interning.values_add, List.map_append, sound.keys, List.map_cons, List.map_nil]
    · rw [constant?, counted]
      exact List.getElem?_concat_length

end TraceContext

end ShaderKit
