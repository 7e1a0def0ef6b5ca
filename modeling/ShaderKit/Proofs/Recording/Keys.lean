import ShaderKit.Proofs.Recording.Proceeding

/-!
# Keys of constants

A context numbers its constants by their keys, which are types with bytes. Tracing keeps the
numbers of keys, all keys are different, and a constant is what is decoded from its key. In two
contexts, numbers of one key stand for constants of one type and value.
-/

namespace ShaderKit

/-! ## Keys in two contexts -/

namespace TraceContext

/-- Numbers of one key in two contexts. -/
def Matches (context other : TraceContext) (number counterpart : Nat) : Prop :=
  ∃ key, context.constantKeys.values[number]? = some key ∧
    other.constantKeys.values[counterpart]? = some key

structure KeepsKeys (before after : TraceContext) : Prop where
  keys : before.constantKeys.values <+: after.constantKeys.values
  distinct : before.constantKeys.values.Nodup → after.constantKeys.values.Nodup

variable {context other before after : TraceContext} {number counterpart : Nat}

theorem Matches.symm (matched : context.Matches other number counterpart) :
    other.Matches context counterpart number := by
  have ⟨key, found, foundToo⟩ := matched
  exact ⟨key, foundToo, found⟩

theorem Matches.trans {third : TraceContext} {last : Nat}
    (first : context.Matches other number counterpart)
    (second : other.Matches third counterpart last) : context.Matches third number last := by
  have ⟨key, found, foundToo⟩ := first
  have ⟨again, known, knownToo⟩ := second
  cases foundToo.symm.trans known
  exact ⟨key, found, knownToo⟩

theorem Matches.mono (kept : context.constantKeys.values <+: before.constantKeys.values)
    (keptToo : other.constantKeys.values <+: after.constantKeys.values)
    (matched : context.Matches other number counterpart) :
    before.Matches after number counterpart := by
  have ⟨key, found, foundToo⟩ := matched
  exact ⟨key, getElem?_of_prefix kept found, getElem?_of_prefix keptToo foundToo⟩

theorem Matches.unique (distinct : other.constantKeys.values.Nodup) {others : Nat}
    (matched : context.Matches other number counterpart)
    (matchedToo : context.Matches other number others) : counterpart = others := by
  have ⟨key, found, foundToo⟩ := matched
  have ⟨again, known, knownToo⟩ := matchedToo
  cases found.symm.trans known
  have below := (List.getElem?_eq_some_iff.mp foundToo).1
  exact (List.getElem?_inj below distinct).mp (foundToo.trans knownToo.symm)

theorem KeepsKeys.refl (context : TraceContext) : context.KeepsKeys context :=
  ⟨List.prefix_refl _, fun distinct => distinct⟩

theorem Numbers.keepsKeys {label : Option String} {type : TypeDescriptor} {bytes : Bytes}
    (numbers : context.Numbers label type bytes number after) : context.KeepsKeys after := by
  refine ⟨numbers.continues.keys, fun distinct => ?_⟩
  cases numbers with
  | known => exact distinct
  | added _ new _ =>
      rw [withConstant, Interning.values_add, ← List.concat_eq_append]
      exact distinct.concat (Interning.find?_eq_none_iff.mp new)

theorem keepsKeys_passage (program : Program) : Passage program (fun _ => True) KeepsKeys where
  known _ _ := trivial
  refl := .refl
  trans first second := ⟨first.keys.trans second.keys, second.distinct ∘ first.distinct⟩
  numbered _ interned :=
    have ⟨_, _, numbers⟩ := numbers_of_internConstant interned
    numbers.keepsKeys
  left _ inside := ⟨inside.keys, inside.distinct⟩
  kept _ _ _ _ inside := ⟨inside.keys, inside.distinct⟩

/-- Whether a constant can be numbered does not depend on the context. -/
theorem internConstant_cases {type : TypeDescriptor} (constructible : type.isConstructible = true)
    (label : Option String) (value : HostValue) :
    (∃ cause, ∀ context : TraceContext,
      context.internConstant label type value = .error (.encode cause) context) ∨
      ∃ bytes, ∀ context : TraceContext, ∃ number next,
        context.internConstant label type value = .ok number next ∧
          context.Numbers label type bytes number next := by
  cases encoded : encodeNew value type with
  | error cause => exact .inl ⟨cause, fun context => by rw [internConstant, encoded]⟩
  | ok bytes =>
      refine .inr ⟨bytes, fun context => ?_⟩
      cases interned : context.internConstant label type value with
      | ok number next =>
          have ⟨again, same, numbers⟩ := numbers_of_internConstant interned
          cases encoded.symm.trans same
          exact ⟨number, next, rfl, numbers⟩
      | error error next =>
          have ⟨_, _, _, failed⟩ := internConstant_error constructible interned
          cases encoded.symm.trans failed

/-! ## Constants are read from their keys -/

structure Reads (key : TypeDescriptor × Bytes) (constant : ModuleConstant) : Prop where
  type : constant.type = key.1
  decoded : decode key.2 key.1 0 = .ok constant.value

/-- A context with different keys, whose constants are read from them. -/
structure Keyed (context : TraceContext) : Prop where
  distinct : context.constantKeys.values.Nodup
  reads : List.Forall₂ Reads context.constantKeys.values context.constants

theorem keyed_empty : Keyed {} :=
  ⟨List.nodup_nil, .nil⟩

theorem Keyed.constant? (keyed : context.Keyed) {key : TypeDescriptor × Bytes}
    (found : context.constantKeys.values[number]? = some key) :
    ∃ constant, context.constant? number = some constant ∧ Reads key constant := by
  have ⟨constant, known, reads⟩ := getElem?_of_forall₂ keyed.reads found
  exact ⟨constant, known, reads⟩

theorem Numbers.keyed {label : Option String} {type : TypeDescriptor} {bytes : Bytes}
    (numbers : context.Numbers label type bytes number after) (keyed : context.Keyed) :
    after.Keyed := by
  refine ⟨numbers.keepsKeys.distinct keyed.distinct, ?_⟩
  cases numbers with
  | known => exact keyed.reads
  | added canonical _ decoded =>
      have reads : Reads (type, bytes) ⟨label, type, canonical⟩ := ⟨rfl, decoded⟩
      exact List.rel_append keyed.reads (.cons reads .nil)

theorem keyed_passage (program : Program) :
    Passage program (fun _ => True) fun before after => before.Keyed → after.Keyed where
  known _ _ := trivial
  refl _ keyed := keyed
  trans first second keyed := second (first keyed)
  numbered _ interned keyed :=
    have ⟨_, _, numbers⟩ := numbers_of_internConstant interned
    numbers.keyed keyed
  left _ inside keyed :=
    have keyed := inside ⟨keyed.distinct, keyed.reads⟩
    ⟨keyed.distinct, keyed.reads⟩
  kept _ _ _ _ inside keyed :=
    have keyed := inside ⟨keyed.distinct, keyed.reads⟩
    ⟨keyed.distinct, keyed.reads⟩

end TraceContext

end ShaderKit
