import ShaderKit.Proofs.Descriptor.Registered
import ShaderKit.Proofs.Value.Standard
import ShaderKit.Recording.Recorder

/-!
# Types whose values can be constructed

Operators, functions and conversions give values of such types whatever they are applied to, and
the parts of a value that can be constructed can be constructed too. A signature that has been
accepted has such a result, while its parameters only have a size.
-/

namespace ShaderKit

variable {type left right result : TypeDescriptor}

/-! ## Results of operators -/

namespace TypeDescriptor

theorem isConstructible_of_isValueOf {test : ScalarKind → Bool}
    (value : type.isValueOf test = true) : type.isConstructible = true := by
  cases type <;> first | rfl | cases value

theorem isConstructible_of_comparison? (compared : type.comparison? = some result) :
    result.isConstructible = true := by
  cases type <;> cases compared <;> rfl

end TypeDescriptor

theorem UnaryOperator.isConstructible_of_resultType {operator : UnaryOperator}
    (accepted : operator.resultType type = some result) : result.isConstructible = true := by
  unfold resultType at accepted
  split at accepted
  next value =>
    cases accepted
    exact TypeDescriptor.isConstructible_of_isValueOf value
  next => cases accepted

theorem isConstructible_of_numericBroadcast (accepted : numericBroadcast left right = some result) :
    result.isConstructible = true := by
  unfold numericBroadcast at accepted
  split at accepted <;> first | (split at accepted <;> cases accepted <;> rfl) | cases accepted

theorem isConstructible_of_productType (accepted : productType left right = some result) :
    result.isConstructible = true := by
  unfold productType at accepted
  split at accepted <;>
    first
      | (split at accepted <;> cases accepted <;> rfl)
      | exact isConstructible_of_numericBroadcast accepted

theorem isConstructible_of_bitwiseType {onBool : Bool}
    (accepted : bitwiseType onBool left right = some result) : result.isConstructible = true := by
  unfold bitwiseType at accepted
  split at accepted
  next both =>
    cases accepted
    exact TypeDescriptor.isConstructible_of_isValueOf both.2
  next => cases accepted

theorem isConstructible_of_shiftType (accepted : shiftType left right = some result) :
    result.isConstructible = true := by
  unfold shiftType at accepted
  split at accepted <;> first | (split at accepted <;> cases accepted <;> rfl) | cases accepted

theorem BinaryOperator.isConstructible_of_resultType {operator : BinaryOperator}
    (accepted : operator.resultType left right = some result) : result.isConstructible = true := by
  cases operator with
  | add | sub =>
      change additiveType left right = some result at accepted
      unfold additiveType at accepted
      split at accepted
      next matrices =>
        split at accepted
        next =>
          cases accepted
          cases left <;> first | rfl | cases matrices
        next => cases accepted
      next => exact isConstructible_of_numericBroadcast accepted
  | div | rem =>
      change quotientType left right = some result at accepted
      unfold quotientType at accepted
      split at accepted
      next => cases accepted
      next => exact isConstructible_of_numericBroadcast accepted
  | mul => exact isConstructible_of_productType accepted
  | equal | notEqual =>
      change equalityType left right = some result at accepted
      unfold equalityType at accepted
      split at accepted
      next => exact TypeDescriptor.isConstructible_of_comparison? accepted
      next => cases accepted
  | less | lessEqual | greater | greaterEqual =>
      change orderType left right = some result at accepted
      unfold orderType at accepted
      split at accepted
      next => exact TypeDescriptor.isConstructible_of_comparison? accepted
      next => cases accepted
  | logicalAnd | logicalOr =>
      change (if left = .bool ∧ right = .bool then some TypeDescriptor.bool else none) =
        some result at accepted
      split at accepted
      next =>
        cases accepted
        rfl
      next => cases accepted
  | bitAnd | bitOr | bitXor => exact isConstructible_of_bitwiseType accepted
  | shiftLeft | shiftRight => exact isConstructible_of_shiftType accepted

/-! ## Results of standard functions -/

namespace StandardFunction

theorem isConstructible_of_floatComponent? (accepted : floatComponent? type = some result) :
    result.isConstructible = true := by
  unfold floatComponent? at accepted
  split at accepted
  next => rw [(keepIf_eq_some.mp accepted).2.symm]; rfl
  next => rw [(keepIf_eq_some.mp accepted).2.symm]; rfl
  next => cases accepted

theorem isConstructible_of_mixType {weight : TypeDescriptor}
    (accepted : mixType left right weight = some result) : result.isConstructible = true := by
  rcases keepIf_eq_some.mp accepted with ⟨allowed, rfl⟩
  exact TypeDescriptor.isConstructible_of_isValueOf (Bool.and_eq_true_iff.mp allowed).2

theorem isConstructible_of_selectType {condition : TypeDescriptor}
    (accepted : selectType left right condition = some result) :
    result.isConstructible = true := by
  rcases keepIf_eq_some.mp accepted with ⟨allowed, rfl⟩
  exact TypeDescriptor.isConstructible_of_isValueOf (Bool.and_eq_true_iff.mp allowed).2

theorem isConstructible_of_resultOf {function : StandardFunction}
    {others : List TypeDescriptor} (accepted : function.resultOf type others = some result) :
    result.isConstructible = true := by
  cases function with
  | saturate | sin | cos | tan | sinh | cosh | tanh | asin | acos | atan | exp | exp2 | log
  | log2 | sqrt | inverseSqrt | floor | ceil | round | fract | trunc | radians | degrees
  | abs | sign =>
      rcases keepIf_eq_some.mp accepted with ⟨simple, rfl⟩
      exact TypeDescriptor.isConstructible_of_isValueOf simple
  | atan2 | pow | step | smoothStep | fma | min | max | clamp =>
      rcases keepIf_eq_some.mp accepted with ⟨allowed, rfl⟩
      exact TypeDescriptor.isConstructible_of_isValueOf (Bool.and_eq_true_iff.mp allowed).2
  | mix =>
      unfold resultOf at accepted
      dsimp only at accepted
      split at accepted
      next => exact isConstructible_of_mixType accepted
      next => cases accepted
  | select =>
      unfold resultOf at accepted
      dsimp only at accepted
      split at accepted
      next => exact isConstructible_of_selectType accepted
      next => cases accepted
  | length => exact isConstructible_of_floatComponent? accepted
  | distance =>
      change (if allSame type others then floatComponent? type else none) = some result at accepted
      split at accepted
      next => exact isConstructible_of_floatComponent? accepted
      next => cases accepted
  | normalize =>
      rcases keepIf_eq_some.mp accepted with ⟨vector, rfl⟩
      cases type <;> first | rfl | cases vector
  | reflect =>
      rcases keepIf_eq_some.mp accepted with ⟨allowed, rfl⟩
      have vector := (Bool.and_eq_true_iff.mp allowed).2
      cases type <;> first | rfl | cases vector
  | dot | determinant =>
      cases type <;> first | cases accepted | rw [← (keepIf_eq_some.mp accepted).2]; rfl
  | cross =>
      cases type with
      | vector kind width =>
          cases width <;>
            first | cases accepted | rw [← (keepIf_eq_some.mp accepted).2]; rfl
      | _ => cases accepted
  | transpose => cases type <;> cases accepted <;> rfl
  | allTrue | anyTrue | arrayLength =>
      rw [← (keepIf_eq_some.mp accepted).2]
      rfl

theorem isConstructible_of_resultType {function : StandardFunction}
    {arguments : List TypeDescriptor} (accepted : function.resultType arguments = some result) :
    result.isConstructible = true := by
  unfold resultType at accepted
  split at accepted
  next => cases accepted
  next =>
    split at accepted
    next => exact isConstructible_of_resultOf accepted
    next => cases accepted

end StandardFunction

/-! ## Parts -/

theorem MemberList.isConstructible_of_find? : ∀ {members : MemberList} {name : String}
    {position : Nat} {member : Member}, members.find? name = some (position, member) →
    members.allConstructible = true → member.type.isConstructible = true
  | .nil, _, _, _ => nofun
  | .cons name' type attributes rest, name, position, member => by
      intro found all
      rw [allConstructible, Bool.and_eq_true] at all
      rw [find?] at found
      split at found
      next =>
        cases found
        exact all.1
      next =>
        rcases Option.map_eq_some_iff.mp found with ⟨⟨index, inner⟩, foundInner, same⟩
        cases same
        exact isConstructible_of_find? foundInner all.2

theorem TypeDescriptor.isConstructible_of_member {name : String} {position : Nat}
    {member : Member} (found : type.members.find? name = some (position, member))
    (constructible : type.isConstructible = true) : member.type.isConstructible = true := by
  cases type with
  | struct label members => exact MemberList.isConstructible_of_find? found constructible
  | _ => cases found

theorem TypeDescriptor.isConstructible_of_indexing {indexing : Recording.Indexing}
    (indexed : Recording.indexing? type = some indexing)
    (constructible : type.isConstructible = true) :
    indexing.element.isConstructible = true := by
  unfold Recording.indexing? at indexed
  split at indexed <;> cases indexed
  next => rfl
  next => rfl
  next => exact (Bool.and_eq_true_iff.mp constructible).2
  next => cases constructible

theorem Recording.isConstructible_of_convertible (convertible : convertible left right = true) :
    right.isConstructible = true := by
  unfold Recording.convertible at convertible
  split at convertible
  next => rfl
  next => rfl
  next => cases convertible

/-! ## Signatures -/

inductive Signature.Accepted : Signature → Prop where
  | plain {name : String} {parameters : List Parameter} {result : Option TypeDescriptor}
      {signature : Signature} (built : plain name parameters result = .ok signature) :
      Accepted signature
  | vertex {name : String} {input : Option TypeDescriptor} {output : TypeDescriptor}
      {signature : Signature} (built : vertex name input output = .ok signature) :
      Accepted signature
  | fragment {name : String} {input : Option TypeDescriptor} {output : TypeDescriptor}
      {signature : Signature} (built : fragment name input output = .ok signature) :
      Accepted signature
  | compute {name : String} {input : Option TypeDescriptor} {x y z : Nat}
      {signature : Signature} (built : compute name input x y z = .ok signature) :
      Accepted signature

namespace Signature

variable {signature : Signature}

theorem isConstructible_of_checkResult {result : Option TypeDescriptor}
    (checked : checkResult result = .ok ()) :
    ∀ type, result = some type → type.isConstructible = true := by
  rintro type rfl
  unfold checkResult at checked
  dsimp only at checked
  split at checked
  next constructible => exact constructible
  next => cases checked

theorem result_of_entry {name : String} {input output : Option TypeDescriptor}
    {stage : EntryStage} {inputRole outputRole : IoRole}
    (built : entry name input output stage inputRole outputRole = .ok signature) :
    ∀ type, signature.result = some type → type.isConstructible = true := by
  rcases bind_eq_ok.mp built with ⟨parameters, _, built⟩
  rcases bind_eq_ok.mp built with ⟨result, _, built⟩
  rcases bind_eq_ok.mp built with ⟨_, checked, same⟩
  cases same
  exact isConstructible_of_checkResult checked

theorem Accepted.returns (accepted : signature.Accepted) :
    ∀ type, signature.result = some type → type.isConstructible = true := by
  cases accepted with
  | plain built =>
      rcases bind_eq_ok.mp built with ⟨_, _, built⟩
      rcases bind_eq_ok.mp built with ⟨_, checked, same⟩
      cases same
      exact isConstructible_of_checkResult checked
  | vertex built => exact result_of_entry built
  | fragment built => exact result_of_entry built
  | compute built =>
      unfold Signature.compute at built
      split at built
      next => cases built
      next => exact result_of_entry built

end Signature

end ShaderKit
