import ShaderKit.Host.Evaluation
import ShaderKit.Proofs.Codec.Restoring

/-!
# Encoding a decoded value again

The bytes of a value determine the form in which it is decoded. For types whose members have
different names, that form has the same bytes, padding included.
-/

namespace ShaderKit

theorem eq_of_span {buffer : Bytes} {patch other : Patch} (span : other.span = patch.span)
    (gives : buffer.Gives other) (holds : buffer.Holds patch) : other = patch := by
  have ⟨path, read⟩ := gives
  have ⟨offset, kind⟩ := Span.mk.inj span
  rw [offset, kind, holds.readScalar path] at read
  cases other
  cases patch
  rw [Patch.mk.injEq]
  exact ⟨offset, (Except.ok.inj read).symm⟩

theorem eq_of_gives {buffer : Bytes} {patches others : List Patch}
    (spans : others.map Patch.span = patches.map Patch.span)
    (gives : ∀ patch ∈ others, buffer.Gives patch) (holds : ∀ patch ∈ patches, buffer.Holds patch) :
    others = patches := by
  induction patches generalizing others with
  | nil => exact List.map_eq_nil_iff.mp spans
  | cons patch rest induction =>
      cases others with
      | nil => cases spans
      | cons other more =>
          rw [List.map_cons, List.map_cons, List.cons.injEq] at spans
          rw [List.forall_mem_cons] at gives holds
          have same := eq_of_span spans.1 gives.1 holds.1
          rw [same, induction spans.2 gives.2 holds.2]

variable {type : TypeDescriptor} {layout : Layout} {size : Nat} {value canonical : HostValue}
  {bytes : Bytes}

/-- The decoded form of a value has the bytes from which it was decoded. -/
theorem LaidOut.encodeNew_decode (laid : LaidOut type layout) (distinct : type.Distinct)
    (sized : layout.size = some size) (encoded : encodeNew value type = .ok bytes)
    (decoded : decode bytes type 0 = .ok canonical) : encodeNew canonical type = .ok bytes := by
  have computed := layout_eq_ok.mpr laid
  have ⟨accepted, same⟩ := laid.decode_encodeNew sized encoded
  have typed : HasType type canonical := by
    cases decoded.symm.trans same
    exact hasType_canon accepted
  have ⟨patches, whole, stored⟩ := encodeNew_eq computed encoded
  rw [encodedLength_of_size value sized] at whole stored
  have room (any : HostValue) : 0 + layout.extent (type.tailLength any) ≤ size := by
    rw [Layout.extent_of_size _ sized]
    omega
  have unsized (none : layout.size = none) : False := by
    rw [sized] at none
    cases none
  have ⟨again, wholeAgain⟩ := laid.plan_whole [] (typed.accepts distinct) (room canonical)
  have read : type.read bytes [] 0 layout = .ok canonical := by
    rw [decode, computed] at decoded
    exact decoded
  have held : ∀ patch ∈ patches, bytes.Holds patch := by
    rw [stored]
    apply laid.holds_apply whole
    rw [Array.size_replicate]
    exact room value
  -- both plans have the same places, and what stands there decides the scalars
  have patches : again = patches := by
    apply eq_of_gives _ (laid.gives_plan distinct read wholeAgain) held
    rw [laid.spans_plan 0 whole fun none => (unsized none).elim,
      laid.spans_plan 0 wholeAgain fun none => (unsized none).elim]
  simp [encodeNew, computed, encodeWithLayout, encodedLength_of_size canonical sized, wholeAgain,
    patches, stored]

theorem HostValue.canonical_of_encodeNew (encoded : encodeNew value type = .ok bytes)
    (decoded : decode bytes type 0 = .ok canonical) : value.canonical type = .ok canonical := by
  rw [HostValue.canonical, encoded]
  dsimp only
  rw [decoded]

/-- Encoding the decoded form of a value of a registered type gives the same bytes again. -/
theorem encodeNew_of_decode (registered : type.Registered) (sized : type.isSized = true)
    (encoded : encodeNew value type = .ok bytes) (decoded : decode bytes type 0 = .ok canonical) :
    encodeNew canonical type = .ok bytes := by
  cases computed : type.layout with
  | error error =>
      rw [encodeNew, computed] at encoded
      cases encoded
  | ok layout =>
      have laid := layout_eq_ok.mp computed
      rcases laid.size_of_isSized sized with ⟨size, layoutSize⟩
      exact laid.encodeNew_decode registered.distinct layoutSize encoded decoded

end ShaderKit
