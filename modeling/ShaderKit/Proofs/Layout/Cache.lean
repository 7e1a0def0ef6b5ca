import ShaderKit.Codec.Decode
import ShaderKit.Codec.Update
import ShaderKit.Layout.Cache
import ShaderKit.Proofs.Memo

/-!
# Runs of layout caches

A layout cache cannot be told from computing each layout anew, except by the number of layouts
that it holds and by which of its answers are one object.
-/

namespace ShaderKit.LayoutCache

def run (requests : List (MemoRequest TypeDescriptor)) :
    MemoRun TypeDescriptor TypeDescriptor LayoutError Layout :=
  .ofRequests LayoutCache.layout requests

variable (requests : List (MemoRequest TypeDescriptor))

theorem run_reached : Memo.Reached id (fun type answer => type.layout = answer)
    (run requests).log (run requests).memo :=
  MemoRun.ofRequests_reached (Memo.getOrCompute_step id · TypeDescriptor.layout) requests

theorem layout_eq_of_asked {type : TypeDescriptor} {answer : Except LayoutError (Handle Layout)}
    (member : .asked type answer ∈ (run requests).log) :
    answer.map Handle.value = type.layout := by
  have reached := run_reached requests
  cases answer with
  | error error => exact (reached.computes_of_error member).symm
  | ok handle =>
      have ⟨later, earlier, split⟩ := List.append_of_mem member
      have ⟨first, _, same, computed⟩ := reached.exists_computed split
      cases same
      exact computed.symm

/-- Every run of a layout cache. Each answer is the layout of its type, or the failure to lay it
out; two answers are one shared object exactly if their types are equal and no clear lies between
them; the cache is as large as the number of different types that were laid out since the last
clear; and encoding, decoding and updating with a remembered layout are the same as without. -/
theorem run_computesAnew :
    (run requests).log.map MemoEvent.request = requests.reverse ∧
    (∀ type answer, .asked type answer ∈ (run requests).log →
      answer.map Handle.value = type.layout) ∧
    (∀ later second two between first one earlier,
      (run requests).log =
          later ++ .asked second (.ok two) :: (between ++ .asked first (.ok one) :: earlier) →
        (two.ticket = one.ticket ↔ second = first ∧ .cleared ∉ between)) ∧
    (run requests).memo.size =
      ((MemoEvent.answered (run requests).log).map Prod.fst).dedup.length ∧
    ∀ type handle, .asked type (.ok handle) ∈ (run requests).log → ∀ buffer offset,
      (∀ value, encodeWithLayout value type handle.value buffer offset =
        encode value type buffer offset) ∧
      decodeWithLayout buffer type handle.value offset = decode buffer type offset ∧
      ∀ updates, updateWithLayout updates type handle.value buffer offset =
        updateBuffer updates type buffer offset := by
  have reached := run_reached requests
  refine ⟨MemoRun.map_request_log _ requests, fun _ _ => layout_eq_of_asked requests,
    fun _ _ _ _ _ _ _ => reached.shared_iff, reached.size_eq, ?_⟩
  intro type handle member buffer offset
  have layout : type.layout = .ok handle.value := (layout_eq_of_asked requests member).symm
  refine ⟨fun value => ?_, ?_, fun updates => ?_⟩
  · rw [encode, layout]
  · rw [decode, layout]
  · rw [updateBuffer, layout]

def exampleLayoutRequests : List (MemoRequest TypeDescriptor) :=
  [.ask (.vector .f32 .three), .ask (.struct none .nil), .ask (.vector .f32 .three), .clear,
    .ask (.vector .f32 .three)]

theorem run_computesAnew_exampleLayoutRequests :
    (run exampleLayoutRequests).memo.size = 1 ∧
      .error (.emptyStruct []) = (TypeDescriptor.struct none .nil).layout ∧
      (∃ first second third : Handle Layout,
        (.asked (.vector .f32 .three) (.ok third) :: .cleared ::
            .asked (.vector .f32 .three) (.ok second) ::
            .asked (.struct none .nil) (.error (.emptyStruct [])) ::
            .asked (.vector .f32 .three) (.ok first) :: [] =
          (run exampleLayoutRequests).log) ∧
        second.ticket = first.ticket ∧ third.ticket ≠ second.ticket) ∧
      decodeWithLayout #[] (.vector .f32 .three) (.leaf 12 16) 0 =
        decode #[] (.vector .f32 .three) 0 := by
  have log : (run exampleLayoutRequests).log =
      [.asked (.vector .f32 .three) (.ok ⟨1, .leaf 12 16⟩), .cleared,
        .asked (.vector .f32 .three) (.ok ⟨0, .leaf 12 16⟩),
        .asked (.struct none .nil) (.error (.emptyStruct [])),
        .asked (.vector .f32 .three) (.ok ⟨0, .leaf 12 16⟩)] := rfl
  rcases run_computesAnew exampleLayoutRequests with ⟨_, answers, shared, size, codec⟩
  rw [log] at answers shared size codec
  refine ⟨size, answers _ (.error (.emptyStruct [])) (by simp), ⟨_, _, _, log.symm, ?_, ?_⟩,
    (codec _ ⟨0, .leaf 12 16⟩ (by simp) #[] 0).2.1⟩
  · exact (shared [_, _] _ _ [_] _ _ [] rfl).mpr ⟨rfl, by simp⟩
  · exact fun same => ((shared [] _ _ [_] _ _ [_, _] rfl).mp same).2 (by simp)

end ShaderKit.LayoutCache
