import Mathlib.Data.Set.Operations
import ShaderKit.Proofs.Identities.Mapping
import ShaderKit.Proofs.Recording.Proceeding

/-!
# The functions that take part

A program, the functions that are traced and the nodes that were published before involve some
functions. Only the identities of these matter: other identities that keep them apart belong to a
map that keeps all functions apart, and what is mapped depends on the identities in it only.
-/

namespace ShaderKit

/-! ## Maps for some functions -/

def numberAbove (functions : List FunctionId) : Nat :=
  functions.foldr (fun id bound => max (id.number + 1) bound) 0

theorem number_lt_numberAbove {functions : List FunctionId} {id : FunctionId}
    (member : id ∈ functions) : id.number < numberAbove functions := by
  induction functions with
  | nil => cases member
  | cons first rest induction =>
      have split : numberAbove (first :: rest) = max (first.number + 1) (numberAbove rest) := rfl
      rcases List.mem_cons.mp member with rfl | later
      · omega
      · have below := induction later
        omega

/-- A map for some functions that keeps them apart, extended to all. The others get numbers above
those of the images. -/
def FunctionIdMap.extending (involved : List FunctionId) (rename : FunctionId → FunctionId)
    (apart : Set.InjOn rename {id | id ∈ involved}) : FunctionIdMap where
  toFun id :=
    if id ∈ involved then rename id else ⟨id.number + numberAbove (involved.map rename)⟩
  injective := by
    have below {id : FunctionId} (member : id ∈ involved) :
        (rename id).number < numberAbove (involved.map rename) :=
      number_lt_numberAbove (List.mem_map_of_mem member)
    intro first second same
    dsimp only at same
    split at same <;> split at same
    next firstIn secondIn => exact apart firstIn secondIn same
    next firstIn _ =>
      have number := congrArg FunctionId.number same
      have bound := below firstIn
      dsimp only at number
      omega
    next _ secondIn =>
      have number := congrArg FunctionId.number same
      have bound := below secondIn
      dsimp only at number
      omega
    next =>
      rcases first with ⟨first⟩
      rcases second with ⟨second⟩
      have number := congrArg FunctionId.number same
      exact congrArg FunctionId.mk (Nat.add_right_cancel number)

theorem FunctionIdMap.extending_apply {involved : List FunctionId}
    {rename : FunctionId → FunctionId} (apart : Set.InjOn rename {id | id ∈ involved})
    {id : FunctionId} (member : id ∈ involved) : extending involved rename apart id = rename id :=
  if_pos member

/-! ## Identities in functions -/

mutual
def Action.mentioned : Action → List FunctionId
  | .call _ callee _ | .callVoid callee _ => [callee]
  | .branch _ accept reject => accept.mentioned ++ reject.mentioned
  | .loop body | .range _ _ _ body | .attempt body | .adopt _ _ body => body.mentioned
  | _ => []

def Script.mentioned : Script → List FunctionId
  | .done => []
  | .step action rest => action.mentioned ++ rest.mentioned
end

def Implementation.mentioned : Implementation → List FunctionId
  | .script body _ => body.mentioned
  | .raw _ references => references.map Prod.snd

def ShaderFunction.mentioned (function : ShaderFunction) : List FunctionId :=
  function.id :: function.implementation.mentioned

/-- The functions of a program, those that are traced, those that their bodies refer to, and
those for which nodes were published before. -/
def Program.involved (program : Program) (roots : List ShaderFunction) (journal : Journal) :
    List FunctionId :=
  (roots ++ program.functions).flatMap ShaderFunction.mentioned ++
    journal.published.map fun entry => entry.2.owner

section

variable {one two : FunctionId → FunctionId}

mutual
theorem Action.mapIds_congr : ∀ {action : Action}, (∀ id ∈ action.mentioned, one id = two id) →
    action.mapIds one = action.mapIds two
  | .call _ callee _, agree | .callVoid callee _, agree => by
      simp only [Action.mapIds, agree callee List.mem_cons_self]
  | .branch _ accept reject, agree => by
      have accepted : accept.mapIds one = accept.mapIds two :=
        Script.mapIds_congr fun id member => agree id (List.mem_append_left _ member)
      have rejected : reject.mapIds one = reject.mapIds two :=
        Script.mapIds_congr fun id member => agree id (List.mem_append_right _ member)
      rw [Action.mapIds, Action.mapIds, accepted, rejected]
  | .loop body, agree | .range _ _ _ body, agree | .attempt body, agree
  | .adopt _ _ body, agree => by
      have same : body.mapIds one = body.mapIds two := Script.mapIds_congr agree
      simp only [Action.mapIds, same]
  | .literal .., _ | .constant .., _ | .zero .., _ | .construct .., _ | .convert .., _
  | .declare .., _ | .declareZero .., _ | .load .., _ | .store .., _ | .unary .., _
  | .binary .., _ | .member .., _ | .index .., _ | .swizzle .., _ | .standard .., _
  | .closeTo .., _ | .bind .., _ | .leaveLoop, _ | .nextRound, _ | .giveBack _, _ | .discard, _
  | .noteType _, _ | .publish .., _ => rfl

theorem Script.mapIds_congr : ∀ {script : Script}, (∀ id ∈ script.mentioned, one id = two id) →
    script.mapIds one = script.mapIds two
  | .done, _ => rfl
  | .step action rest, agree => by
      have first : action.mapIds one = action.mapIds two :=
        Action.mapIds_congr fun id member => agree id (List.mem_append_left _ member)
      have later : rest.mapIds one = rest.mapIds two :=
        Script.mapIds_congr fun id member => agree id (List.mem_append_right _ member)
      rw [Script.mapIds, Script.mapIds, first, later]
end

theorem ShaderFunction.mapIds_congr {function : ShaderFunction}
    (agree : ∀ id ∈ function.mentioned, one id = two id) :
    function.mapIds one = function.mapIds two := by
  have own : one function.id = two function.id := agree _ List.mem_cons_self
  have others := fun id member => agree id (List.mem_cons_of_mem _ member)
  have implementation : function.implementation.mapIds one =
      function.implementation.mapIds two := by
    cases implemented : function.implementation with
    | script body result =>
        rw [implemented] at others
        rw [Implementation.mapIds, Implementation.mapIds, Script.mapIds_congr others]
    | raw text references =>
        rw [implemented] at others
        rw [Implementation.mapIds, Implementation.mapIds]
        congr 1
        apply List.map_congr_left
        intro reference member
        rw [others reference.2 (List.mem_map_of_mem member)]
  rw [mapIds, mapIds, own, implementation]

variable {program : Program} {roots : List ShaderFunction} {journal : Journal}

theorem Program.mem_involved {function : ShaderFunction} {id : FunctionId}
    (taken : function ∈ roots ++ program.functions) (mentioned : id ∈ function.mentioned) :
    id ∈ program.involved roots journal :=
  List.mem_append_left _ (List.mem_flatMap.mpr ⟨function, taken, mentioned⟩)

variable (agree : ∀ id ∈ program.involved roots journal, one id = two id)

include agree

theorem Program.mapIds_congr : program.mapIds one = program.mapIds two := by
  rw [mapIds, mapIds]
  congr 1
  apply List.map_congr_left
  intro function member
  exact ShaderFunction.mapIds_congr fun id mentioned =>
    agree id (mem_involved (List.mem_append_right _ member) mentioned)

theorem Program.roots_mapIds_congr :
    roots.map (ShaderFunction.mapIds one) = roots.map (ShaderFunction.mapIds two) := by
  apply List.map_congr_left
  intro function member
  exact ShaderFunction.mapIds_congr fun id mentioned =>
    agree id (mem_involved (List.mem_append_left _ member) mentioned)

theorem Program.journal_mapIds_congr : journal.mapIds one = journal.mapIds two := by
  rw [Journal.mapIds, Journal.mapIds]
  congr 1
  apply List.map_congr_left
  intro entry member
  have owner : one entry.2.owner = two entry.2.owner :=
    agree _ (List.mem_append_right _ (List.mem_map_of_mem member))
  rw [Node.mapIds, Node.mapIds, owner]

end

/-! ## Finished functions take part -/

/-- A function that is finished after some traces was traced first or is of the program. -/
theorem Program.function_of_attemptAll {program : Program} {roots : List ShaderFunction}
    {journal : Journal} {recorded : RecordedFunction}
    (finished : recorded ∈ (program.attemptAll roots { journal := journal }).context.finished) :
    recorded.function ∈ roots ++ program.functions := by
  have passage : TraceContext.Passage program (· ∈ roots ++ program.functions)
      fun before after => ∀ recorded ∈ after.finished,
        recorded ∈ before.finished ∨ recorded.function ∈ roots ++ program.functions :=
    { known := fun _ known => List.mem_append_right _ (List.mem_of_find?_eq_some known)
      refl := fun _ _ member => .inl member
      trans := fun first second recorded member =>
        (second recorded member).elim (first recorded) .inr
      numbered := fun _ interned recorded member =>
        .inl (TraceContext.finished_internConstant interned ▸ member)
      left := fun _ inside => inside
      kept := by
        intro before function depth start finish recorded taken _ _ ran inside other member
        rcases List.mem_append.mp member with old | last
        · exact inside other old
        · cases List.mem_singleton.mp last
          rw [Tracing.function_of_record ran]
          exact .inr taken }
  have taken := attemptAll_passes passage (fun _ => List.mem_append_left _) { journal := journal }
  exact (taken recorded finished).resolve_left nofun

end ShaderKit
