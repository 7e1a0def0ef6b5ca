import ShaderKit.Proofs.Recording.Linked
import ShaderKit.Proofs.Recording.Recursion

/-!
# Tracing without memory

For comparison, a function is traced in such a way that nothing is remembered between its
calls: every callee is recorded in a context of its own, each time that it is called. A trace in
any context that tracing reaches gives the same, up to the numbers of constants. So it does not
matter which functions were recorded before.

This rests on an invariant of contexts: every finished recording can be made again without
the other ones.
-/

namespace ShaderKit

/-! ## Recording apart -/

/-- Work in a new context where the same functions are being recorded. -/
def Tracing.apart {α : Type} (work : Tracing α) : Tracing α := fun session =>
  match work ⟨{ stack := session.context.stack }, session.journal⟩ with
  | .ok result finish => .ok result ⟨session.context, finish.journal⟩
  | .error error finish => .error error ⟨session.context, finish.journal⟩

/-- Trace a function, and each of its callees in a context of its own. -/
def Program.traceApart (program : Program) :
    (depth : Nat) → ShaderFunction → Tracing RecordedFunction
  | 0, function => Tracing.once function (Tracing.refuse function .nestedTooDeep)
  | depth + 1, function =>
      let callees (callee : ShaderFunction) := Tracing.apart (program.traceApart depth callee)
      Tracing.once function (Tracing.record ⟨program, callees, function⟩)

def Session.bare (stack : List ShaderFunction) (journal : Journal) : Session :=
  ⟨{ stack := stack }, journal⟩

namespace Tracing

variable {start : Session} {function : ShaderFunction} {stack : List ShaderFunction}
  {journal : Journal}

variable {answer : EStateM.Result ShaderError Session RecordedFunction}
  {work body : Tracing RecordedFunction}

abbrev AgreeInKind (answer other : EStateM.Result ShaderError Session RecordedFunction) : Prop :=
  Mirrors (fun _ _ _ => True) answer other

theorem Mirrors.agreeInKind {other : EStateM.Result ShaderError Session RecordedFunction}
    (mirrors : Mirrors RecordedFunction.Alike answer other) : AgreeInKind answer other := by
  cases mirrors with
  | ok => exact .ok trivial
  | error => exact .error

theorem AgreeInKind.echoes
    (agrees : AgreeInKind answer (work (.bare start.context.stack start.journal))) :
    Echoes start.context answer (apart work start) := by
  unfold apart
  rw [← Session.bare]
  cases ran : work (.bare start.context.stack start.journal) <;> rw [ran] at agrees
  all_goals cases agrees
  next => exact .ok rfl
  next => exact .error rfl

theorem Mirrors.once_left (begins : start.context.Begins function)
    (mirrors : Mirrors RecordedFunction.Alike (body (entering function start)) answer) :
    Mirrors RecordedFunction.Alike (once function body start) answer := by
  have ⟨_, traced⟩ := once_begun begins body
  rw [traced]
  generalize body (entering function start) = ended at mirrors
  cases mirrors with
  | ok alike => exact .ok alike
  | error => exact .error

theorem Mirrors.once_right (begins : start.context.Begins function)
    (mirrors : Mirrors RecordedFunction.Alike answer (body (entering function start))) :
    Mirrors RecordedFunction.Alike answer (once function body start) := by
  have ⟨_, traced⟩ := once_begun begins body
  rw [traced]
  generalize body (entering function start) = ended at mirrors
  cases mirrors with
  | ok alike => exact .ok alike
  | error => exact .error

theorem begins_bare (absent : ∀ other ∈ stack, other.id ≠ function.id) :
    (Session.bare stack journal).context.Begins function where
  absent := rfl
  unlinked := by
    apply List.dropWhile_eq_nil_iff.mpr
    intro other member
    exact decide_eq_true (absent other (List.mem_reverse.mp member))

end Tracing

open Tracing

namespace Program

variable {program : Program} {function : ShaderFunction} {before after : TraceContext}
  {recorded : RecordedFunction} {stack : List ShaderFunction} {journal : Journal} {depth : Nat}

/-! ## One step of recording apart -/

theorem exists_traceApart (program : Program) (depth : Nat) (function : ShaderFunction) :
    ∃ body, program.traceApart depth function = once function body := by
  cases depth with
  | zero => exact ⟨_, rfl⟩
  | succ depth => exact ⟨_, rfl⟩

theorem exists_depth (known : program.find? function.id = some function)
    (absent : ∀ other ∈ stack, other.id ≠ function.id)
    (below : program.unbegun { stack := stack } ≤ depth) :
    ∃ less, depth = less + 1 ∧ program.unbegun { stack := function :: stack } ≤ less := by
  have begins : TraceContext.Begins { stack := stack } function := @begins_bare _ _ {} absent
  have fewer : program.unbegun { stack := function :: stack } <
      program.unbegun { stack := stack } :=
    unbegun_entered_lt (Option.isSome_of_eq_some known) begins
  exact ⟨depth - 1, by omega, by omega⟩

theorem record_mirrors_apart {trace : ShaderFunction → Tracing RecordedFunction} {start : Session}
    (keeps : RecordsWithin (fun _ => True) TraceContext.KeepsKeys trace)
    (known : program.find? function.id = some function) (strict : function.swallows = false)
    (own : function.adopts = false) (distinct : start.context.constantKeys.values.Nodup)
    (absent : ∀ other ∈ stack, other.id ≠ function.id)
    (below : program.unbegun { stack := stack } ≤ depth)
    (agrees : ∀ request journal less, Asks ⟨program, trace, function⟩ start request →
      program.unbegun { stack := function :: stack } ≤ less →
        AgreeInKind (trace request.function request.session)
          (program.traceApart less request.function (.bare (function :: stack) journal))) :
    Mirrors RecordedFunction.Alike (Tracing.record ⟨program, trace, function⟩ start)
      (program.traceApart depth function (.bare stack journal)) := by
  have ⟨less, deeper, below⟩ := exists_depth known absent below
  have begins := @begins_bare function stack journal absent
  let callees (callee : ShaderFunction) := Tracing.apart (program.traceApart less callee)
  let around : Surroundings := ⟨program, trace, function⟩
  have mirrors : Mirrors RecordedFunction.Alike (Tracing.record around start)
      (Tracing.record (around.asking callees) (entering function (.bare stack journal))) := by
    apply record_mirrors keeps strict own distinct List.nodup_nil rfl
    intro request asks session begun
    apply AgreeInKind.echoes
    rw [begun]
    exact agrees request session.journal less asks below
  rw [deeper]
  exact mirrors.once_right begins

/-! ## Recordings that can be made again -/

/-- A finished recording can be made again with its function alone, while none of the finished
functions is being recorded. -/
structure Replays (program : Program) (context : TraceContext) (recorded : RecordedFunction) :
    Prop where
  known : program.find? recorded.id = some recorded.function
  again : ∀ stack journal depth, (∀ function ∈ stack, function.id ∉ context.order) →
    program.unbegun { stack := stack } ≤ depth → ∃ answer final,
      program.traceApart depth recorded.function (.bare stack journal) = .ok answer final ∧
        recorded.Alike (context.Matches final.context) answer

theorem Replays.mono (replays : program.Replays before recorded)
    (finished : before.finished <+: after.finished)
    (keys : before.constantKeys.values <+: after.constantKeys.values) :
    program.Replays after recorded where
  known := replays.known
  again stack journal depth apart below := by
    have earlier : ∀ function ∈ stack, function.id ∉ before.order :=
      fun function begun member => apart function begun ((finished.map _).subset member)
    have ⟨answer, final, ran, alike⟩ := replays.again stack journal depth earlier below
    refine ⟨answer, final, ran, alike.mono fun _ _ matched => ?_⟩
    exact matched.mono keys (List.prefix_refl _)

/-- A successful trace of a function leaves a finished recording of it. -/
theorem exists_finished_of_traceWithin {start finish : Session}
    (ran : program.traceWithin depth function start = .ok recorded finish) :
    ∃ kept ∈ finish.context.finished, kept.id = function.id := by
  cases depth with
  | zero =>
      rcases once_ran_ok ran with ⟨found, rfl⟩ | ⟨_, _, impossible, _⟩
      · exact ⟨recorded, TraceContext.find?_mem found⟩
      · cases impossible
  | succ depth =>
      rcases once_ran_ok ran with ⟨found, rfl⟩ | ⟨_, state, worked, same⟩
      · exact ⟨recorded, TraceContext.find?_mem found⟩
      · refine ⟨recorded, ?_, congrArg ShaderFunction.id (function_of_record worked)⟩
        rw [same]
        exact List.mem_append_right _ (List.mem_singleton.mpr rfl)

theorem replays_kept {start finish : Session} (strict : function.swallows = false)
    (own : function.adopts = false) (known : program.find? function.id = some function)
    (distinct : start.context.constantKeys.values.Nodup)
    (ran : Tracing.record ⟨program, program.traceWithin depth, function⟩ start =
      .ok recorded finish)
    (replays : ∀ kept ∈ finish.context.finished, program.Replays finish.context kept)
    (unfinished : function.id ∉ finish.context.order) :
    program.Replays (finish.context.left.kept recorded) recorded := by
  have owner := function_of_record ran
  have id : recorded.id = function.id := congrArg ShaderFunction.id owner
  refine ⟨by rw [id, owner]; exact known, ?_⟩
  intro stack journal bound apart below
  have order : (finish.context.left.kept recorded).order = finish.context.order ++ [function.id] :=
    id ▸ TraceContext.mem_order_kept
  rw [order] at apart
  have absent : ∀ other ∈ stack, other.id ≠ function.id := by
    intro other begun same
    exact apart other begun (List.mem_append_right _ (List.mem_singleton.mpr same))
  have mirrors : Mirrors RecordedFunction.Alike
      (Tracing.record ⟨program, program.traceWithin depth, function⟩ start)
      (program.traceApart bound function (.bare stack journal)) := by
    apply record_mirrors_apart (traceWithin_passes (TraceContext.keepsKeys_passage program) depth)
      known strict own distinct absent below
    -- the recording has succeeded, so every function that it asked for is finished by now
    intro request journal less asks below
    have ⟨_, answer, after, answered, continues⟩ :=
      asks.answered (program.traceWithin_proceeds depth) strict ran
    have ⟨kept, member, same⟩ := exists_finished_of_traceWithin answered
    have again := replays kept (continues.finished.subset member)
    have same : kept.function = request.function := by
      have known := again.known
      rw [same, asks.known] at known
      exact (Option.some.inj known).symm
    have apart : ∀ other ∈ function :: stack, other.id ∉ finish.context.order := by
      rw [List.forall_mem_cons]
      refine ⟨unfinished, fun other begun finished => ?_⟩
      exact apart other begun (List.mem_append_left _ finished)
    have ⟨_, _, ranAgain, _⟩ := again.again (function :: stack) journal less apart below
    rw [same] at ranAgain
    rw [ranAgain]
    have answered : program.traceWithin depth request.function request.session =
        .ok answer after := answered
    rw [answered]
    exact .ok trivial
  rw [owner]
  rw [ran] at mirrors
  cases again : program.traceApart bound function (.bare stack journal) with
  | ok answer final =>
      rw [again] at mirrors
      cases mirrors with
      | ok alike => exact ⟨answer, final, rfl, alike⟩
  | error error final =>
      rw [again] at mirrors
      cases mirrors

/-! ## Tracing keeps recordings that can be made again -/

/-- A later context of the same work, where all finished recordings can be made again if they
could be before. -/
structure Reproduces (program : Program) (before after : TraceContext) : Prop where
  proceeds : before.Proceeds after
  keeps : before.KeepsKeys after
  replays : before.constantKeys.values.Nodup →
    (∀ recorded ∈ before.finished, program.Replays before recorded) →
      ∀ recorded ∈ after.finished, program.Replays after recorded

section

variable (strict : ∀ function ∈ program.functions, function.swallows = false)
  (own : ∀ function ∈ program.functions, function.adopts = false)

include strict own

/-- Where no body swallows failures or takes nodes of others, tracing keeps recordings that can
be made again. -/
theorem reproduces_passage :
    TraceContext.Passage program (fun function => program.find? function.id = some function)
      program.Reproduces where
  known _ known := known
  refl context := ⟨.refl context, .refl context, fun _ replays => replays⟩
  trans first second := by
    refine ⟨first.proceeds.trans second.proceeds, ?_, ?_⟩
    · exact (TraceContext.keepsKeys_passage program).trans first.keeps second.keeps
    · intro distinct replays
      exact second.replays (first.keeps.distinct distinct) (first.replays distinct replays)
  numbered {context next _ _ _ _} constructible interned := by
    have keeps := (TraceContext.keepsKeys_passage program).numbered constructible interned
    have proceeds := TraceContext.proceeds_internConstant interned
    refine ⟨proceeds, keeps, fun _ replays recorded member => ?_⟩
    rw [TraceContext.finished_internConstant interned] at member
    exact (replays recorded member).mono proceeds.continues.finished keeps.keys
  left begins inside := by
    have keeps := (TraceContext.keepsKeys_passage program).left begins inside.keeps
    refine ⟨inside.proceeds.left, keeps, fun distinct replays recorded member => ?_⟩
    have entered := inside.replays distinct fun recorded member =>
      (replays recorded member).mono (List.prefix_refl _) (List.prefix_refl _)
    exact (entered recorded member).mono (List.prefix_refl _) (List.prefix_refl _)
  kept {before function depth start finish recorded} known begins entered ran inside := by
    have proceeds := (TraceContext.proceeds_passage program).kept trivial begins entered ran
      inside.proceeds
    have keeps := (TraceContext.keepsKeys_passage program).kept trivial begins entered ran
      inside.keeps
    refine ⟨proceeds, keeps, fun distinct replays kept member => ?_⟩
    have earlier := inside.replays distinct fun recorded member =>
      (replays recorded member).mono (List.prefix_refl _) (List.prefix_refl _)
    rcases List.mem_append.mp member with old | last
    · exact (earlier kept old).mono (List.prefix_append _ _) (List.prefix_refl _)
    · cases List.mem_singleton.mp last
      have inProgram := List.mem_of_find?_eq_some known
      have unfinished : function.id ∉ finish.context.order := by
        rw [TraceContext.mem_order_iff,
          inside.proceeds.absent List.mem_cons_self begins.absent]
        nofun
      have nodup : start.context.constantKeys.values.Nodup := entered ▸ distinct
      exact replays_kept (strict function inProgram) (own function inProgram) known nodup ran
        earlier unfinished

/-- Tracing in a context where recordings can be made again ends as tracing apart does. -/
theorem trace_mirrors_apart (request : Request)
    (known : program.find? request.function.id = some request.function)
    (ordered : request.session.context.Ordered)
    (distinct : request.session.context.constantKeys.values.Nodup)
    (replays : ∀ recorded ∈ request.session.context.finished,
      program.Replays request.session.context recorded)
    (journal : Journal) (depth : Nat)
    (below : program.unbegun { stack := request.session.context.stack } ≤ depth) :
    Mirrors RecordedFunction.Alike (program.trace request.function request.session)
      (program.traceApart depth request.function
        (.bare request.session.context.stack journal)) := by
  -- by induction along the requests: each is made with one more function being recorded
  induction request using program.leads_wellFounded.induction generalizing journal depth with
  | _ request induction =>
      rw [trace_eq]
      rcases request.session.context.begins_cases request.function with
        ⟨recorded, found⟩ | ⟨absent, linked⟩ | begins
      · rw [once_of_found found]
        have ⟨member, id⟩ := TraceContext.find?_mem found
        have again := replays recorded member
        have same : recorded.function = request.function := by
          have knownToo := again.known
          rw [id, known] at knownToo
          exact (Option.some.inj knownToo).symm
        have ⟨answer, final, ran, alike⟩ := again.again _ journal depth ordered.unfinished below
        rw [← same, ran]
        exact .ok alike
      · -- a recursive call is seen from the stack alone
        have ⟨body, same⟩ := program.exists_traceApart depth request.function
        have linkedToo : (Session.bare request.session.context.stack journal).context.chainFrom
            request.function.id ≠ [] := linked
        rw [once_of_linked absent linked, same, once_of_linked rfl linkedToo]
        exact .error
      · have inProgram := List.mem_of_find?_eq_some known
        have nodup : (entering request.function request.session).context.constantKeys.values.Nodup :=
          distinct
        apply Mirrors.once_left begins
        apply record_mirrors_apart (trace_passes (TraceContext.keepsKeys_passage program))
          known (strict _ inProgram) (own _ inProgram) nodup
          (TraceContext.notMem_stack_of_chainFrom begins.unlinked) below
        intro inner journal less asks below
        have leads : program.Leads request inner := ⟨begins, asks⟩
        have reproduces := asks.within (reproduces_passage strict own).toSteps
          (trace_passes (reproduces_passage strict own))
        rw [← leads.stack] at below ⊢
        apply Mirrors.agreeInKind
        apply induction inner leads leads.known (leads.ordered ordered)
          (reproduces.keeps.distinct distinct) _ journal less below
        apply reproduces.replays distinct
        intro recorded member
        exact (replays recorded member).mono (List.prefix_refl _) (List.prefix_refl _)

end

end Program

end ShaderKit
