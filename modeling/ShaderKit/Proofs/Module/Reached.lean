import ShaderKit.Proofs.Module.Closed
import ShaderKit.Proofs.Recording.Remains

/-!
# What a module reaches

A module declares the functions that its roots call, also through others. It declares more than
that where a body swallows the failure of a call: what was recorded below the call before it
failed stays recorded, and a module takes up all that is recorded.
-/

namespace ShaderKit

namespace Program

variable {program : Program} {roots : List ShaderFunction}

theorem Outermost.succeeds {session finish : Session} {request : Request}
    (outermost : program.Outermost roots session request)
    (traced : program.traceAll roots session = .ok () finish) : program.Succeeds request := by
  induction roots generalizing session with
  | nil => exact outermost.elim
  | cons root rest induction =>
      rcases bind_ran_ok.mp traced with ⟨_, middle, first, later⟩
      rcases discard_ran_ok.mp first with ⟨recorded, first⟩
      rcases outermost with rfl | outermost
      · exact ⟨recorded, middle, first⟩
      · have attempted : program.attempt session root = middle := by
          rw [attempt_eq, Request.finish, Tracing.endOf_of_ok first]
        exact induction (attempted ▸ outermost) later

theorem exists_outermost {root : ShaderFunction} (member : root ∈ roots) (session : Session) :
    ∃ request, program.Outermost roots session request ∧ request.function = root := by
  induction roots generalizing session with
  | nil => cases member
  | cons first rest induction =>
      rcases List.mem_cons.mp member with rfl | later
      · exact ⟨⟨root, session⟩, .inl rfl, rfl⟩
      · rcases induction later (program.attempt session first) with ⟨request, outermost, same⟩
        exact ⟨request, .inr outermost, same⟩

/-- A function is reached from the roots through the callees of recordings. -/
def ReachedFrom (roots : List ShaderFunction) (context : TraceContext) (id : FunctionId) : Prop :=
  ∃ root ∈ roots, Relation.ReflTransGen context.Calls root.id id

/-- The functions of modules. A module declares the functions that are reached from its roots and
those that are reached from strays, which were recorded with success in a recording that failed.
So it declares no function that its roots do not reach exactly if they reach all strays, and where
no body swallows failures there are none. -/
theorem resolve_reached {table : BindingTable} {config : ResolveConfig}
    {journal after : Journal} {resolved : ResolvedModule}
    (resolves : program.resolve roots table config journal = .ok resolved after) :
    let context := (program.attemptAll roots { journal := journal }).context
    let declared (id : FunctionId) := .function id ∈ resolved.declarations.map Prod.fst
    (∀ id, declared id ↔ ReachedFrom roots context id ∨
      ∃ stray, program.StraysIn roots { journal := journal } stray ∧
        Relation.ReflTransGen context.Calls stray.function.id id) ∧
    ((∀ id, declared id → ReachedFrom roots context id) ↔
      ∀ stray, program.StraysIn roots { journal := journal } stray →
        ReachedFrom roots context stray.function.id) ∧
    ((∀ function ∈ roots ++ program.functions, function.swallows = false) →
      ∀ stray, ¬ program.StraysIn roots { journal := journal } stray) := by
  intro context declared
  have start : (TraceContext.Ordered {}) := TraceContext.ordered_empty
  have succeeds {request : Request}
      (outermost : program.Outermost roots { journal := journal } request) :
      program.Succeeds request := by
    rcases Program.resolve_eq_ok resolves with ⟨_, traced, ran, _⟩
    exact outermost.succeeds (Tracing.ran_of_alone ran)
  have reached : ∀ id, declared id ↔ ReachedFrom roots context id ∨
      ∃ stray, program.StraysIn roots { journal := journal } stray ∧
        Relation.ReflTransGen context.Calls stray.function.id id := by
    intro id
    have finished := @mem_order_iff_reached program id roots { journal := journal } start rfl
    refine (Program.function_mem_declarations resolves id).trans (finished.trans ?_)
    constructor
    · rintro ⟨request, _, outermost | strays, reached⟩
      · exact .inl ⟨request.function, outermost.mem, reached⟩
      · exact .inr ⟨request, strays, reached⟩
    · rintro (⟨root, member, reached⟩ | ⟨stray, ⟨request, outermost, strays⟩, reached⟩)
      · rcases exists_outermost member { journal := journal } with ⟨request, outermost, rfl⟩
        exact ⟨request, succeeds outermost, .inl outermost, reached⟩
      · exact ⟨stray, strays.succeeds, .inr ⟨request, outermost, strays⟩, reached⟩
  refine ⟨reached, ?_, ?_⟩
  · constructor
    · intro only stray strays
      exact only _ ((reached _).mpr (.inr ⟨stray, strays, .refl⟩))
    · intro all id listed
      rcases (reached id).mp listed with fromRoot | ⟨stray, strays, onward⟩
      · exact fromRoot
      · rcases all stray strays with ⟨root, member, toStray⟩
        exact ⟨root, member, toStray.trans onward⟩
  · rintro strict stray ⟨request, outermost, failed, below, fails, _⟩
    have own := strict request.function (List.mem_append_left _ outermost.mem)
    have others := fun function member => strict function (List.mem_append_right _ member)
    exact fails ((succeeds outermost).of_reached own others below).2

end Program

def exampleIdle : ShaderFunction where
  id := ⟨2⟩
  signature := ⟨"idle", [], none, none⟩
  implementation := .script .done none

def exampleBroken : ShaderFunction where
  id := ⟨1⟩
  signature := ⟨"broken", [], none, none⟩
  implementation := .script (.ofList [.callVoid ⟨2⟩ [], .leaveLoop]) none

def exampleCareless : ShaderFunction where
  id := ⟨0⟩
  signature := ⟨"careless", [], none, none⟩
  implementation := .script (.ofList [.attempt (.ofList [.callVoid ⟨1⟩ []])]) none

def exampleCarelessly : Program where
  functions := [exampleCareless, exampleBroken, exampleIdle]

theorem resolve_exampleCareless : ∃ resolved after,
    exampleCarelessly.resolve [exampleCareless] {} {} {} = .ok resolved after ∧
      resolved.declarations.map Prod.fst = [.function ⟨2⟩, .function ⟨0⟩] := by
  have succeeds : (match exampleCarelessly.resolve [exampleCareless] {} {} {} with
    | .ok resolved _ => resolved.declarations.map Prod.fst == [.function ⟨2⟩, .function ⟨0⟩]
    | .error _ _ => false) = true := by decide +kernel
  cases resolves : exampleCarelessly.resolve [exampleCareless] {} {} {} with
  | ok resolved after =>
      rw [resolves] at succeeds
      exact ⟨resolved, after, rfl, eq_of_beq succeeds⟩
  | error error after =>
      rw [resolves] at succeeds
      cases succeeds

theorem not_reachedFrom_exampleCareless : ¬ Program.ReachedFrom [exampleCareless]
    (exampleCarelessly.attemptAll [exampleCareless] {}).context ⟨2⟩ := by
  have callsNone : ((exampleCarelessly.attemptAll [exampleCareless] {}).context.find? ⟨0⟩).all
      (fun recorded => recorded.callees.isEmpty) = true := by decide +kernel
  rintro ⟨root, member, reached⟩
  cases List.mem_singleton.mp member
  rcases reached.cases_head with same | ⟨callee, ⟨recorded, found, called⟩, _⟩
  · cases same
  · have found : (exampleCarelessly.attemptAll [exampleCareless] {}).context.find? ⟨0⟩ =
        some recorded := found
    rw [found] at callsNone
    rw [List.isEmpty_iff.mp callsNone] at called
    cases called

theorem resolve_reached_exampleCareless : ∃ resolved after,
    exampleCarelessly.resolve [exampleCareless] {} {} {} = .ok resolved after ∧
      ∃ stray, exampleCarelessly.StraysIn [exampleCareless] {} stray ∧
        ¬ Program.ReachedFrom [exampleCareless]
          (exampleCarelessly.attemptAll [exampleCareless] {}).context stray.function.id := by
  rcases resolve_exampleCareless with ⟨resolved, after, resolves, listed⟩
  refine ⟨resolved, after, resolves, ?_⟩
  by_contra none
  have only := (Program.resolve_reached resolves).2.1.mpr fun stray strays =>
    not_not.mp fun unreached => none ⟨stray, strays, unreached⟩
  exact not_reachedFrom_exampleCareless (only ⟨2⟩ (listed ▸ List.mem_cons_self))

/-- The module declares a function that is not reached from its root. -/
theorem resolve_exampleCareless_unreached : ¬ ∀ (resolved : ResolvedModule) (after : Journal),
    exampleCarelessly.resolve [exampleCareless] {} {} {} = .ok resolved after →
      ∀ id, .function id ∈ resolved.declarations.map Prod.fst →
        Program.ReachedFrom [exampleCareless]
          (exampleCarelessly.attemptAll [exampleCareless] {}).context id := by
  intro only
  rcases resolve_exampleCareless with ⟨resolved, after, resolves, listed⟩
  exact not_reachedFrom_exampleCareless
    (only resolved after resolves ⟨2⟩ (listed ▸ List.mem_cons_self))

end ShaderKit
