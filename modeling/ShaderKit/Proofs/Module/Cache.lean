import ShaderKit.Module.Cache
import ShaderKit.Proofs.Memo
import ShaderKit.Proofs.Recording.Bodies

/-!
# Runs of module caches

A body may behave otherwise in each run: it may take what earlier runs have published, and keep a
state of its own besides. So every call comes with the bodies as they behave in it. A module cache
cannot be told from resolving each module anew, where the bodies that take part do neither, except
by the number of modules that it holds and by which of its answers are one object. Otherwise its
answers are as old as the first of the same requests.
-/

namespace ShaderKit

def ShaderFunction.behaving (bodies : FunctionId → Implementation) (function : ShaderFunction) :
    ShaderFunction :=
  { function with implementation := bodies function.id }

/-! ## Resolving overlooks the journal -/

namespace Program

variable {program : Program} {roots : List ShaderFunction}

theorem traceAll_overlooks (plain : ∀ root ∈ roots, program.Plain root) :
    Overlooks Session.UpToJournal (program.traceAll roots) := by
  induction roots with
  | nil => exact .pure ()
  | cons root rest induction =>
      have ⟨first, later⟩ := List.forall_mem_cons.mp plain
      apply Overlooks.bind (traceWithin_overlooks first _).discard
      intro _ _ _ _
      exact induction later

abbrev AnyJournals (_ _ : Journal) : Prop := True

theorem resolve_overlooks (plain : ∀ root ∈ roots, program.Plain root) (table : BindingTable)
    (config : ResolveConfig) : Overlooks AnyJournals (program.resolve roots table config) := by
  have lifted {α : Type} (answer : Except ResolveError α) :
      Overlooks AnyJournals (Journaled.lift answer) := by
    cases answer with
    | ok result => exact .pure result
    | error error => exact .throw _
  have logged (level : MessageLevel) (text : String) :
      Overlooks AnyJournals (Journaled.log level text) := .modify fun _ _ _ => trivial
  have traced : Overlooks AnyJournals (program.traceAll roots).alone := by
    intro first second _
    have ends := traceAll_overlooks plain { journal := first } { journal := second } ⟨second, rfl⟩
    unfold Tracing.alone
    generalize program.traceAll roots { journal := first } = result at ends ⊢
    generalize program.traceAll roots { journal := second } = answer at ends ⊢
    cases ends with
    | ok later =>
        rcases later with ⟨_, rfl⟩
        exact .ok trivial
    | error => exact .error trivial
  apply Overlooks.bind (lifted _)
  intro _ _ _ _
  apply Overlooks.bind traced
  rintro ⟨_, context⟩ _ _ _
  apply Overlooks.bind (lifted _)
  intro _ _ _ _
  apply Overlooks.bind (logged _ _)
  intro _ _ _ _
  split
  next =>
    apply Overlooks.bind (logged _ _)
    intro _ _ _ _
    exact .pure _
  next => exact .pure _

theorem resolve_of_agrees {other : Program}
    (size : other.functions.length = program.functions.length)
    (agrees : ∀ root ∈ roots, program.AgreesFrom other root) (table : BindingTable)
    (config : ResolveConfig) :
    other.resolve roots table config = program.resolve roots table config := by
  have traced : other.traceAll roots = program.traceAll roots := by
    unfold traceAll
    induction roots with
    | nil => rw [List.forM, List.forM]
    | cons root rest induction =>
        have ⟨first, later⟩ := List.forall_mem_cons.mp agrees
        have same : other.trace root = program.trace root := by
          unfold Program.trace
          rw [size]
          exact traceWithin_of_agrees first _
        rw [List.forM, List.forM, same, induction later]
  unfold resolve
  rw [traced]

/-! ## Bodies that behave otherwise -/

def behaving (program : Program) (bodies : FunctionId → Implementation) : Program where
  functions := program.functions.map (ShaderFunction.behaving bodies)

theorem find?_behaving (program : Program) (bodies : FunctionId → Implementation)
    (id : FunctionId) : (program.behaving bodies).find? id =
      (program.find? id).map (ShaderFunction.behaving bodies) :=
  List.find?_map

end Program

/-! ## Requests -/

/-- What a module is asked for by: functions of a program, a binding table and a configuration. -/
structure ModuleRequest (program : Program) where
  roots : List ShaderFunction
  known : ∀ root ∈ roots, program.find? root.id = some root
  table : BindingTable
  config : ResolveConfig

namespace ModuleRequest

variable {program : Program}

def key (request : ModuleRequest program) : ModuleKey :=
  .of request.roots request.table request.config

theorem roots_eq_of_ids {first second : List ShaderFunction}
    (known : ∀ root ∈ first, program.find? root.id = some root)
    (knownToo : ∀ root ∈ second, program.find? root.id = some root)
    (same : first.map ShaderFunction.id = second.map ShaderFunction.id) : first = second := by
  induction first generalizing second with
  | nil => exact (List.map_eq_nil_iff.mp same.symm).symm
  | cons root rest induction =>
      cases second with
      | nil => cases same
      | cons other others =>
          have ⟨head, tail⟩ := List.cons.inj same
          have ⟨found, rest⟩ := List.forall_mem_cons.mp known
          have ⟨foundToo, restToo⟩ := List.forall_mem_cons.mp knownToo
          rw [head, foundToo] at found
          rw [Option.some.inj found, induction rest restToo tail]

theorem key_eq_iff {first second : ModuleRequest program} :
    first.key = second.key ↔ first = second := by
  constructor
  · intro same
    rcases first with ⟨roots, known, table, config⟩
    rcases second with ⟨others, knownToo, tableToo, configToo⟩
    have ⟨ids, tables, configs⟩ := ModuleKey.mk.inj same
    cases tables
    cases configs
    cases roots_eq_of_ids known knownToo ids
    rfl
  · exact congrArg key

end ModuleRequest

/-! ## Calls -/

/-- A request with the bodies as they behave in this call, and the journal as other work has left
it. -/
structure ModuleCall (program : Program) where
  request : ModuleRequest program
  bodies : FunctionId → Implementation
  journal : Journal

namespace ModuleCall

variable {program : Program} (call : ModuleCall program)

def behaving : Program :=
  program.behaving call.bodies

def roots : List ShaderFunction :=
  call.request.roots.map (ShaderFunction.behaving call.bodies)

def resolve (journal : Journal) : Except ShaderError ResolvedModule :=
  match call.behaving.resolve call.roots call.request.table call.request.config journal with
  | .error error _ => .error error
  | .ok resolved _ => .ok resolved

/-- The bodies that take part take no published nodes. -/
def Plain : Prop :=
  ∀ root ∈ call.roots, call.behaving.Plain root

/-- The bodies that take part behave in another call as in this one. -/
def BehavesIn (other : ModuleCall program) : Prop :=
  ∀ root ∈ call.roots, ∀ function,
    Relation.ReflTransGen call.behaving.Mentions root function →
      other.bodies function.id = call.bodies function.id

variable {call}

theorem key_roots (call : ModuleCall program) : ModuleKey.of call.roots call.request.table call.request.config =
    call.request.key := by
  have ids : call.roots.map ShaderFunction.id = call.request.roots.map ShaderFunction.id :=
    List.map_map
  rw [ModuleKey.of, ids]
  rfl

theorem resolve_eq_of_plain (plain : call.Plain) (first second : Journal) :
    call.resolve first = call.resolve second := by
  have ends := Program.resolve_overlooks plain call.request.table call.request.config first second
    trivial
  unfold resolve
  generalize call.behaving.resolve _ _ _ first = result at ends ⊢
  generalize call.behaving.resolve _ _ _ second = answer at ends ⊢
  cases ends <;> rfl

theorem BehavesIn.roots_eq {other : ModuleCall program} (behaves : call.BehavesIn other)
    (same : other.request = call.request) : other.roots = call.roots := by
  unfold roots
  rw [same]
  apply List.map_congr_left
  intro root member
  have bodies := behaves _ (List.mem_map_of_mem member) _ .refl
  exact congrArg (fun implementation => { root with implementation }) bodies

theorem BehavesIn.agreesFrom {other : ModuleCall program} (behaves : call.BehavesIn other)
    {root : ShaderFunction} (member : root ∈ call.roots) :
    call.behaving.AgreesFrom other.behaving root := by
  intro caller reached id mentioned
  have found := program.find?_behaving call.bodies id
  rw [behaving, behaving, found, program.find?_behaving other.bodies id]
  cases known : program.find? id with
  | none => rfl
  | some function =>
      rw [known] at found
      have mentions : call.behaving.Mentions caller (function.behaving call.bodies) :=
        ⟨id, mentioned, found⟩
      have bodies := behaves root member _ (reached.tail mentions)
      exact congrArg (fun implementation => some { function with implementation }) bodies

/-- Where the bodies that take part behave in the same way, resolving does. -/
theorem BehavesIn.resolve_eq {other : ModuleCall program} (behaves : call.BehavesIn other)
    (same : other.request = call.request) (journal : Journal) :
    other.resolve journal = call.resolve journal := by
  have size : other.behaving.functions.length = call.behaving.functions.length := by
    simp [behaving, Program.behaving]
  unfold resolve
  rw [behaves.roots_eq same, same,
    Program.resolve_of_agrees size (fun _ => behaves.agreesFrom) call.request.table]

end ModuleCall

namespace ModuleCache

variable {program : Program}

def ask (cache : ModuleCache) (call : ModuleCall program) :
    ModuleCache × Except ShaderError (Handle ResolvedModule) :=
  let (next, _, answer) := ModuleCache.resolve cache call.behaving call.roots
    call.request.table call.request.config call.journal
  (next, answer)

def run (calls : List (MemoRequest (ModuleCall program))) :
    MemoRun ModuleKey (ModuleCall program) ShaderError ResolvedModule :=
  .ofRequests ask calls

theorem ask_step (cache : ModuleCache) (call : ModuleCall program) :
    Memo.Step (fun call => call.request.key)
      (fun call answer => call.resolve call.journal = answer) cache
      (.asked call (ask cache call).2) (ask cache call).1 := by
  unfold ask ModuleCache.resolve
  rw [call.key_roots]
  dsimp only
  split
  next handle found => exact .recalled found
  next new =>
    split
    next error journal ran =>
      exact .failed new (by rw [ModuleCall.resolve, ran])
    next resolved journal ran =>
      exact .stored new (by rw [ModuleCall.resolve, ran])

variable (calls : List (MemoRequest (ModuleCall program)))

theorem run_reached : Memo.Reached (fun call => call.request.key)
    (fun call answer => call.resolve call.journal = answer)
    (run calls).log (run calls).memo :=
  MemoRun.ofRequests_reached ask_step calls

/-- Where no published nodes are taken, and the bodies behave in every call of the same request as
in this one, the answer is what resolving anew gives in any journal. -/
theorem resolve_eq_of_asked {call : ModuleCall program}
    {answer : Except ShaderError (Handle ResolvedModule)}
    (member : .asked call answer ∈ (run calls).log) (plain : call.Plain)
    (steady : ∀ other result, .asked other result ∈ (run calls).log →
      other.request = call.request → call.BehavesIn other)
    (journal : Journal) : answer.map Handle.value = call.resolve journal := by
  have reached := run_reached calls
  cases answer with
  | error error =>
      have computed := reached.computes_of_error member
      exact computed.symm.trans (ModuleCall.resolve_eq_of_plain plain _ _)
  | ok handle =>
      have ⟨later, earlier, split⟩ := List.append_of_mem member
      have ⟨first, answered, key, computed⟩ := reached.exists_computed split
      have same := ModuleRequest.key_eq_iff.mp key
      have logged : .asked first (.ok handle) ∈ (run calls).log :=
        split ▸ List.mem_append_right later (MemoEvent.mem_of_mem_answered answered)
      rw [(steady first _ logged same).resolve_eq same] at computed
      exact computed.symm.trans (ModuleCall.resolve_eq_of_plain plain _ _)

/-- Every run of a module cache. Where the bodies that take part keep no state, so take no
published nodes and behave in every call of the same request alike, each answer is the module, or
the failure, that resolving anew gives. In any case a module is what resolving gave in a call of
the same request since the last clear, and a failure what it gives in this call. Two answers are
one shared object exactly if their requests are the same and no clear lies between them; the
modules of successful calls since the last clear are stored, and nothing else; and the cache is as
large as the number of their different keys. -/
theorem run_resolvesAnew :
    (run calls).log.map MemoEvent.request = calls.reverse ∧
    (∀ call answer, .asked call answer ∈ (run calls).log → call.Plain →
      (∀ other result, .asked other result ∈ (run calls).log → other.request = call.request →
        call.BehavesIn other) →
      ∀ journal, answer.map Handle.value = call.resolve journal) ∧
    (∀ later call handle earlier,
      (run calls).log = later ++ .asked call (.ok handle) :: earlier →
        ∃ first, (first, handle) ∈ MemoEvent.answered (.asked call (.ok handle) :: earlier) ∧
          first.request = call.request ∧ first.resolve first.journal = .ok handle.value) ∧
    (∀ call error, .asked call (.error error) ∈ (run calls).log →
      call.resolve call.journal = .error error) ∧
    (∀ later second two between first one earlier,
      (run calls).log =
          later ++ .asked second (.ok two) :: (between ++ .asked first (.ok one) :: earlier) →
        (two.ticket = one.ticket ↔ second.request = first.request ∧ .cleared ∉ between)) ∧
    (∀ key handle, (run calls).memo.find? key = some handle ↔
      ∃ call, (call, handle) ∈ MemoEvent.answered (run calls).log ∧ call.request.key = key) ∧
    (run calls).memo.size = ((MemoEvent.answered (run calls).log).map fun answer =>
      answer.1.request.key).dedup.length := by
  have reached := run_reached calls
  have records := reached.records
  refine ⟨MemoRun.map_request_log _ calls, fun _ _ => resolve_eq_of_asked calls, ?_,
    fun _ _ => reached.computes_of_error, ?_, ?_, reached.size_eq⟩
  · intro later call handle earlier split
    have ⟨first, member, same, computed⟩ := reached.exists_computed split
    exact ⟨first, member, ModuleRequest.key_eq_iff.mp same, computed⟩
  · intro later second two between first one earlier split
    exact (reached.shared_iff split).trans (and_congr_left' ModuleRequest.key_eq_iff)
  · intro key handle
    constructor
    · intro found
      have ⟨call, member, same, _⟩ := records.computed key handle found
      exact ⟨call, member, same⟩
    · rintro ⟨call, member, rfl⟩
      exact records.known call handle member

end ModuleCache

/-! ## Two functions -/

def exampleRecalling : Implementation :=
  .script (.ofList [
    .adopt "seen" "old" (.ofList [.declareZero "extra" (.ok .f32)]),
    .literal "one" (.f32 0x3f800000), .publish "seen" "one"]) none

def exampleCounting : Implementation :=
  .script (.ofList [.declareZero "extra" (.ok .f32)]) none

def exampleResting : Implementation :=
  .script .done none

def exampleFunction (number : Nat) (name : String) (body : Implementation) : ShaderFunction where
  id := ⟨number⟩
  signature := ⟨name, [], none, none⟩
  implementation := body

def exampleBodies : Program where
  functions := [exampleFunction 0 "recalling" exampleRecalling,
    exampleFunction 1 "steady" exampleResting]

def exampleRecallingRequest : ModuleRequest exampleBodies where
  roots := [exampleFunction 0 "recalling" exampleRecalling]
  known _ member := by
    cases List.mem_singleton.mp member
    rfl
  table := {}
  config := {}

def exampleSteadyRequest : ModuleRequest exampleBodies where
  roots := [exampleFunction 1 "steady" exampleResting]
  known _ member := by
    cases List.mem_singleton.mp member
    rfl
  table := {}
  config := {}

def exampleRecallingJournal : Journal :=
  match exampleBodies.resolve exampleRecallingRequest.roots {} {} {} with
  | .error _ journal | .ok _ journal => journal

def exampleSteadyCall (journal : Journal) : ModuleCall exampleBodies :=
  ⟨exampleSteadyRequest, fun _ => exampleResting, journal⟩

theorem exampleSteadyCall_alone {journal : Journal} {root function : ShaderFunction}
    (member : root ∈ (exampleSteadyCall journal).roots)
    (reached : Relation.ReflTransGen (exampleSteadyCall journal).behaving.Mentions root function) :
    function = exampleFunction 1 "steady" exampleResting := by
  cases List.mem_singleton.mp member
  cases Relation.ReflTransGen.cases_head reached with
  | inl same => exact same.symm
  | inr mentions =>
      rcases mentions with ⟨_, ⟨id, mentioned, _⟩, _⟩
      cases mentioned

def exampleCountingCall : ModuleCall exampleBodies :=
  ⟨exampleSteadyRequest, fun _ => exampleCounting, {}⟩

def exampleRecallingCall (journal : Journal) : ModuleCall exampleBodies :=
  ⟨exampleRecallingRequest, fun _ => exampleRecalling, journal⟩

namespace ModuleCache

/-- The second answers are the remembered modules, but the modules that are made anew have a
variable, because of a node that was published before and because of a run that was counted. -/
theorem run_exampleRecalling_stale :
    ((∃ handle, .asked (exampleRecallingCall exampleRecallingJournal) (.ok handle) ∈
        (run [.ask (exampleRecallingCall {}),
          .ask (exampleRecallingCall exampleRecallingJournal)]).log ∧
        handle.value.code = "fn recalling() \x7b\n\x7d\n") ∧
      ((exampleRecallingCall exampleRecallingJournal).resolve exampleRecallingJournal).map
        ResolvedModule.code = .ok "fn recalling() \x7b\n  var v0: f32;\n\x7d\n") ∧
    (∃ handle, .asked exampleCountingCall (.ok handle) ∈
        (run [.ask (exampleSteadyCall {}), .ask exampleCountingCall]).log ∧
        handle.value.code = "fn steady() \x7b\n\x7d\n") ∧
      (exampleCountingCall.resolve {}).map ResolvedModule.code =
        .ok "fn steady() \x7b\n  var v0: f32;\n\x7d\n" := by
  refine ⟨⟨⟨_, List.mem_cons_self, ?_⟩, ?_⟩, ⟨_, List.mem_cons_self, ?_⟩, ?_⟩
  all_goals decide +kernel

def exampleSteadyCalls : List (MemoRequest (ModuleCall exampleBodies)) :=
  [.ask (exampleSteadyCall {}), .clear, .ask (exampleSteadyCall exampleRecallingJournal)]

theorem run_resolvesAnew_exampleSteady :
    ∃ first second, (run exampleSteadyCalls).log =
        [.asked (exampleSteadyCall exampleRecallingJournal) (.ok second), .cleared,
          .asked (exampleSteadyCall {}) (.ok first)] ∧
      .ok second.value = (exampleSteadyCall {}).resolve {} ∧ second.ticket ≠ first.ticket ∧
      (run exampleSteadyCalls).memo.size = 1 := by
  have ⟨first, second, logged⟩ : ∃ first second, (run exampleSteadyCalls).log =
      [.asked (exampleSteadyCall exampleRecallingJournal) (.ok second), .cleared,
        .asked (exampleSteadyCall {}) (.ok first)] := ⟨_, _, rfl⟩
  have plain : (exampleSteadyCall exampleRecallingJournal).Plain := by
    intro root member function reached
    cases exampleSteadyCall_alone member reached
    rfl
  have steady : ∀ other result, .asked other result ∈ (run exampleSteadyCalls).log →
      (exampleSteadyCall exampleRecallingJournal).BehavesIn other := by
    intro other result member root inside function reached
    rw [logged] at member
    simp only [List.mem_cons, MemoEvent.asked.injEq, reduceCtorEq, false_or, List.not_mem_nil,
      or_false] at member
    rcases member with ⟨rfl, _⟩ | ⟨rfl, _⟩ <;> rfl
  rcases run_resolvesAnew exampleSteadyCalls with ⟨_, anew, _, _, shared, _, size⟩
  refine ⟨first, second, logged, ?_, ?_, ?_⟩
  · exact anew (exampleSteadyCall exampleRecallingJournal) (.ok second)
      (logged ▸ List.mem_cons_self) plain (fun other result member _ => steady other result member)
      {}
  · exact fun same => ((shared [] _ _ [.cleared] _ _ [] logged).mp same).2 List.mem_cons_self
  · rw [size, logged]
    rfl

end ModuleCache

end ShaderKit
