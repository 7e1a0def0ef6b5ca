import ShaderKit.Proofs.Recording.Asking

/-!
# Calls of entry points

A script cannot call an entry point: the recorder refuses the call. A raw text may name any
function, and what it names is listed among its callees without a look at the stage. So an
entry point is a callee exactly of the raw functions that name one.
-/

namespace ShaderKit

variable {program : Program}

namespace Program

def IsEntryPoint (program : Program) (id : FunctionId) : Prop :=
  ∃ function, program.find? id = some function ∧ function.signature.stage.isSome = true

def NamesEntryPoint (program : Program) (function : ShaderFunction) : Prop :=
  ∃ text references, function.implementation = .raw text references ∧
    ∃ reference ∈ references, program.IsEntryPoint reference.2

/-- An entry point is among the callees of a recording exactly if its raw text names one. -/
def CallsAsNamed (program : Program) (recorded : RecordedFunction) : Prop :=
  (∃ callee ∈ recorded.callees, program.IsEntryPoint callee) ↔
    program.NamesEntryPoint recorded.function

end Program

/-- Recording a script adds no entry point to the callees. -/
theorem Recorder.Becomes.not_isEntryPoint {around : Surroundings} {before after : Recorder}
    (becomes : before.Becomes around after)
    (callable : ∀ callee ∈ before.callees, ¬ around.program.IsEntryPoint callee) :
    ∀ callee ∈ after.callees, ¬ around.program.IsEntryPoint callee := by
  induction becomes with
  | refl | localVariable | register | journal | untraced | constant | helper | binding =>
      exact callable
  | trans _ _ first second => exact second (first callable)
  | expression =>
      rw [callees_withExpression]
      exact callable
  | statement =>
      rw [callees_addStatement]
      exact callable
  | declared =>
      rw [callees_withVariable]
      exact callable
  | branch _ _ _ accept reject =>
      rw [callees_addStatement]
      exact reject (accept callable)
  | loop _ body =>
      rw [callees_addStatement]
      exact body callable
  | range _ _ _ body =>
      rw [callees_counting] at body
      rw [callees_addStatement]
      exact body callable
  | dropped _ _ inside => exact inside callable
  | droppedRange _ inside =>
      rw [callees_counting] at inside
      exact inside callable
  | @traced recorder callee recorded session known stageless ran =>
      intro other member
      rcases mem_addNew.mp member with old | rfl
      · exact callable other old
      · -- the recorder has checked that the callee has no stage
        rintro ⟨function, found, staged⟩
        cases known.symm.trans found
        rw [stageless] at staged
        cases staged

theorem Program.Makes.callsAsNamed {function : ShaderFunction} {recorded : RecordedFunction}
    (makes : program.Makes function recorded) : program.CallsAsNamed recorded := by
  have ⟨depth, start, finish, ran⟩ := makes
  have own := Tracing.function_of_record ran
  unfold CallsAsNamed NamesEntryPoint
  rw [own]
  cases implemented : function.implementation with
  | script body result =>
      rw [Tracing.record_of_script implemented] at ran
      have ⟨final, worked, _⟩ := Tracing.recording_ran_ok.mp ran
      have follows := Tracing.scriptWork_follows
        ⟨program, program.traceWithin depth, function⟩ body result { session := start }
      have callable := (follows.becomes_of_ok worked).not_isEntryPoint nofun
      rw [Tracing.scriptWork_recorded worked]
      constructor
      · rintro ⟨callee, listed, entry⟩
        exact (callable callee listed entry).elim
      · nofun
  | raw text references =>
      rw [Tracing.record_of_raw implemented] at ran
      have ⟨callees, _, referred, ended⟩ := bind_ran_ok.mp ran
      cases ended
      constructor
      · rintro ⟨callee, listed, entry⟩
        rcases (Tracing.mem_recordReferences referred).mp listed with known | ⟨reference, member, rfl⟩
        · cases known
        · exact ⟨text, references, rfl, reference, member, entry⟩
      · rintro ⟨_, _, ⟨⟩, reference, member, entry⟩
        exact ⟨reference.2, (Tracing.mem_recordReferences referred).mpr
          (.inr ⟨reference, member, rfl⟩), entry⟩

/-- After any traces, each of which may fail, an entry point is among the callees of a finished
recording exactly if that is a raw text that names one. So no script calls an entry point, and
where no raw text names one, nothing does. -/
theorem Program.attemptAll_callsAsNamed (program : Program) (functions : List ShaderFunction)
    (journal : Journal) :
    let context := (program.attemptAll functions { journal := journal }).context
    (∀ recorded ∈ context.finished, program.CallsAsNamed recorded) ∧
      ((∀ function ∈ context.finished.map RecordedFunction.function,
          ¬ program.NamesEntryPoint function) ↔
        ∀ recorded ∈ context.finished, ∀ callee ∈ recorded.callees,
          ¬ program.IsEntryPoint callee) := by
  intro context
  have asNamed : ∀ recorded ∈ context.finished, program.CallsAsNamed recorded :=
    fun recorded member => (makes_of_attemptAll member).callsAsNamed
  refine ⟨asNamed, ?_⟩
  constructor
  · intro unnamed recorded member callee listed entry
    exact unnamed recorded.function (List.mem_map_of_mem member)
      ((asNamed recorded member).mp ⟨callee, listed, entry⟩)
  · intro uncalled function member named
    have ⟨recorded, inside, same⟩ := List.mem_map.mp member
    subst same
    have ⟨callee, listed, entry⟩ := (asNamed recorded inside).mpr named
    exact uncalled recorded inside callee listed entry

def exampleMain : ShaderFunction where
  id := ⟨0⟩
  signature := ⟨"main", [], none, some (.compute 1 1 1)⟩
  implementation := .script .done none

def exampleAgain : ShaderFunction where
  id := ⟨1⟩
  signature := ⟨"again", [], none, none⟩
  implementation := .raw "\x7b main(); \x7d" [("main", ⟨0⟩)]

/-- Tracing the text succeeds, although the entry point is then among its callees. -/
theorem attemptAll_exampleAgain_entryPoint :
    let program : Program := ⟨[exampleMain, exampleAgain]⟩
    ¬ ∀ recorded ∈ (program.attemptAll [exampleAgain] {}).context.finished,
        ∀ callee ∈ recorded.callees, ¬ program.IsEntryPoint callee := by
  intro program uncalled
  have listed : (program.attemptAll [exampleAgain] {}).context.finished.any
      (fun recorded => recorded.callees.contains ⟨0⟩) = true := by decide +kernel
  have ⟨recorded, member, called⟩ := List.any_eq_true.mp listed
  exact uncalled recorded member ⟨0⟩ (List.contains_iff_mem.mp called) ⟨exampleMain, rfl, rfl⟩

end ShaderKit
