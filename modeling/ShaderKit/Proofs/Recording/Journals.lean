import Mathlib.Logic.Relation
import ShaderKit.Proofs.Identities.Involved
import ShaderKit.Proofs.Recording.Linked

/-!
# Recording and the journal

Recording writes into the journal, but only a body that takes published nodes reads it. From
sessions that differ in the journal, any other body is recorded with the same result or the same
failure, also where it swallows failures, and the sessions still differ in the journal only.
-/

namespace ShaderKit

/-! ## Work that overlooks a difference -/

section

variable {ε σ α β : Type} {like : σ → σ → Prop}

/-- How work ends from two states that are alike: with the same result or the same failure, in
states that are alike. -/
inductive EndsAlike (like : σ → σ → Prop) :
    EStateM.Result ε σ α → EStateM.Result ε σ α → Prop where
  | ok {result : α} {finish final : σ} (alike : like finish final) :
      EndsAlike like (.ok result finish) (.ok result final)
  | error {error : ε} {finish final : σ} (alike : like finish final) :
      EndsAlike like (.error error finish) (.error error final)

/-- Work that does not tell states apart that are alike. -/
def Overlooks (like : σ → σ → Prop) (work : EStateM ε σ α) : Prop :=
  ∀ first second, like first second → EndsAlike like (work first) (work second)

namespace Overlooks

variable {work : EStateM ε σ α} {next : α → EStateM ε σ β}

theorem pure (result : α) : Overlooks like (pure result : EStateM ε σ α) :=
  fun _ _ alike => .ok alike

theorem throw (error : ε) : Overlooks like (throw error : EStateM ε σ α) :=
  fun _ _ alike => .error alike

theorem modify {update : σ → σ}
    (kept : ∀ first second, like first second → like (update first) (update second)) :
    Overlooks like (modify update : EStateM ε σ PUnit) :=
  fun first second alike => .ok (kept first second alike)

theorem bind (begun : Overlooks like work)
    (rest : ∀ result start finish, work start = .ok result finish →
      Overlooks like (next result)) :
    Overlooks like (work >>= next) := by
  intro first second alike
  have ends := begun first second alike
  cases ran : work first <;> cases ranToo : work second <;> rw [ran, ranToo] at ends
  case ok.ok =>
    rw [bind_of_ok ran, bind_of_ok ranToo]
    cases ends with
    | ok alike => exact rest _ _ _ ran _ _ alike
  case error.error =>
    rw [bind_of_error ran, bind_of_error ranToo]
    cases ends with
    | error alike => exact .error alike
  all_goals cases ends

theorem discard (overlooks : Overlooks like work) : Overlooks like (discard work) := by
  intro first second alike
  have ends := overlooks first second alike
  cases ran : work first <;> cases ranToo : work second <;> rw [ran, ranToo] at ends
  case ok.ok =>
    rw [discard_ran_ok.mpr ⟨_, ran⟩, discard_ran_ok.mpr ⟨_, ranToo⟩]
    cases ends with
    | ok alike => exact .ok alike
  case error.error =>
    rw [discard_ran_error.mpr ran, discard_ran_error.mpr ranToo]
    cases ends with
    | error alike => exact .error alike
  all_goals cases ends

end Overlooks

end

def Session.UpToJournal (first second : Session) : Prop :=
  ∃ journal, second = ⟨first.context, journal⟩

def Recorder.UpToJournal (first second : Recorder) : Prop :=
  ∃ journal, second = first.inSession ⟨first.session.context, journal⟩

namespace Recorder.UpToJournal

variable {first second : Recorder}

theorem alike (like : first.UpToJournal second) : first.Alike Eq second := by
  rcases like with ⟨journal, rfl⟩
  exact ⟨(Alike.refl first).entries, (Alike.refl first).numbers, rfl⟩

theorem of_alike (alike : first.Alike Eq second)
    (context : second.session.context = first.session.context) : first.UpToJournal second := by
  have numbers : first.constants = second.constants := List.forall₂_eq_eq_eq ▸ alike.numbers
  refine ⟨second.session.journal, alike.rest.trans ?_⟩
  rw [← entries_eq_of_alike alike.entries, ← numbers, ← context]
  rfl

theorem session (like : first.UpToJournal second) :
    first.session.UpToJournal second.session := by
  rcases like with ⟨journal, rfl⟩
  exact ⟨journal, rfl⟩

theorem inSession (like : first.UpToJournal second) {finish final : Session}
    (later : finish.UpToJournal final) :
    (first.inSession finish).UpToJournal (second.inSession final) := by
  rcases like with ⟨_, rfl⟩
  rcases later with ⟨journal, rfl⟩
  exact ⟨journal, rfl⟩

theorem opened (like : first.UpToJournal second) (deeper : Nat) :
    (first.opened deeper).UpToJournal (second.opened deeper) := by
  rcases like with ⟨journal, rfl⟩
  exact ⟨journal, rfl⟩

theorem closed (like : first.UpToJournal second) (deeper : Nat) :
    (first.closed deeper).UpToJournal (second.closed deeper) := by
  rcases like with ⟨journal, rfl⟩
  exact ⟨journal, rfl⟩

end Recorder.UpToJournal

/-! ## Operations -/

theorem Overlooks.of_uniform {α : Type} {work : Recording α}
    (uniform : ∀ first second : Recorder, first.Alike Eq second →
      Recording.Uniform Eq work first second) :
    Overlooks Recorder.UpToJournal work := by
  intro first second like
  have ends := uniform first second like.alike
  have context : second.session.context = first.session.context := by
    rcases like with ⟨journal, rfl⟩
    rfl
  unfold Recording.Uniform Recording.Twins at ends
  cases ran : work first <;> cases ranToo : work second <;> rw [ran, ranToo] at ends
  case ok.ok =>
    cases ends with
    | ok same alike kept keptToo =>
        cases same
        exact .ok (.of_alike alike (keptToo.trans (context.trans kept.symm)))
  case error.error =>
    cases ends with
    | error alike kept keptToo =>
        exact .error (.of_alike alike (keptToo.trans (context.trans kept.symm)))
  all_goals cases ends

namespace Recording

open Recorder

theorem constant_overlooks (function : ShaderFunction) (label : Option String)
    (type : TypeDescriptor) (value : HostValue) :
    Overlooks UpToJournal (constant function label type value) := by
  unfold constant
  split
  next => exact .throw _
  next =>
    split
    next => exact .throw _
    next =>
      rintro first _ ⟨journal, rfl⟩
      have got (recorder : Recorder) :
          (get : Recording Recorder) recorder = .ok recorder recorder := rfl
      have context : (first.inSession ⟨first.session.context, journal⟩).session.context =
          first.session.context := rfl
      rw [bind_of_ok (got _), bind_of_ok (got _), context]
      cases first.session.context.internConstant label type value with
      | error error context => exact .error ⟨journal, rfl⟩
      | ok number context =>
          have added : Overlooks UpToJournal (addValue function (.constant number) type) :=
            .of_uniform fun _ _ alike =>
              addExpression_twins function type none (.constant rfl) alike
          exact added (first.withConstant context number) _ ⟨journal, rfl⟩

theorem inSession_overlooks {α : Type} {work : Tracing α}
    (overlooks : Overlooks Session.UpToJournal work) :
    Overlooks UpToJournal (Recording.inSession work) := by
  intro first second like
  have ends := overlooks _ _ like.session
  unfold Recording.inSession
  generalize work first.session = result at ends ⊢
  generalize work second.session = answer at ends ⊢
  cases ends with
  | ok later => exact .ok (like.inSession later)
  | error later => exact .error (like.inSession later)

theorem noteCallee_overlooks {trace : ShaderFunction → Tracing RecordedFunction}
    {callee : ShaderFunction} (overlooks : Overlooks Session.UpToJournal (trace callee)) :
    Overlooks UpToJournal (noteCallee trace callee) := by
  apply Overlooks.bind (inSession_overlooks overlooks).discard
  intro _ _ _ _
  apply Overlooks.modify
  rintro first _ ⟨journal, rfl⟩
  exact ⟨journal, rfl⟩

theorem find?_eq_of_called {around : Surroundings} {start finish : Recorder} {id : FunctionId}
    {sources : List Operand} {prepared : ShaderFunction × List Node}
    (ran : called around id sources start = .ok prepared finish) :
    around.program.find? id = some prepared.1 := by
  rcases bind_ran_ok.mp ran with ⟨found, _, looked, ran⟩
  rcases bind_ran_ok.mp ran with ⟨_, _, _, ran⟩
  rcases bind_ran_ok.mp ran with ⟨_, _, _, ran⟩
  cases ran
  cases known : around.program.find? id with
  | none =>
      rw [callee, known] at looked
      cases looked
  | some other =>
      rw [callee, known] at looked
      cases looked
      rfl

theorem calling_overlooks {around : Surroundings} {id : FunctionId} {sources : List Operand}
    {next : ShaderFunction × List Node → Recording Unit}
    (traces : ∀ callee, around.program.find? id = some callee →
      Overlooks Session.UpToJournal (around.trace callee))
    (rest : ∀ prepared, Overlooks UpToJournal (next prepared)) :
    Overlooks UpToJournal (calling around id sources next) := by
  apply Overlooks.bind (.of_uniform fun _ _ => called_uniform around id sources)
  intro prepared start finish ran
  apply Overlooks.bind (noteCallee_overlooks (traces prepared.1 (find?_eq_of_called ran)))
  intro _ _ _ _
  exact rest prepared

theorem inside_overlooks {deeper : Nat} {body : Recording Unit}
    (overlooks : Overlooks UpToJournal body) : Overlooks UpToJournal (inside deeper body) := by
  intro first second like
  have ends := overlooks _ _ (like.opened deeper)
  unfold inside
  generalize body (first.opened deeper) = result at ends ⊢
  generalize body (second.opened deeper) = answer at ends ⊢
  cases ends with
  | ok later =>
      dsimp only
      rw [openBlock_of_alike later.alike]
      exact .ok (later.closed deeper)
  | error later => exact .error (later.closed deeper)

theorem attempt_overlooks {body : Recording Unit} (overlooks : Overlooks UpToJournal body) :
    Overlooks UpToJournal (attempt body) := by
  have noted (note : Note) : Overlooks UpToJournal (addNote note) :=
    .of_uniform fun _ _ => addNote_uniform note
  intro first second like
  have ends := overlooks first second like
  unfold attempt
  generalize body first = result at ends ⊢
  generalize body second = answer at ends ⊢
  cases ends with
  | ok like => exact noted _ _ _ like
  | error like => exact noted _ _ _ like

end Recording

/-! ## Scripts -/

open Recording

mutual
/-- An action that takes no published nodes overlooks the journal if the traces of the functions
that it mentions do. -/
theorem Action.perform_overlooks {around : Surroundings} : ∀ {action : Action},
    action.adopts = false →
    (∀ id ∈ action.mentioned, ∀ callee, around.program.find? id = some callee →
      Overlooks Session.UpToJournal (around.trace callee)) →
    Overlooks Recorder.UpToJournal (action.perform around) := by
  intro action own traces
  cases action with
  | constant out label type value =>
      apply Overlooks.bind (.of_uniform fun _ _ => named_uniform type)
      intro type _ _ _
      apply Overlooks.bind (constant_overlooks around.function label type value)
      intro node _ _ _
      exact .of_uniform fun _ _ => assign_uniform out node
  | call out id sources =>
      rw [perform_call]
      apply calling_overlooks (traces id List.mem_cons_self)
      intro prepared
      exact .of_uniform fun _ _ alike =>
        keep_twins out (callResult_uniform around.function prepared.1 prepared.2 alike)
  | callVoid id sources =>
      rw [perform_callVoid]
      apply calling_overlooks (traces id List.mem_cons_self)
      intro prepared
      exact .of_uniform fun _ _ => addStatement_uniform _
  | branch test accept reject =>
      have ⟨acceptOwn, rejectOwn⟩ := Bool.or_eq_false_iff.mp own
      have accepted := accept.perform_overlooks acceptOwn fun id member =>
        traces id (List.mem_append_left _ member)
      have rejected := reject.perform_overlooks rejectOwn fun id member =>
        traces id (List.mem_append_right _ member)
      apply Overlooks.bind (.of_uniform fun _ _ => condition_uniform around.function test)
      intro test _ _ _
      rw [inBlock_eq, inBlock_eq]
      apply Overlooks.bind (inside_overlooks accepted)
      intro accept _ _ _
      apply Overlooks.bind (inside_overlooks rejected)
      intro reject _ _ _
      exact .of_uniform fun _ _ => addStatement_uniform _
  | loop body =>
      simp only [Action.perform, loop, looped_eq]
      apply Overlooks.bind (inside_overlooks (body.perform_overlooks own traces))
      intro block _ _ _
      exact .of_uniform fun _ _ => addStatement_uniform _
  | range counter start stop body =>
      simp only [Action.perform, range_eq]
      apply Overlooks.bind (.of_uniform fun _ _ => rangeHead_uniform around.function start stop)
      intro head _ _ _
      have bodies : Overlooks Recorder.UpToJournal (do
          let node ← counterValue around.function head.counter head.type
          assign counter node
          body.perform around) := by
        apply Overlooks.bind (.of_uniform fun _ _ => counterValue_uniform _ _ _)
        intro node _ _ _
        apply Overlooks.bind (.of_uniform fun _ _ => assign_uniform counter node)
        intro _ _ _ _
        exact body.perform_overlooks own traces
      apply Overlooks.bind (inside_overlooks bodies)
      intro block _ _ _
      exact .of_uniform fun _ _ => addStatement_uniform _
  | attempt body => exact attempt_overlooks (body.perform_overlooks own traces)
  | adopt name out body => cases own
  | _ => exact .of_uniform fun _ _ => Action.perform_uniform around rfl

theorem Script.perform_overlooks {around : Surroundings} : ∀ {script : Script},
    script.adopts = false →
    (∀ id ∈ script.mentioned, ∀ callee, around.program.find? id = some callee →
      Overlooks Session.UpToJournal (around.trace callee)) →
    Overlooks Recorder.UpToJournal (script.perform around) := by
  intro script own traces
  cases script with
  | done => exact .pure ()
  | step action rest =>
      have ⟨actionOwn, restOwn⟩ := Bool.or_eq_false_iff.mp own
      apply Overlooks.bind (action.perform_overlooks actionOwn fun id member =>
        traces id (List.mem_append_left _ member))
      intro _ _ _ _
      exact rest.perform_overlooks restOwn fun id member =>
        traces id (List.mem_append_right _ member)
end

/-! ## Traces -/

namespace Tracing

theorem recording_overlooks {α : Type} {work : Recording α}
    (overlooks : Overlooks Recorder.UpToJournal work) :
    Overlooks Session.UpToJournal (recording work) := by
  rintro first _ ⟨journal, rfl⟩
  have ends := overlooks { session := first } { session := ⟨first.context, journal⟩ } ⟨journal, rfl⟩
  unfold recording
  generalize work { session := first } = result at ends ⊢
  generalize work { session := ⟨first.context, journal⟩ } = answer at ends ⊢
  cases ends with
  | ok later => exact .ok later.session
  | error later => exact .error later.session

theorem scriptWork_overlooks {around : Surroundings} {body : Script} (result : Option Operand)
    (overlooks : Overlooks Recorder.UpToJournal (body.perform around)) :
    Overlooks Recorder.UpToJournal (scriptWork around body result) := by
  apply Overlooks.bind (.of_uniform fun _ _ => addParameters_uniform _ _ _)
  intro _ _ _ _
  apply Overlooks.bind overlooks
  intro _ _ _ _
  apply Overlooks.bind (.of_uniform fun _ _ => operand?_uniform around.function result)
  intro node _ _ _
  exact .of_uniform fun _ _ alike =>
    (finish_twins around.function node alike).imp fun _ _ equal => equal.eq

theorem recordReferences_overlooks {around : Surroundings} {known : List FunctionId}
    {references : List (String × FunctionId)}
    (traces : ∀ id ∈ references.map Prod.snd, ∀ callee, around.program.find? id = some callee →
      Overlooks Session.UpToJournal (around.trace callee)) :
    Overlooks Session.UpToJournal (recordReferences around known references) := by
  induction references generalizing known with
  | nil => exact .pure known
  | cons reference rest induction =>
      unfold recordReferences
      split
      next => exact .throw _
      next callee found =>
        apply Overlooks.bind (traces _ List.mem_cons_self callee found).discard
        intro _ _ _ _
        exact induction fun id member => traces id (List.mem_cons_of_mem _ member)

theorem record_overlooks {around : Surroundings} (own : around.function.adopts = false)
    (traces : ∀ id ∈ around.function.implementation.mentioned, ∀ callee,
      around.program.find? id = some callee → Overlooks Session.UpToJournal (around.trace callee)) :
    Overlooks Session.UpToJournal (record around) := by
  cases implemented : around.function.implementation with
  | script body result =>
      rw [ShaderFunction.adopts, implemented] at own
      rw [implemented] at traces
      rw [record_of_script implemented]
      exact recording_overlooks (scriptWork_overlooks result (body.perform_overlooks own traces))
  | raw text references =>
      rw [implemented] at traces
      rw [record_of_raw implemented]
      apply Overlooks.bind (recordReferences_overlooks traces)
      intro callees _ _ _
      exact .pure _

theorem once_overlooks {function : ShaderFunction} {body : Tracing RecordedFunction}
    (overlooks : Overlooks Session.UpToJournal body) :
    Overlooks Session.UpToJournal (once function body) := by
  rintro first _ ⟨journal, rfl⟩
  rcases first.context.begins_cases function with ⟨recorded, found⟩ | ⟨absent, linked⟩ | begins
  · rw [once_of_found found, @once_of_found function body ⟨first.context, journal⟩ _ found]
    exact .ok ⟨journal, rfl⟩
  · rw [once_of_linked absent linked,
      @once_of_linked function body ⟨first.context, journal⟩ absent linked]
    exact .error ⟨journal, rfl⟩
  · have ⟨_, traced⟩ := once_begun begins body
    have ⟨_, tracedToo⟩ := @once_begun function ⟨first.context, journal⟩ begins body
    have ends := overlooks (entering function first) (entering function ⟨first.context, journal⟩)
      ⟨_, rfl⟩
    rw [traced, tracedToo]
    generalize body (entering function first) = result at ends ⊢
    generalize body (entering function ⟨first.context, journal⟩) = answer at ends ⊢
    cases ends with
    | ok later =>
        rcases later with ⟨_, rfl⟩
        exact .ok ⟨_, rfl⟩
    | error later =>
        rcases later with ⟨_, rfl⟩
        exact .error ⟨_, rfl⟩

end Tracing

namespace Program

variable {program : Program}

def Mentions (program : Program) (caller callee : ShaderFunction) : Prop :=
  ∃ id ∈ caller.implementation.mentioned, program.find? id = some callee

/-- A function whose recording takes no published nodes, whichever functions it calls. -/
def Plain (program : Program) (root : ShaderFunction) : Prop :=
  ∀ function, Relation.ReflTransGen program.Mentions root function → function.adopts = false

theorem traceWithin_overlooks {function : ShaderFunction} (plain : program.Plain function)
    (depth : Nat) : Overlooks Session.UpToJournal (program.traceWithin depth function) := by
  induction depth generalizing function with
  | zero => exact Tracing.once_overlooks (.throw _)
  | succ depth induction =>
      apply Tracing.once_overlooks
      apply Tracing.record_overlooks (plain function .refl)
      intro id mentioned callee found
      exact induction fun other later => plain other (.head ⟨id, mentioned, found⟩ later)

end Program

end ShaderKit
