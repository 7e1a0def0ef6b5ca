import ShaderKit.Proofs.Recording.Proceeding

/-!
# Entries are examined before they are added

Apart from references to variables, every entry of a recording was admitted by the recorder that
held all earlier entries. What the recorder examined stays true, because entries stay as they are.
For the same reason the operands that a helper was noted for stay there.
-/

namespace ShaderKit

namespace Recorder

variable {around : Surroundings} {recorder before after : Recorder} {entry : ExpressionEntry}

def Examined (recorder : Recorder) (entry : ExpressionEntry) : Prop :=
  (∃ number, entry.expression = .localVariable number) ∨
    ∃ earlier : Recorder, earlier.Preserves recorder ∧
      earlier.Admits entry.expression entry.type entry.reference

theorem Examined.later (examined : before.Examined entry) (preserves : before.Preserves after) :
    after.Examined entry := by
  rcases examined with own | ⟨earlier, first, admitted⟩
  · exact .inl own
  · exact .inr ⟨earlier, first.trans preserves, admitted⟩

def AllExamined (recorder : Recorder) : Prop :=
  ∀ entry ∈ recorder.expressions, recorder.Examined entry

namespace AllExamined

theorem empty (session : Session) : AllExamined { session := session } := by
  intro entry member
  simp at member

theorem keep (all : before.AllExamined) (preserves : before.Preserves after)
    (same : after.expressions = before.expressions) : after.AllExamined :=
  fun entry member => (all entry (same ▸ member)).later preserves

theorem push (all : before.AllExamined) (preserves : before.Preserves after)
    (pushed : after.expressions = before.expressions.push entry)
    (examined : after.Examined entry) : after.AllExamined := by
  intro other member
  rw [pushed] at member
  rcases Array.mem_push.mp member with old | rfl
  · exact (all other old).later preserves
  · exact examined

theorem addStatement (all : recorder.AllExamined) (statement : Statement) :
    (recorder.addStatement statement).AllExamined :=
  all.keep ((Preserves.refl recorder).addStatement statement) (expressions_addStatement _ _)

theorem opened (all : recorder.AllExamined) (deeper : Nat) :
    (recorder.opened deeper).AllExamined :=
  all.keep (preserves_opened recorder deeper) rfl

theorem closed (all : recorder.AllExamined) (deeper : Nat) :
    (recorder.closed deeper).AllExamined :=
  all.keep (preserves_closed recorder deeper) rfl

theorem counting (all : recorder.AllExamined) (function : ShaderFunction)
    (type : TypeDescriptor) : (recorder.counting function type).AllExamined :=
  all.push (preserves_counting recorder function type) (expressions_withExpression _ _ _ _ _)
    (.inl ⟨_, rfl⟩)

theorem withVariable (all : recorder.AllExamined) (function : ShaderFunction)
    (declared : LocalVariable) (initial : Option Node) :
    (recorder.withVariable function declared initial).AllExamined := by
  have preserves := preserves_withVariable recorder function declared initial
  unfold Recorder.withVariable at preserves ⊢
  have pushed := expressions_withExpression
    ((Recording.withLocal recorder declared).addStatement (.declare recorder.locals.size initial))
    function (.localVariable recorder.locals.size) declared.type (some ⟨.readWrite, .localVariable⟩)
  rw [expressions_addStatement] at pushed
  exact all.push preserves pushed (.inl ⟨_, rfl⟩)

end AllExamined

/-- Recording examines what it adds, by cases on the changes that it makes. -/
theorem Becomes.allExamined (becomes : before.Becomes around after) (all : before.AllExamined) :
    after.AllExamined := by
  induction becomes with
  | refl => exact all
  | trans _ _ first second => exact second (first all)
  | @expression recorder expression type reference covered admitted =>
      have becomes : recorder.Becomes around
          (recorder.withExpression around.function expression type reference) :=
        .expression type reference covered admitted
      exact all.push becomes.preserves (expressions_withExpression _ _ _ _ _)
        (.inr ⟨recorder, becomes.preserves, admitted⟩)
  | statement => exact all.addStatement _
  | declared recorder declared initial => exact all.withVariable _ declared initial
  | branch _ _ _ accept reject =>
      have accepted := accept (all.opened 0)
      exact ((reject ((accepted.closed 0).opened 0)).closed 0).addStatement _
  | loop _ body => exact ((body (all.opened 1)).closed 1).addStatement _
  | range _ _ _ body => exact ((body (all.counting _ _)).closed 1).addStatement _
  | dropped deeper _ inside => exact (inside (all.opened deeper)).closed deeper
  | droppedRange _ inside => exact (inside (all.counting _ _)).closed 1
  | localVariable recorder declared => exact all.keep (preserves_withLocal recorder declared) rfl
  | constant | helper | binding | register | journal | traced | untraced =>
      exact all.keep (.of_eq rfl (Nat.le_refl _)) rfl

/-! ## Helpers -/

def HelpersApplied (recorder : Recorder) : Prop :=
  ∀ helper ∈ recorder.helpers, ∀ type ∈ helper.parameterTypes, ∃ node, recorder.TypeAt node type

theorem TypeAt.later {node : Node} {type : TypeDescriptor} (typed : before.TypeAt node type)
    (preserves : before.Preserves after) : after.TypeAt node type := by
  rcases typed with ⟨entry, found, same⟩
  exact ⟨entry, preserves.expressions _ _ found, same⟩

namespace HelpersApplied

theorem keep (applied : before.HelpersApplied) (preserves : before.Preserves after)
    (same : after.helpers = before.helpers) : after.HelpersApplied := by
  intro helper member type listed
  rw [same] at member
  have ⟨node, typed⟩ := applied helper member type listed
  exact ⟨node, typed.later preserves⟩

theorem addStatement (applied : recorder.HelpersApplied) (statement : Statement) :
    (recorder.addStatement statement).HelpersApplied :=
  applied.keep ((Preserves.refl recorder).addStatement statement)
    (congrArg Ledger.helpers (ledger_addStatement recorder statement))

theorem opened (applied : recorder.HelpersApplied) (deeper : Nat) :
    (recorder.opened deeper).HelpersApplied :=
  applied.keep (preserves_opened recorder deeper) rfl

theorem closed (applied : recorder.HelpersApplied) (deeper : Nat) :
    (recorder.closed deeper).HelpersApplied :=
  applied.keep (preserves_closed recorder deeper) rfl

theorem counting (applied : recorder.HelpersApplied) (function : ShaderFunction)
    (type : TypeDescriptor) : (recorder.counting function type).HelpersApplied :=
  applied.keep (preserves_counting recorder function type)
    (congrArg Ledger.helpers (ledger_counting function type))

end HelpersApplied

theorem Becomes.helpersApplied (becomes : before.Becomes around after)
    (applied : before.HelpersApplied) : after.HelpersApplied := by
  induction becomes with
  | refl => exact applied
  | trans _ _ first second => exact second (first applied)
  | @expression recorder expression type reference covered admitted =>
      have becomes : recorder.Becomes around
          (recorder.withExpression around.function expression type reference) :=
        .expression type reference covered admitted
      exact applied.keep becomes.preserves
        (congrArg Ledger.helpers (ledger_withExpression _ _ _ _))
  | statement => exact applied.addStatement _
  | declared recorder declared initial =>
      exact applied.keep (preserves_withVariable recorder around.function declared initial)
        (congrArg Ledger.helpers (ledger_withVariable around.function declared initial))
  | branch _ _ _ accept reject =>
      have accepted := accept (applied.opened 0)
      exact ((reject ((accepted.closed 0).opened 0)).closed 0).addStatement _
  | loop _ body => exact ((body (applied.opened 1)).closed 1).addStatement _
  | range _ _ _ body => exact ((body (applied.counting _ _)).closed 1).addStatement _
  | dropped deeper _ inside => exact (inside (applied.opened deeper)).closed deeper
  | droppedRange _ inside => exact (inside (applied.counting _ _)).closed 1
  | localVariable recorder declared =>
      exact applied.keep (preserves_withLocal recorder declared) rfl
  | @helper recorder helper given =>
      have preserves : recorder.Preserves (recorder.withHelper helper) := .of_eq rfl (Nat.le_refl _)
      intro other member type listed
      rcases mem_addNew.mp member with old | rfl
      · have ⟨node, typed⟩ := applied other old type listed
        exact ⟨node, typed.later preserves⟩
      · have ⟨node, typed⟩ := given type listed
        exact ⟨node, typed.later preserves⟩
  | constant | binding | register | journal | traced | untraced =>
      exact applied.keep (.of_eq rfl (Nat.le_refl _)) rfl

end Recorder

/-! ## Finished recordings -/

namespace Program.Makes

variable {program : Program} {function : ShaderFunction} {recorded : RecordedFunction}

/-- A finished recording is a raw text, or what changes have made of a new recorder. -/
theorem becomes_cases (makes : program.Makes function recorded) :
    (∃ text callees, recorded = { function, body := .raw text, callees }) ∨
      ∃ around session final, Recorder.Becomes around { session := session } final ∧
        recorded = final.recorded function := by
  rcases makes.cases with
    ⟨text, _, callees, _, same⟩ | ⟨body, result, depth, session, final, _, worked⟩
  · exact .inl ⟨text, callees, same⟩
  · exact .inr ⟨_, session, final,
      (Tracing.scriptWork_follows _ body result _).becomes_of_ok worked,
      Tracing.scriptWork_recorded worked⟩

/-- An entry of a finished recording refers to a variable, or was admitted by a recorder whose
entries are entries of the recording. -/
theorem examined (makes : program.Makes function recorded) :
    ∀ entry ∈ recorded.expressions, (∃ number, entry.expression = .localVariable number) ∨
      ∃ earlier : Recorder, (∀ (index : Nat) known, earlier.expressions[index]? = some known →
          recorded.expressions[index]? = some known) ∧
        earlier.Admits entry.expression entry.type entry.reference := by
  rcases makes.becomes_cases with ⟨text, callees, rfl⟩ | ⟨_, session, final, becomes, rfl⟩
  · simp
  · intro entry member
    rcases becomes.allExamined (.empty session) entry member with own | ⟨earlier, kept, admitted⟩
    · exact .inl own
    · exact .inr ⟨earlier, kept.expressions, admitted⟩

theorem helpersApplied (makes : program.Makes function recorded) :
    ∀ helper ∈ recorded.helpers, ∀ type ∈ helper.parameterTypes,
      ∃ entry ∈ recorded.expressions, entry.type = type := by
  rcases makes.becomes_cases with ⟨text, callees, rfl⟩ | ⟨_, _, final, becomes, rfl⟩
  · nofun
  · intro helper member type listed
    have ⟨node, entry, found, same⟩ := becomes.helpersApplied nofun helper member type listed
    exact ⟨entry, Array.mem_of_getElem? found, same⟩

end Program.Makes

end ShaderKit
