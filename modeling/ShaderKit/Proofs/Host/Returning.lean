import ShaderKit.Proofs.Module.Closed

/-!
# Functions with a result give it back

Whether every way through a block returns is read off its text. It is so for every run: a block
that returns on every way does not run past its end, and a loop is only left, or gone on with,
by a statement inside it. This asks nothing of types, arguments or callees.
-/

namespace ShaderKit

open Evaluation

/-! ## Evaluations that end without an error -/

/-- An evaluation that gives what is described if it ends without an error. -/
structure Evaluation.Gives {α : Type} (work : Evaluation α) (post : α → Prop) : Prop where
  holds : ∀ {result}, work = .ok result → post result

namespace Evaluation.Gives

variable {α β : Type} {work : Evaluation α} {next : α → Evaluation β} {middle other : α → Prop}
  {post : β → Prop}

theorem ok {value : β} (holds : post value) : Gives (.ok value) post where
  holds same := by
    cases same
    exact holds

theorem error {interruption : Interruption} : Gives (.error interruption) post :=
  ⟨nofun⟩

theorem bind (first : Gives work middle) (rest : ∀ value, middle value → Gives (next value) post) :
    Gives (work >>= next) post where
  holds same := by
    obtain ⟨value, ran, later⟩ := bind_eq_ok.mp same
    exact (rest value (first.holds ran)).holds later

theorem after (rest : ∀ value, Gives (next value) post) : Gives (work >>= next) post where
  holds same := by
    obtain ⟨value, _, later⟩ := bind_eq_ok.mp same
    exact (rest value).holds later

theorem imp (gives : Gives work middle) (weaker : ∀ value, middle value → other value) :
    Gives work other :=
  ⟨fun same => weaker _ (gives.holds same)⟩

end Evaluation.Gives

/-! ## Statements that no loop surrounds -/

mutual
def Statement.unlooped : Statement → List Statement
  | .branch condition accept reject =>
      .branch condition accept reject :: (blockUnlooped accept ++ blockUnlooped reject)
  | statement => [statement]

def blockUnlooped : List Statement → List Statement
  | [] => []
  | statement :: rest => statement.unlooped ++ blockUnlooped rest
end

mutual
/-- Where no loop surrounds a statement, nothing that it consists of leaves a loop or goes on to
a next round, unless it stands in a loop. -/
theorem Statement.Checked.unlooped {inventory : Inventory} : ∀ {statement : Statement}
    {bound : List Binder}, statement.Checked inventory False bound →
      ∀ inner ∈ statement.unlooped, inner ≠ .leaveLoop ∧ inner ≠ .nextRound
  | .branch condition accept reject, _, checked => by
      simp only [Statement.Checked] at checked
      have acceptUnlooped := checked.2.1.unlooped
      have rejectUnlooped := checked.2.2.unlooped
      intro inner member
      simp only [Statement.unlooped, List.mem_cons, List.mem_append] at member
      rcases member with rfl | member | member
      · simp
      · exact acceptUnlooped inner member
      · exact rejectUnlooped inner member
  | .leaveLoop, _, checked | .nextRound, _, checked => by
      simp [Statement.Checked] at checked
  | .emit _, _, _ | .declare _ _, _, _ | .store _ _, _, _ | .callVoid _ _, _, _ | .loop _, _, _
  | .range _ _ _ _, _, _ | .giveBack _, _, _ | .discard, _, _ => by
      simp [Statement.unlooped]

theorem BlockChecked.unlooped {inventory : Inventory} : ∀ {block : List Statement}
    {bound : List Binder}, BlockChecked inventory False bound block →
      ∀ inner ∈ blockUnlooped block, inner ≠ .leaveLoop ∧ inner ≠ .nextRound
  | [], _, _ => by
      simp [blockUnlooped]
  | statement :: rest, _, checked => by
      simp only [BlockChecked] at checked
      intro inner member
      rcases List.mem_append.mp member with member | member
      · exact checked.1.unlooped inner member
      · exact checked.2.unlooped inner member
end

/-! ## How blocks end -/

/-- An end of a statement or a block of a function with a result, as its text allows: inside a
loop or not, with a statement that leaves the loop or without, returning on every way or not. -/
def Flow.Fits (inLoop : Prop) (leaves returns : Bool) : Flow → Prop
  | .next => returns = false
  | .leaveLoop => inLoop ∧ leaves = true
  | .nextRound => inLoop
  | .giveBack answer => answer.isSome = true

namespace Activation

variable {activation : Activation} {inLoop : Prop} {leaves returns : Bool} {flow ending : Flow}
  {round : Frame → Evaluation (Frame × Flow)}

theorem fits_of_afterRound (fits : flow.Fits True leaves returns)
    (ends : afterRound flow = some ending) : ending.Fits inLoop false (!leaves) := by
  cases flow with
  | next | nextRound => cases ends
  | leaveLoop =>
      cases ends
      simp [Flow.Fits, fits.2]
  | giveBack answer =>
      cases ends
      exact fits

theorem repeatRounds_fits
    (each : ∀ frame, Gives (round frame) fun result => result.2.Fits True leaves returns)
    (rounds : Nat) (frame : Frame) :
    Gives (repeatRounds round rounds frame) fun result =>
      result.2.Fits inLoop false (!leaves) := by
  induction rounds generalizing frame with
  | zero => exact .error
  | succ rounds induction =>
      apply (each frame).bind
      intro ⟨after, flow⟩ fits
      dsimp only
      split
      next ending ends => exact .ok (fits_of_afterRound fits ends)
      next again => exact induction after

theorem countRounds_fits
    (each : ∀ frame, Gives (round frame) fun result => result.2.Fits True leaves returns)
    (counter : Nat) (bound : Scalar) (rounds : Nat) (current : Scalar) (frame : Frame) :
    Gives (activation.countRounds round counter bound rounds current frame) fun result =>
      result.2.Fits inLoop false false := by
  induction rounds generalizing current frame with
  | zero => exact .error
  | succ rounds induction =>
      rw [countRounds]
      split
      next => exact .ok rfl
      next =>
        apply (each (setVariable frame counter (.scalar current))).bind
        intro ⟨after, flow⟩ fits
        dsimp only
        split
        next ending ends =>
          have fits := @fits_of_afterRound inLoop leaves returns flow ending fits ends
          cases ending with
          | next => exact .ok rfl
          | _ => exact .ok fits
        next again => exact .after fun next => induction next after

end Activation

theorem Flow.Fits.weaken {inLoop : Prop} {leaves returns leavesMore returnsLess : Bool}
    {flow : Flow} (fits : flow.Fits inLoop leaves returns)
    (more : leaves = true → leavesMore = true) (less : returns = false → returnsLess = false) :
    flow.Fits inLoop leavesMore returnsLess := by
  cases flow with
  | next => exact less fits
  | leaveLoop => exact ⟨fits.1, more fits.2⟩
  | nextRound | giveBack => exact fits

mutual
/-- A statement of a function with a result ends as its text allows. -/
theorem Statement.run_fits {inventory : Inventory} {activation : Activation} {call : Callee}
    {rounds : Nat} (answers : inventory.function.signature.result.isSome = true) :
    ∀ {statement : Statement} {bound : List Binder} {inLoop : Prop} (frame : Frame),
      statement.Checked inventory inLoop bound →
        Gives (statement.run activation call rounds frame) fun result =>
          result.2.Fits inLoop statement.leavesLoop statement.returns
  | .emit _, _, _, _, _ | .declare _ _, _, _, _, _ => .after fun _ => .ok rfl
  | .store _ _, _, _, _, _ | .callVoid _ _, _, _, _, _ => .after fun _ => .after fun _ => .ok rfl
  | .branch condition accept reject, bound, inLoop, frame, checked => by
      simp only [Statement.Checked] at checked
      rw [Statement.run]
      apply Gives.after
      intro held
      split
      next =>
        apply (runBlock_fits answers frame checked.2.1).imp
        intro result fits
        apply fits.weaken <;> simp +contextual [Statement.leavesLoop, Statement.returns]
      next =>
        apply (runBlock_fits answers frame checked.2.2).imp
        intro result fits
        apply fits.weaken <;> simp +contextual [Statement.leavesLoop, Statement.returns]
  | .loop body, bound, inLoop, frame, checked => by
      simp only [Statement.Checked] at checked
      rw [Statement.run]
      exact Activation.repeatRounds_fits (fun frame => runBlock_fits answers frame checked)
        rounds frame
  | .range counter first last body, bound, inLoop, frame, checked => by
      simp only [Statement.Checked] at checked
      obtain ⟨_, _, _, _, _, bodyChecked⟩ := checked
      rw [Statement.run]
      apply Gives.after
      intro limit
      apply Gives.after
      intro start
      exact Activation.countRounds_fits (fun frame => runBlock_fits answers frame bodyChecked)
        counter limit rounds start frame
  | .leaveLoop, _, _, _, checked => by
      simp only [Statement.Checked] at checked
      exact .ok ⟨checked, rfl⟩
  | .nextRound, _, _, _, checked => by
      simp only [Statement.Checked] at checked
      exact .ok checked
  | .giveBack none, _, _, _, checked => by
      simp only [Statement.Checked] at checked
      rw [checked] at answers
      cases answers
  | .giveBack (some _), _, _, _, _ => .after fun _ => .ok rfl
  | .discard, _, _, _, _ => .error

theorem runBlock_fits {inventory : Inventory} {activation : Activation} {call : Callee}
    {rounds : Nat} (answers : inventory.function.signature.result.isSome = true) :
    ∀ {block : List Statement} {bound : List Binder} {inLoop : Prop} (frame : Frame),
      BlockChecked inventory inLoop bound block →
        Gives (runBlock activation call rounds frame block) fun result =>
          result.2.Fits inLoop (leaveLoopIn block) (blockReturns block)
  | [], _, _, _, _ => .ok rfl
  | statement :: rest, bound, inLoop, frame, checked => by
      simp only [BlockChecked] at checked
      rw [runBlock]
      apply (Statement.run_fits answers frame checked.1).bind
      intro ⟨after, flow⟩ fits
      cases flow with
      | next =>
          apply (runBlock_fits answers after checked.2).imp
          intro result fitsLater
          apply fitsLater.weaken
          · simp +contextual [leaveLoopIn]
          · intro goesOn
            cases rest with
            | nil => exact fits
            | cons other others => exact goesOn
      | leaveLoop => exact .ok ⟨fits.1, by simp [leaveLoopIn, fits.2]⟩
      | nextRound | giveBack => exact .ok fits
end

/-! ## What follows a block that does not run past its end -/

section

variable {activation : Activation} {call : Callee} {rounds : Nat}

theorem runBlock_append (block more : Block) (frame : Frame) :
    runBlock activation call rounds frame (block ++ more) = (do
      let (frame, flow) ← runBlock activation call rounds frame block
      match flow with
      | .next => runBlock activation call rounds frame more
      | other => .ok (frame, other)) := by
  induction block generalizing frame with
  | nil =>
      rw [List.nil_append, runBlock]
      rfl
  | cons statement rest induction =>
      rw [List.cons_append, runBlock, runBlock]
      cases statement.run activation call rounds frame with
      | error interruption => rfl
      | ok result =>
          obtain ⟨after, flow⟩ := result
          cases flow with
          | next => exact induction after
          | leaveLoop | nextRound | giveBack => rfl

theorem runBlock_append_of_givesBack {block : Block} {frame : Frame} (more : Block)
    (givesBack : Gives (runBlock activation call rounds frame block) fun result =>
      ∃ value, result.2 = .giveBack (some value)) :
    runBlock activation call rounds frame (block ++ more) =
      runBlock activation call rounds frame block := by
  rw [runBlock_append]
  cases ran : runBlock activation call rounds frame block with
  | error interruption => rfl
  | ok result =>
      obtain ⟨after, flow⟩ := result
      obtain ⟨value, same⟩ := givesBack.holds ran
      cases same
      rfl

theorem RecordedFunction.Sound.givesBack {recorded : RecordedFunction} {context : TraceContext}
    {block : Block} (sound : recorded.Sound context) (body : recorded.body = .statements block)
    (answers : recorded.signature.result.isSome = true) (frame : Frame) :
    Gives (runBlock activation call rounds frame block) fun result =>
      ∃ value, result.2 = .giveBack (some value) := by
  apply (runBlock_fits answers frame (sound.checked block body)).imp
  intro ⟨after, flow⟩ fits
  cases flow with
  | next =>
      have returns := sound.returns block body answers
      rw [show blockReturns block = false from fits] at returns
      cases returns
  | leaveLoop => exact fits.1.elim
  | nextRound => exact fits.elim
  | giveBack answer =>
      obtain ⟨value, rfl⟩ := Option.isSome_iff_exists.mp fits
      exact ⟨value, rfl⟩

end

/-! ## Traced functions -/

/-- Results are given back. In every recording, whatever leaves a loop or goes on to its next
round stands inside a loop. If the function has a result, every run of its body that ends gives
a value back, from any frame and with any callees. So the return that is written after a body
that does not visibly end in one is never reached: the body has the same runs with any
statements after it. -/
theorem Program.results_givenBack {program : Program} {roots : List ShaderFunction}
    (known : ∀ root ∈ roots, program.find? root.id = some root) (journal : Journal) :
    ∀ recorded ∈ (program.attemptAll roots { journal := journal }).context.finished,
      ∀ block, recorded.body = .statements block →
        (∀ statement ∈ blockUnlooped block, statement ≠ .leaveLoop ∧ statement ≠ .nextRound) ∧
        ∀ type, recorded.signature.result = some type →
          (∀ activation call rounds frame after flow,
            runBlock activation call rounds frame block = .ok (after, flow) →
              ∃ value, flow = .giveBack (some value)) ∧
          (∀ identifier names registry,
            let written := writeBlock (recorded.bodyScope names registry)
              (recorded.bodyWriter identifier names registry) block
            let closed := written.line s!"return {names.typeText type}();"
            recorded.statementsText identifier names registry block =
              (if endsInReturn block then written else closed).close.output.text) ∧
          ∀ activation call rounds frame trailing,
            runBlock activation call rounds frame (block ++ trailing) =
              runBlock activation call rounds frame block := by
  intro recorded member block body
  have sound := Program.sound_of_attemptAll known member
  refine ⟨(sound.checked block body).unlooped, ?_⟩
  intro type result
  have answers : recorded.signature.result.isSome = true := by simp [result]
  refine ⟨?_, ?_, ?_⟩
  · intro activation call rounds frame after flow ran
    exact (sound.givesBack body answers frame).holds ran
  · intro identifier names registry written closed
    simp only [RecordedFunction.statementsText_eq, result]
    rfl
  · intro activation call rounds frame trailing
    exact runBlock_append_of_givesBack trailing (sound.givesBack body answers frame)

def RecordedFunction.hasBlock (recorded : RecordedFunction) (test : Block → Bool) : Bool :=
  match recorded.body with
  | .raw _ => false
  | .statements block => test block

theorem RecordedFunction.exists_of_hasBlock {recorded : RecordedFunction} {test : Block → Bool}
    (passes : recorded.hasBlock test = true) :
    ∃ block, recorded.body = .statements block ∧ test block = true := by
  unfold hasBlock at passes
  split at passes
  next => cases passes
  next block body => exact ⟨block, body, passes⟩

def examplePower : ShaderFunction where
  id := ⟨0⟩
  signature := ⟨"power", [⟨"number", .u32⟩], some .u32, none⟩
  implementation := .script
    (.ofList [
      .declare "power" none (.literal (.u32 1)),
      .loop (.ofList [
        .binary "enough" .greaterEqual (.register "power") (.register "$0"),
        .branch (.register "enough") (.ofList [.giveBack (some (.register "power"))]) .done,
        .range "round" (.literal (.u32 0)) (.literal (.u32 8)) (.ofList [
          .binary "double" .add (.register "power") (.register "power"),
          .store "power" (.register "double"),
          .leaveLoop])])])
    none

theorem results_givenBack_examplePower :
    let program : Program := ⟨[examplePower]⟩
    ∃ recorded ∈ (program.attemptAll [examplePower] {}).context.finished, ∃ block,
      recorded.body = .statements block ∧ endsInReturn block = false ∧
      (∀ activation call rounds frame after flow,
        runBlock activation call rounds frame block = .ok (after, flow) →
          ∃ value, flow = .giveBack (some value)) ∧
      ∀ activation call rounds frame,
        runBlock activation call rounds frame (block ++ [.discard]) =
          runBlock activation call rounds frame block := by
  intro program
  have known : ∀ root ∈ [examplePower], program.find? root.id = some root := by
    intro root member
    rw [List.mem_singleton.mp member]
    rfl
  have listed : (program.attemptAll [examplePower] {}).context.finished.any (fun recorded =>
      recorded.signature.result == some .u32 &&
        recorded.hasBlock fun block => !endsInReturn block) = true := by decide +kernel
  obtain ⟨recorded, member, shape⟩ := List.any_eq_true.mp listed
  obtain ⟨result, passes⟩ := (Bool.and_eq_true _ _).mp shape
  obtain ⟨block, body, unclosed⟩ := RecordedFunction.exists_of_hasBlock passes
  obtain ⟨_, results⟩ := Program.results_givenBack known {} recorded member block body
  obtain ⟨givesBack, _, unreached⟩ := results .u32 (eq_of_beq result)
  exact ⟨recorded, member, block, body, by simpa using unclosed, givesBack,
    fun activation call rounds frame => unreached activation call rounds frame [.discard]⟩

end ShaderKit
