import ShaderKit.Proofs.Host.Run
import ShaderKit.Proofs.Host.Unchanged

/-!
# Range loops

A range loop runs its body once for each integer from its start up to its bound, the bound not
included, whatever the two are. The counter never wraps around, because it is only increased
below the bound. Nothing in the body changes the counter or the bound: the counter may not be
stored into, and what the bound is computed from was bound before the loop.
-/

namespace ShaderKit

open Evaluation

/-! ## Integers -/

namespace Scalar

def integer : Scalar → Int
  | .i32 value => value.toInt
  | .u32 value => value.toNat
  | _ => 0

def ofInteger (kind : ScalarKind) (number : Int) : Scalar :=
  match kind with
  | .i32 => .i32 (Int32.ofInt number)
  | _ => .u32 (UInt32.ofNat number.toNat)

def upTo (start bound : Scalar) : List Scalar :=
  (List.range (bound.integer - start.integer).toNat).map fun step : Nat =>
    ofInteger start.kind (start.integer + step)

/-- Where counting from a start up to a bound ends: at the bound, if it is not below the start. -/
def countEnd (start bound : Scalar) : Scalar :=
  if start.integer < bound.integer then bound else start

example : (Scalar.i32 (-2)).upTo (.i32 1) = [.i32 (-2), .i32 (-1), .i32 0] := by decide
example : (Scalar.u32 4294967293).upTo (.u32 4294967295) =
    [.u32 4294967293, .u32 4294967294] := by decide

variable {kind : ScalarKind} {start current bound : Scalar}

theorem kind_ofInteger (isInteger : kind.isInteger = true) (number : Int) :
    (ofInteger kind number).kind = kind := by
  cases kind <;> first | rfl | cases isInteger

theorem ofInteger_integer (isInteger : start.kind.isInteger = true) :
    ofInteger start.kind start.integer = start := by
  cases start with
  | i32 value => simp [ofInteger, integer, kind]
  | u32 value => simp [ofInteger, integer, kind]
  | _ => cases isInteger

theorem integer_ofInteger {number : Int} (isInteger : start.kind.isInteger = true)
    (same : bound.kind = start.kind) (least : start.integer ≤ number)
    (greatest : number ≤ bound.integer) : (ofInteger start.kind number).integer = number := by
  cases start with
  | i32 low =>
      cases bound with
      | i32 high =>
          have lowLeast := low.le_toInt
          have highGreatest := high.toInt_lt
          simp only [integer] at least greatest
          exact Int32.toInt_ofInt_of_le (by omega) (by omega)
      | _ => cases same
  | u32 low =>
      cases bound with
      | u32 high =>
          have highGreatest := high.toNat_lt
          simp only [integer] at least greatest
          have fits : number.toNat < UInt32.size := by
            rw [UInt32.size]
            omega
          simp only [ofInteger, kind, integer, UInt32.toNat_ofNat_of_lt' fits]
          omega
      | _ => cases same
  | _ => cases isInteger

theorem applyBinary_less (isInteger : current.kind.isInteger = true)
    (same : bound.kind = current.kind) :
    applyBinary .less current bound = some (.bool (current.integer < bound.integer)) := by
  cases current with
  | i32 value =>
      cases bound with
      | i32 limit =>
          have less : decide (value < limit) = decide (value.toInt < limit.toInt) :=
            decide_eq_decide.mpr Int32.lt_iff_toInt_lt
          exact congrArg (fun truth => some (Scalar.bool truth)) less
      | _ => cases same
  | u32 value =>
      cases bound with
      | u32 limit =>
          have less : decide (value < limit) = decide ((value.toNat : Int) < limit.toNat) :=
            decide_eq_decide.mpr (UInt32.lt_iff_toNat_lt.trans Int.ofNat_lt.symm)
          exact congrArg (fun truth => some (Scalar.bool truth)) less
      | _ => cases same
  | _ => cases isInteger

theorem applyBinary_one (isInteger : current.kind.isInteger = true) :
    applyBinary .add current ((Scalar.u32 1).convert current.kind) =
      some (ofInteger current.kind (current.integer + 1)) := by
  cases current with
  | i32 value =>
      have sum : Int32.ofInt (value.toInt + 1) = value + 1 := by
        rw [Int32.ofInt_add, Int32.ofInt_toInt]
        rfl
      simp [applyBinary, applySigned, convert, kind, ofInteger, integer, sum]
  | u32 value =>
      have sum : UInt32.ofNat ((value.toNat : Int) + 1).toNat = value + 1 := by
        rw [show ((value.toNat : Int) + 1).toNat = value.toNat + 1 by omega, UInt32.ofNat_add,
          UInt32.ofNat_toNat]
        rfl
      simp only [applyBinary, applyUnsigned, convert, kind, ofInteger, integer, sum]
  | _ => cases isInteger

theorem upTo_of_le (done : bound.integer ≤ start.integer) : start.upTo bound = [] := by
  have none : (bound.integer - start.integer).toNat = 0 := by omega
  rw [upTo, none]
  rfl

theorem upTo_of_lt {following : Scalar} (isInteger : start.kind.isInteger = true)
    (below : start.integer < bound.integer) (same : following.kind = start.kind)
    (next : following.integer = start.integer + 1) :
    start.upTo bound = start :: following.upTo bound := by
  have count : (bound.integer - start.integer).toNat =
      (bound.integer - following.integer).toNat + 1 := by omega
  rw [upTo, upTo, count, List.range_succ_eq_map, List.map_cons, List.map_map, same, next]
  congr 1
  · simp [ofInteger_integer isInteger]
  · apply List.map_congr_left
    intro step _
    have shifted : start.integer + (step.succ : Nat) = start.integer + 1 + step := by omega
    exact congrArg (ofInteger start.kind) shifted

theorem eq_of_integer_eq (isInteger : start.kind.isInteger = true)
    (same : bound.kind = start.kind) (equal : bound.integer = start.integer) : bound = start := by
  rw [← ofInteger_integer isInteger, ← equal, ← same]
  exact (ofInteger_integer (same ▸ isInteger)).symm

/-- Counting goes through the numbers from the start up to the bound in order, and increases none
of them beyond the bound. -/
theorem upTo_exact (isInteger : start.kind.isInteger = true) (same : bound.kind = start.kind) :
    (start.upTo bound).map integer =
      (List.range (bound.integer - start.integer).toNat).map (fun step : Nat =>
        start.integer + step) ∧
    ∀ current ∈ start.upTo bound, current.kind = start.kind ∧
      ∃ following, applyBinary .add current ((Scalar.u32 1).convert current.kind) =
        some following ∧ following.kind = current.kind ∧
          following.integer = current.integer + 1 := by
  have counted {step : Nat} (inside : step ≤ (bound.integer - start.integer).toNat) :
      start.integer ≤ bound.integer → (ofInteger start.kind (start.integer + step)).integer =
        start.integer + step := by
    intro ordered
    apply integer_ofInteger isInteger same <;> omega
  constructor
  · rw [upTo, List.map_map]
    apply List.map_congr_left
    intro step member
    have below := List.mem_range.mp member
    exact counted (by omega) (by omega)
  · intro current member
    rw [upTo, List.mem_map] at member
    obtain ⟨step, inside, rfl⟩ := member
    have below := List.mem_range.mp inside
    have kinds := kind_ofInteger isInteger (start.integer + step)
    refine ⟨kinds, _, applyBinary_one (kinds.symm ▸ isInteger), ?_, ?_⟩
    · rw [kinds]
      exact kind_ofInteger isInteger _
    · rw [kinds, counted (by omega) (by omega)]
      apply integer_ofInteger isInteger same <;> omega

end Scalar

/-! ## Rounds -/

/-- Run a round for each of some values of a counter, in order, unless a round ends the loop. Then
the counter has a last value. -/
def visitEach (round : Frame → Evaluation (Frame × Flow)) (counter : Nat) (final : Scalar) :
    List Scalar → Frame → Evaluation (Frame × Flow)
  | [], frame => .ok (Activation.setVariable frame counter (.scalar final), .next)
  | value :: values, frame => do
      let (frame, flow) ← round (Activation.setVariable frame counter (.scalar value))
      match Activation.afterRound flow with
      | some ending => .ok (frame, ending)
      | none => visitEach round counter final values frame

/-- Counting runs a round for each integer up to the bound, with enough rounds for them. -/
theorem Activation.countRounds_eq {activation : Activation}
    {round : Frame → Evaluation (Frame × Flow)} {counter : Nat} {bound current : Scalar}
    (isInteger : current.kind.isInteger = true) (same : bound.kind = current.kind) {rounds : Nat}
    (enough : (bound.integer - current.integer).toNat < rounds) (frame : Frame) :
    activation.countRounds round counter bound rounds current frame =
      visitEach round counter (current.countEnd bound) (current.upTo bound) frame := by
  induction rounds generalizing current frame with
  | zero => exact absurd enough (Nat.not_lt_zero _)
  | succ rounds induction =>
      rw [countRounds, Scalar.applyBinary_less isInteger same]
      by_cases below : current.integer < bound.integer
      · obtain ⟨following, counted, followingKind, next⟩ : ∃ following,
            Scalar.applyBinary .add current ((Scalar.u32 1).convert current.kind) =
              some following ∧ following.kind = current.kind ∧
                following.integer = current.integer + 1 :=
          ⟨_, Scalar.applyBinary_one isInteger, Scalar.kind_ofInteger isInteger _,
            Scalar.integer_ofInteger isInteger same (by omega) (by omega)⟩
        have ends : following.countEnd bound = current.countEnd bound := by
          rw [Scalar.countEnd, Scalar.countEnd, if_pos below]
          split
          next => rfl
          next last =>
            exact Scalar.eq_of_integer_eq (same ▸ isInteger) (followingKind.trans same.symm)
              (by omega)
        have later := fun frame => induction (followingKind ▸ isInteger)
          (same.trans followingKind.symm) (by omega) frame
        rw [Scalar.upTo_of_lt isInteger below followingKind next, visitEach, if_neg (by simp [below]),
          counted, ← ends]
        simp only [require, ← later]
        rfl
      · rw [if_pos (by simp [below]), Scalar.upTo_of_le (by omega), Scalar.countEnd, if_neg below]
        rfl

/-! ## Loops of recordings -/

def RecordedFunction.KeepsLoop (recorded : RecordedFunction) (counter : Nat) (last : Node)
    (work : Activation → Callee → Nat → Frame → Evaluation (Frame × Flow)) : Prop :=
  ∀ activation call rounds before after flow, activation.recorded = recorded →
    before.Proper recorded → work activation call rounds before = .ok (after, flow) →
      after.Proper recorded ∧ after.cells[counter]? = before.cells[counter]? ∧
        activation.scalar after last = activation.scalar before last

/-- A range loop of a recording that counts through integers of a kind. -/
structure RecordedFunction.CountsThrough (recorded : RecordedFunction) (kind : ScalarKind)
    (counter : Nat) (first last : Node) (body : Block) : Prop where
  /-- The counter is a variable of the kind. -/
  declared : ∃ declared, recorded.locals[counter]? = some declared ∧
    declared.type = .scalar kind
  /-- In typed frames, what the ends evaluate to is of the kind. -/
  typed : ∀ (program : Program) (activation : Activation) (frame : Frame),
    activation.recorded = recorded → activation.Sound program → frame.Sound activation →
      ∀ node ∈ [first, last], ∀ value, activation.scalar frame node = .ok value →
        value.kind = kind
  /-- Where the ends evaluate to integers of the kind, the loop runs its body for those from the
  first up to the last. -/
  visits : ∀ (activation : Activation) (call : Callee) (frame : Frame) (start bound : Scalar)
    (rounds : Nat), activation.recorded = recorded →
      activation.scalar frame first = .ok start → activation.scalar frame last = .ok bound →
        start.kind = kind → bound.kind = kind →
          (bound.integer - start.integer).toNat < rounds →
            Statement.run activation call rounds frame (.range counter first last body) =
              visitEach (fun frame => runBlock activation call rounds frame body) counter
                (start.countEnd bound) (start.upTo bound) frame
  /-- A round begins with the value of the counter. -/
  begins : ∀ (frame : Frame) (value : HostValue), frame.Proper recorded →
    (Activation.setVariable frame counter value).Proper recorded ∧
      (Activation.setVariable frame counter value).cells[counter]? = some value
  /-- No round changes the counter or the bound, and no statement in it does. -/
  rounds : recorded.KeepsLoop counter last fun activation call rounds frame =>
    runBlock activation call rounds frame body
  steps : ∀ statement ∈ blockAll body,
    recorded.KeepsLoop counter last fun activation call rounds frame =>
      statement.run activation call rounds frame

namespace Activation

variable {activation : Activation} {context : TraceContext} {node : Node} {kind : ScalarKind}

theorem kind_of_scalar {program : Program} {frame : Frame} {value : Scalar}
    (sound : activation.Sound program) (frameSound : frame.Sound activation)
    (known : (activation.recorded.inventory context).At node (.scalar kind) none)
    (ran : activation.scalar frame node = .ok value) : value.kind = kind := by
  have provides : frame.Provides [] := fun _ impossible => nomatch impossible
  have valued : Meets (activation.value frame node) (fun _ => True) (HasType (.scalar kind)) :=
    (value_meets (meaning_meets sound frameSound provides known)).forgive fun _ _ => trivial
  have scalar : Meets (activation.scalar frame node) (fun _ => True) fun value =>
      value.kind = kind := by
    apply Meets.bind valued
    intro whole _ typed
    obtain ⟨scalar, rfl, same⟩ := hasType_scalar.mp typed
    exact .ok same
  exact scalar.of_eq_ok ran

theorem scalar_unchanged {bound binders : List Binder} {before after : Frame}
    (sound : activation.recorded.Sound context) (proper : before.Proper activation.recorded)
    (operand : (activation.recorded.inventory context).Operand bound node (.scalar kind))
    (apart : bound.Disjoint binders) (leaves : before.Leaves activation.recorded binders after) :
    activation.scalar after node = activation.scalar before node := by
  obtain ⟨⟨entry, found, _, plain⟩, ready⟩ := operand
  have same : activation.meaning after node = activation.meaning before node := by
    by_cases inlined : entry.isInlined = true
    · exact meaning_of_spelled sound proper leaves.proper found plain inlined
    · cases ready with
      | bound available =>
          exact meaning_of_emitted found inlined (leaves.meanings node.index (apart available))
      | inlined again isInlined =>
          cases found.symm.trans again
          exact absurd isInlined inlined
  rw [scalar, scalar, value_congr sound proper found plain same]

end Activation

theorem RecordedFunction.countsThrough {recorded : RecordedFunction} {context : TraceContext}
    {block body : Block} {bound : List Binder} {counter : Nat} {first last : Node}
    (sound : recorded.Sound context) (respects : recorded.Respects)
    (once : recorded.BindsOnce) (same : recorded.body = .statements block)
    (stands : Stands [] block bound (.range counter first last body)) :
    ∃ kind, kind.isInteger = true ∧ recorded.CountsThrough kind counter first last body := by
  obtain ⟨_, checked⟩ := stands.checked (sound.checked block same)
  simp only [Statement.Checked] at checked
  obtain ⟨declared, known, integer, firstOperand, lastOperand, bodyChecked⟩ := checked
  obtain ⟨kind, typed⟩ : ∃ kind, declared.type = .scalar kind := by
    cases typed : declared.type with
    | scalar kind => exact ⟨kind, rfl⟩
    | _ =>
        rw [typed] at integer
        cases integer
  rw [typed] at integer firstOperand lastOperand
  have inside : ∀ inner ∈ blockAll body, inner ∈ blockAll block := by
    intro inner member
    have own : inner ∈ (Statement.range counter first last body).all :=
      List.mem_cons_of_mem _ member
    exact stands.mem_blockAll_of_mem_all own
  -- binders before the loop, its counter and the binders of its body stand apart
  have apart : (bound ++ .variable counter :: blockBinders body).Nodup :=
    (once block same).sublist stands.sublist
  obtain ⟨_, inner, outside⟩ := List.nodup_append'.mp apart
  have keeps {activation : Activation} {before after : Frame} (own : activation.recorded = recorded)
      (proper : before.Proper recorded) (leaves : before.Leaves recorded (blockBinders body) after) :
      after.Proper recorded ∧ after.cells[counter]? = before.cells[counter]? ∧
        activation.scalar after last = activation.scalar before last := by
    subst own
    have readOnly : activation.recorded.ReadOnly counter :=
      respects.counters block counter first last body same stands.mem_blockAll
    exact ⟨leaves.proper, leaves.cells counter readOnly (List.nodup_cons.mp inner).1,
      Activation.scalar_unchanged sound proper lastOperand
        (List.disjoint_of_disjoint_cons_right outside) leaves⟩
  refine ⟨kind, integer, ⟨declared, known, typed⟩, ?_, ?_, ?_, ?_, ?_⟩
  · rintro program activation frame rfl activationSound frameSound node member value
    apply Activation.kind_of_scalar activationSound frameSound
    rcases List.mem_cons.mp member with rfl | member
    · exact firstOperand.known
    · rw [List.mem_singleton.mp member]
      exact lastOperand.known
  · intro activation call frame start limit rounds _ firstValue lastValue startKind limitKind enough
    rw [Statement.run, lastValue, firstValue]
    exact Activation.countRounds_eq (startKind ▸ integer) (limitKind.trans startKind.symm) enough
      frame
  · intro frame value proper
    have room : counter < frame.cells.size := by
      rw [proper.room]
      exact (Array.getElem?_eq_some_iff.mp known).1
    refine ⟨proper.setVariable counter value, ?_⟩
    rw [Activation.setVariable, Array.getElem?_setIfInBounds_self, if_pos room]
  · rintro activation call rounds before after flow rfl proper ran
    have leaves := (runBlock_leaves sound bodyChecked (fun target source stores =>
      respects.stores block target source same (inside _ stores)) proper).holds ran
    exact keeps rfl proper leaves
  · rintro statement member activation call rounds before after flow rfl proper ran
    have leaves := (respects.run_leaves sound same (inside _ member) proper).holds ran
    exact keeps rfl proper (leaves.widen fun _ => mem_blockBinders member)

/-- Range loops visit the integers from their start up to their bound. In every recording, runs
begin with a proper frame, and the statements of the body keep frames proper. In such frames,
every range loop runs its body once for each integer from the start up to the bound, the bound not
included, with the counter standing for it, unless a round fails, leaves the loop or gives back.
The counter is increased by exactly one, and no round changes the counter or the bound. -/
theorem Program.ranges_visitIntervals {program : Program} {roots : List ShaderFunction}
    (known : ∀ root ∈ roots, program.find? root.id = some root) (journal : Journal) :
    ∀ recorded ∈ (program.attemptAll roots { journal := journal }).context.finished,
      ∀ block, recorded.body = .statements block →
        recorded.frame.Proper recorded ∧
        (∀ statement ∈ blockAll block, ∀ activation call rounds before after flow,
          activation.recorded = recorded → before.Proper recorded →
            statement.run activation call rounds before = .ok (after, flow) →
              after.Proper recorded) ∧
        ∀ counter first last body, .range counter first last body ∈ blockAll block →
          ∃ kind, kind.isInteger = true ∧ recorded.CountsThrough kind counter first last body ∧
            ∀ start bound : Scalar, start.kind = kind → bound.kind = kind →
              (start.upTo bound).map Scalar.integer =
                (List.range (bound.integer - start.integer).toNat).map (fun step : Nat =>
                  start.integer + step) ∧
              ∀ current ∈ start.upTo bound, current.kind = kind ∧
                ∃ following, Scalar.applyBinary .add current
                    ((Scalar.u32 1).convert current.kind) = some following ∧
                  following.kind = kind ∧ following.integer = current.integer + 1 := by
  intro recorded member block body
  have sound := Program.sound_of_attemptAll known member
  have makes := Program.makes_of_attemptAll member
  refine ⟨recorded.frame_proper, ?_, ?_⟩
  · rintro statement inside activation call rounds before after flow rfl proper ran
    exact ((makes.respects.run_leaves sound body inside proper).holds ran).proper
  · intro counter first last inner inside
    obtain ⟨bound, stands⟩ := exists_stands_of_mem_blockAll _ inside
    obtain ⟨kind, isInteger, counts⟩ :=
      RecordedFunction.countsThrough sound makes.respects makes.bindsOnce body stands
    refine ⟨kind, isInteger, counts, ?_⟩
    rintro start bound rfl same
    obtain ⟨numbers, increments⟩ := Scalar.upTo_exact isInteger same
    refine ⟨numbers, fun current visited => ?_⟩
    obtain ⟨currentKind, following, counted, followingKind, next⟩ := increments current visited
    exact ⟨currentKind, following, counted, followingKind.trans currentKind, next⟩

def exampleOddSum : ShaderFunction where
  id := ⟨0⟩
  signature := ⟨"odd_sum", [⟨"limit", .i32⟩], some .i32, none⟩
  implementation := .script
    (.ofList [
      .declare "total" none (.literal (.i32 0)),
      .range "number" (.literal (.i32 Int32.minValue)) (.register "$0") (.ofList [
        .binary "parity" .rem (.register "number") (.literal (.i32 2)),
        .binary "even" .equal (.register "parity") (.literal (.i32 0)),
        .branch (.register "even") (.ofList [.nextRound]) .done,
        .binary "sum" .add (.register "total") (.register "number"),
        .store "total" (.register "sum")])])
    (some (.register "total"))

def RecordedFunction.countsWith (recorded : RecordedFunction) (type : TypeDescriptor) :
    Statement → Bool
  | .range counter _ _ _ => recorded.locals[counter]?.map LocalVariable.type == some type
  | _ => false

theorem ranges_visitIntervals_exampleOddSum :
    let program : Program := ⟨[exampleOddSum]⟩
    ∃ recorded ∈ (program.attemptAll [exampleOddSum] {}).context.finished,
      ∃ counter first last body, recorded.CountsThrough .i32 counter first last body ∧
        ((Scalar.i32 Int32.minValue).upTo (.i32 (-2147483645))).map Scalar.integer =
          [-2147483648, -2147483647, -2147483646] := by
  intro program
  have known : ∀ root ∈ [exampleOddSum], program.find? root.id = some root := by
    intro root member
    rw [List.mem_singleton.mp member]
    rfl
  have listed : (program.attemptAll [exampleOddSum] {}).context.finished.any (fun recorded =>
      recorded.hasBlock fun block => (blockAll block).any (recorded.countsWith .i32)) = true := by
    decide +kernel
  obtain ⟨recorded, member, passes⟩ := List.any_eq_true.mp listed
  obtain ⟨block, body, counted⟩ := RecordedFunction.exists_of_hasBlock passes
  obtain ⟨statement, inside, counted⟩ := List.any_eq_true.mp counted
  cases statement with
  | range counter first last inner =>
      obtain ⟨_, _, ranges⟩ := Program.ranges_visitIntervals known {} recorded member block body
      obtain ⟨kind, _, counts, numbers⟩ := ranges counter first last inner inside
      obtain ⟨declared, found, typed⟩ := counts.declared
      simp only [RecordedFunction.countsWith, found, Option.map_some, typed, beq_iff_eq,
        Option.some.injEq, TypeDescriptor.scalar.injEq] at counted
      subst counted
      exact ⟨recorded, member, counter, first, last, inner, counts,
        (numbers (.i32 Int32.minValue) (.i32 (-2147483645)) rfl rfl).1⟩
  | _ => cases counted

end ShaderKit
