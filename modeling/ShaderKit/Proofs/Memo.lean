import Mathlib.Data.List.Dedup
import ShaderKit.Memo

/-!
# Runs of memos

A memo is asked and cleared in any order. Two answers are one shared object exactly if their
requests have the same key and the memo was not cleared between them, and each answer was
computed for a request with that key.
-/

namespace ShaderKit

inductive MemoRequest (ρ : Type) where
  | ask (request : ρ)
  | clear
deriving DecidableEq, Repr

inductive MemoEvent (ρ ε α : Type) where
  | asked (request : ρ) (answer : Except ε (Handle α))
  | cleared

namespace MemoEvent

variable {ρ ε α : Type}

def request : MemoEvent ρ ε α → MemoRequest ρ
  | .asked request _ => .ask request
  | .cleared => .clear

/-- The requests that were answered since the memo was last cleared, with their answers. The log
and the answers stand newest first. -/
def answered : List (MemoEvent ρ ε α) → List (ρ × Handle α)
  | [] | .cleared :: _ => []
  | .asked request (.ok handle) :: earlier => (request, handle) :: answered earlier
  | .asked _ (.error _) :: earlier => answered earlier

theorem mem_answered_iff {log : List (MemoEvent ρ ε α)} {request : ρ} {handle : Handle α} :
    (request, handle) ∈ answered log ↔ ∃ between earlier,
      log = between ++ .asked request (.ok handle) :: earlier ∧ .cleared ∉ between := by
  constructor
  · intro member
    fun_induction answered log with
    | case1 | case2 => cases member
    | case3 other shared earlier induction =>
        rcases List.mem_cons.mp member with same | member
        · cases same
          exact ⟨[], earlier, rfl, List.not_mem_nil⟩
        · have ⟨between, rest, same, away⟩ := induction member
          exact ⟨_ :: between, rest, congrArg (List.cons _) same, by simpa using away⟩
    | case4 other error earlier induction =>
        have ⟨between, rest, same, away⟩ := induction member
        exact ⟨_ :: between, rest, congrArg (List.cons _) same, by simpa using away⟩
  · rintro ⟨between, earlier, rfl, away⟩
    induction between with
    | nil => exact List.mem_cons_self
    | cons event between induction =>
        rw [List.mem_cons, not_or] at away
        have member := induction away.2
        rcases event with ⟨other, error | shared⟩ | _
        · exact member
        · exact List.mem_cons_of_mem _ member
        · exact (away.1 rfl).elim

theorem mem_of_mem_answered {log : List (MemoEvent ρ ε α)} {request : ρ} {handle : Handle α}
    (member : (request, handle) ∈ answered log) : .asked request (.ok handle) ∈ log := by
  have ⟨_, _, same, _⟩ := mem_answered_iff.mp member
  simp [same]

/-- What happened before the memo was last cleared. -/
def beforeClear : List (MemoEvent ρ ε α) → List (MemoEvent ρ ε α)
  | [] => []
  | .cleared :: earlier => earlier
  | .asked _ _ :: earlier => beforeClear earlier

theorem mem_beforeClear {between : List (MemoEvent ρ ε α)} {event : MemoEvent ρ ε α}
    (earlier : List (MemoEvent ρ ε α)) (member : .cleared ∈ between) :
    event ∈ beforeClear (between ++ event :: earlier) := by
  induction between with
  | nil => cases member
  | cons last between induction =>
      cases last with
      | asked => exact induction (by simpa using member)
      | cleared => simp [beforeClear]

theorem mem_of_mem_beforeClear {log : List (MemoEvent ρ ε α)} {event : MemoEvent ρ ε α}
    (member : event ∈ beforeClear log) : event ∈ log := by
  induction log with
  | nil => cases member
  | cons last log induction =>
      cases last with
      | asked => exact List.mem_cons_of_mem _ (induction member)
      | cleared => exact List.mem_cons_of_mem _ member

end MemoEvent

namespace Memo

variable {ρ κ ε α : Type} [DecidableEq κ]

/-! ## Looking up -/

section

variable {memo : Memo κ α} {key other : κ}

theorem find?_eq_none_iff : memo.find? key = none ↔ key ∉ memo.entries.map Prod.fst := by
  simp only [find?, Option.map_eq_none_iff, List.find?_eq_none, decide_eq_true_eq, List.mem_map,
    not_exists, not_and]

theorem find?_insert (value : α) : (memo.insert key value).1.find? other =
    if key = other then some ⟨memo.nextTicket, value⟩ else memo.find? other := by
  by_cases same : key = other <;> simp [find?, insert, same]

end

/-! ## One step -/

/-- What one use of a memo does. A request whose key is stored is answered by what is stored;
another one is answered by a computation, and the answer is stored unless it is a failure. -/
inductive Step (key : ρ → κ) (computes : ρ → Except ε α → Prop) (memo : Memo κ α) :
    MemoEvent ρ ε α → Memo κ α → Prop
  | recalled {request : ρ} {handle : Handle α} (found : memo.find? (key request) = some handle) :
      Step key computes memo (.asked request (.ok handle)) memo
  | failed {request : ρ} {error : ε} (new : memo.find? (key request) = none)
      (computed : computes request (.error error)) :
      Step key computes memo (.asked request (.error error)) memo
  | stored {request : ρ} {value : α} (new : memo.find? (key request) = none)
      (computed : computes request (.ok value)) :
      Step key computes memo (.asked request (.ok ⟨memo.nextTicket, value⟩))
        (memo.insert (key request) value).1
  | cleared : Step key computes memo .cleared memo.clear

theorem getOrCompute_step (key : ρ → κ) (memo : Memo κ α) (compute : κ → Except ε α)
    (request : ρ) :
    Step key (fun request answer => compute (key request) = answer) memo
      (.asked request (memo.getOrCompute (key request) compute).2)
      (memo.getOrCompute (key request) compute).1 := by
  unfold getOrCompute
  split
  next handle found => exact .recalled found
  next new =>
    split
    next error computed => exact .failed new computed
    next value computed => exact .stored new computed

inductive Reached (key : ρ → κ) (computes : ρ → Except ε α → Prop) :
    List (MemoEvent ρ ε α) → Memo κ α → Prop
  | new : Reached key computes [] {}
  | step {log : List (MemoEvent ρ ε α)} {memo next : Memo κ α} {event : MemoEvent ρ ε α}
      (reached : Reached key computes log memo) (step : Step key computes memo event next) :
      Reached key computes (event :: log) next

/-! ## What every step keeps -/

/-- What a memo knows after a log. -/
structure Records (key : ρ → κ) (computes : ρ → Except ε α → Prop)
    (log : List (MemoEvent ρ ε α)) (memo : Memo κ α) : Prop where
  /-- What was answered since the last clear is stored. -/
  known : ∀ request handle, (request, handle) ∈ MemoEvent.answered log →
    memo.find? (key request) = some handle
  /-- What is stored was computed since the last clear. -/
  computed : ∀ asked handle, memo.find? asked = some handle →
    ∃ request, (request, handle) ∈ MemoEvent.answered log ∧ key request = asked ∧
      computes request (.ok handle.value)
  keys : memo.entries.map Prod.fst =
    ((MemoEvent.answered log).map fun answer => key answer.1).dedup
  below : ∀ request handle, .asked request (.ok handle) ∈ log → handle.ticket < memo.nextTicket
  /-- Different keys have different tickets. -/
  apart : ∀ first second one two, memo.find? first = some one → memo.find? second = some two →
    one.ticket = two.ticket → first = second
  /-- No ticket from before a clear is stored. -/
  dropped : ∀ request old, .asked request (.ok old) ∈ MemoEvent.beforeClear log →
    ∀ asked handle, memo.find? asked = some handle → old.ticket ≠ handle.ticket

variable {key : ρ → κ} {computes : ρ → Except ε α → Prop} {log : List (MemoEvent ρ ε α)}
  {memo next : Memo κ α} {event : MemoEvent ρ ε α}

theorem records_new : Records key computes [] ({} : Memo κ α) where
  known _ _ member := by cases member
  computed _ _ found := by cases found
  keys := rfl
  below _ _ member := by cases member
  apart _ _ _ _ found := by cases found
  dropped _ _ member := by cases member

namespace Records

theorem find_below (records : Records key computes log memo) {asked : κ} {handle : Handle α}
    (found : memo.find? asked = some handle) : handle.ticket < memo.nextTicket := by
  have ⟨request, member, _⟩ := records.computed asked handle found
  exact records.below request handle (MemoEvent.mem_of_mem_answered member)

theorem recalled (records : Records key computes log memo) {request : ρ} {handle : Handle α}
    (found : memo.find? (key request) = some handle) :
    Records key computes (.asked request (.ok handle) :: log) memo where
  known other shared member := by
    rcases List.mem_cons.mp member with same | member
    · cases same
      exact found
    · exact records.known other shared member
  computed asked shared found := by
    have ⟨first, member, rest⟩ := records.computed asked shared found
    exact ⟨first, List.mem_cons_of_mem _ member, rest⟩
  keys := by
    have ⟨first, member, same, _⟩ := records.computed _ _ found
    have seen : key request ∈ (MemoEvent.answered log).map fun answer => key answer.1 :=
      List.mem_map.mpr ⟨_, member, same⟩
    rw [MemoEvent.answered, List.map_cons, List.dedup_cons_of_mem seen]
    exact records.keys
  below other shared member := by
    rcases List.mem_cons.mp member with same | member
    · cases same
      exact records.find_below found
    · exact records.below other shared member
  apart := records.apart
  dropped := records.dropped

theorem failed (records : Records key computes log memo) (request : ρ) (error : ε) :
    Records key computes (.asked request (.error error) :: log) memo where
  known := records.known
  computed := records.computed
  keys := records.keys
  below other shared member := by
    rcases List.mem_cons.mp member with same | member
    · cases same
    · exact records.below other shared member
  apart := records.apart
  dropped := records.dropped

theorem stored (records : Records key computes log memo) {request : ρ} {value : α}
    (new : memo.find? (key request) = none) (computed : computes request (.ok value)) :
    Records key computes (.asked request (.ok ⟨memo.nextTicket, value⟩) :: log)
      (memo.insert (key request) value).1 where
  known other shared member := by
    rw [find?_insert]
    rcases List.mem_cons.mp member with same | member
    · cases same
      rw [if_pos rfl]
    · have found := records.known other shared member
      rw [if_neg (fun same => by simp [same, found] at new)]
      exact found
  computed asked shared found := by
    rw [find?_insert] at found
    split at found
    next same =>
      cases found
      exact ⟨request, List.mem_cons_self, same, computed⟩
    next =>
      have ⟨first, member, rest⟩ := records.computed asked shared found
      exact ⟨first, List.mem_cons_of_mem _ member, rest⟩
  keys := by
    have unseen : key request ∉ (MemoEvent.answered log).map fun answer => key answer.1 := by
      rw [← List.mem_dedup, ← records.keys]
      exact find?_eq_none_iff.mp new
    rw [MemoEvent.answered, List.map_cons, List.dedup_cons_of_notMem unseen, ← records.keys]
    rfl
  below other shared member := by
    rcases List.mem_cons.mp member with same | member
    · cases same
      exact Nat.lt_succ_self _
    · exact Nat.lt_succ_of_lt (records.below other shared member)
  apart first second one two foundOne foundTwo same := by
    rw [find?_insert] at foundOne foundTwo
    split at foundOne <;> split at foundTwo
    next equal equalToo => exact equal.symm.trans equalToo
    next =>
      cases foundOne
      exact absurd same.symm (Nat.ne_of_lt (records.find_below foundTwo))
    next =>
      cases foundTwo
      exact absurd same (Nat.ne_of_lt (records.find_below foundOne))
    next => exact records.apart first second one two foundOne foundTwo same
  dropped other old member asked shared found := by
    rw [find?_insert] at found
    split at found
    next =>
      cases found
      exact Nat.ne_of_lt (records.below other old (MemoEvent.mem_of_mem_beforeClear member))
    next => exact records.dropped other old member asked shared found

theorem cleared (records : Records key computes log memo) :
    Records key computes (.cleared :: log) memo.clear where
  known _ _ member := by cases member
  computed _ _ found := by cases found
  keys := rfl
  below other shared member := by
    rcases List.mem_cons.mp member with same | member
    · cases same
    · exact records.below other shared member
  apart _ _ _ _ found := by cases found
  dropped _ _ _ _ _ found := by cases found

theorem step (records : Records key computes log memo) (step : Step key computes memo event next) :
    Records key computes (event :: log) next := by
  cases step with
  | recalled found => exact records.recalled found
  | failed => exact records.failed _ _
  | stored new computed => exact records.stored new computed
  | cleared => exact records.cleared

end Records

/-! ## What every run keeps -/

namespace Reached

theorem records (reached : Reached key computes log memo) : Records key computes log memo := by
  induction reached with
  | new => exact records_new
  | step _ step induction => exact induction.step step

theorem exists_step {later earlier : List (MemoEvent ρ ε α)}
    (reached : Reached key computes log memo) (split : log = later ++ event :: earlier) :
    ∃ before after, Reached key computes earlier before ∧
      Step key computes before event after := by
  subst split
  induction later generalizing memo with
  | nil =>
      cases reached with
      | step reached taken => exact ⟨_, _, reached, taken⟩
  | cons last later induction =>
      cases reached with
      | step reached => exact induction reached

/-- The number of stored answers is the number of different keys that have been answered since
the memo was last cleared. -/
theorem size_eq (reached : Reached key computes log memo) :
    memo.size = ((MemoEvent.answered log).map fun answer => key answer.1).dedup.length := by
  rw [← reached.records.keys, List.length_map, size]

/-- Two answers are one shared object exactly if their requests have the same key and the memo was
not cleared between them. -/
theorem shared_iff (reached : Reached key computes log memo)
    {later between earlier : List (MemoEvent ρ ε α)} {first second : ρ} {one two : Handle α}
    (split : log =
      later ++ .asked second (.ok two) :: (between ++ .asked first (.ok one) :: earlier)) :
    two.ticket = one.ticket ↔ key second = key first ∧ .cleared ∉ between := by
  have ⟨before, _, reached, taken⟩ := reached.exists_step split
  have records := reached.records
  have known (kept : .cleared ∉ between) : before.find? (key first) = some one :=
    records.known first one (MemoEvent.mem_answered_iff.mpr ⟨between, earlier, rfl, kept⟩)
  cases taken with
  | recalled found =>
      constructor
      · intro same
        have kept : .cleared ∉ between := by
          intro member
          have gone : .asked first (.ok one) ∈ MemoEvent.beforeClear _ :=
            MemoEvent.mem_beforeClear earlier member
          exact records.dropped first one gone (key second) two found same.symm
        exact ⟨records.apart _ _ _ _ found (known kept) same, kept⟩
      · rintro ⟨same, kept⟩
        rw [same, known kept] at found
        exact congrArg Handle.ticket (Option.some.inj found).symm
  | stored new =>
      constructor
      · intro same
        have below := records.below first one (by simp)
        exact absurd same.symm (Nat.ne_of_lt below)
      · rintro ⟨same, kept⟩
        rw [same, known kept] at new
        cases new

/-- What is answered was computed for a request with the same key, since the memo was last
cleared. -/
theorem exists_computed (reached : Reached key computes log memo)
    {later earlier : List (MemoEvent ρ ε α)} {request : ρ} {handle : Handle α}
    (split : log = later ++ .asked request (.ok handle) :: earlier) :
    ∃ first, (first, handle) ∈ MemoEvent.answered (.asked request (.ok handle) :: earlier) ∧
      key first = key request ∧ computes first (.ok handle.value) := by
  have ⟨_, _, reached, taken⟩ := reached.exists_step split
  have records := (reached.step taken).records
  exact records.computed _ _ (records.known request handle List.mem_cons_self)

theorem computes_of_error (reached : Reached key computes log memo) {request : ρ} {error : ε}
    (member : .asked request (.error error) ∈ log) : computes request (.error error) := by
  have ⟨_, _, split⟩ := List.append_of_mem member
  have ⟨_, _, _, taken⟩ := reached.exists_step split
  cases taken with
  | failed _ computed => exact computed

end Reached

end Memo

/-! ## Runs of requests -/

structure MemoRun (κ ρ ε α : Type) where
  memo : Memo κ α := {}
  log : List (MemoEvent ρ ε α) := []

namespace MemoRun

variable {κ ρ ε α : Type}

section

variable (ask : Memo κ α → ρ → Memo κ α × Except ε (Handle α))

def perform (run : MemoRun κ ρ ε α) : MemoRequest ρ → MemoRun κ ρ ε α
  | .ask request =>
      let (memo, answer) := ask run.memo request
      ⟨memo, .asked request answer :: run.log⟩
  | .clear => ⟨run.memo.clear, .cleared :: run.log⟩

def ofRequests (requests : List (MemoRequest ρ)) : MemoRun κ ρ ε α :=
  requests.foldl (perform ask) {}

theorem map_request_log (requests : List (MemoRequest ρ)) :
    (ofRequests ask requests).log.map MemoEvent.request = requests.reverse := by
  suffices every : ∀ run, (requests.foldl (perform ask) run).log.map MemoEvent.request =
      requests.reverse ++ run.log.map MemoEvent.request by
    exact (every {}).trans (List.append_nil _)
  induction requests with
  | nil => exact fun run => rfl
  | cons request rest induction =>
      intro run
      have performed : (run.perform ask request).log.map MemoEvent.request =
          request :: run.log.map MemoEvent.request := by cases request <;> rfl
      rw [List.foldl_cons, induction, performed, List.reverse_cons, List.append_assoc,
        List.singleton_append]

end

/-- If asking is a step, a run comes to its memo by steps. -/
theorem ofRequests_reached [DecidableEq κ] {key : ρ → κ} {computes : ρ → Except ε α → Prop}
    {ask : Memo κ α → ρ → Memo κ α × Except ε (Handle α)}
    (steps : ∀ memo request,
      Memo.Step key computes memo (.asked request (ask memo request).2) (ask memo request).1)
    (requests : List (MemoRequest ρ)) :
    Memo.Reached key computes (ofRequests ask requests).log (ofRequests ask requests).memo := by
  suffices every : ∀ run : MemoRun κ ρ ε α, Memo.Reached key computes run.log run.memo →
      Memo.Reached key computes (requests.foldl (perform ask) run).log
        (requests.foldl (perform ask) run).memo from every {} .new
  induction requests with
  | nil => exact fun run reached => reached
  | cons request rest induction =>
      intro run reached
      apply induction
      cases request with
      | ask request => exact reached.step (steps run.memo request)
      | clear => exact reached.step .cleared

end MemoRun

end ShaderKit
