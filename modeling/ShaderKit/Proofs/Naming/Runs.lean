import Mathlib.Logic.Function.Basic
import ShaderKit.Proofs.Naming.Search

/-!
# Runs of registries

A registry hands out names, is forked and is dropped, and so are its forks. Whatever the order of
this is, a name that is handed out is new to the registry and to those that it descends from, and a
family of forks leaves no trace in the other registries.
-/

namespace ShaderKit

open Identifier (sanitize)

/-! ## What is done with registries -/

/-- The two calls that hand out a name: by the strategy of the registry, or from the label
whatever the strategy is. -/
inductive NameCall where
  | unique
  | uniqueLabel
deriving DecidableEq, Repr

namespace NameCall

def rule (call : NameCall) (registry : NameRegistry) : NamingStrategy :=
  match call with
  | .unique => registry.strategy
  | .uniqueLabel => .strict

def hand (call : NameCall) (registry : NameRegistry) (label : String) : NameRegistry × String :=
  match call with
  | .unique => registry.makeUnique label
  | .uniqueLabel => registry.makeUniqueLabel label

end NameCall

/-- Registries are told apart by numbers. A fork takes the place of what had its number. -/
inductive RegistryAction where
  | hand (registry : Nat) (call : NameCall) (label : String)
  | fork (parent child : Nat)
  | drop (registry : Nat)
deriving DecidableEq, Repr

def RegistryAction.target : RegistryAction → Nat
  | .hand registry _ _ | .drop registry => registry
  | .fork _ child => child

inductive RegistryEvent where
  | handed (registry : Nat) (rule : NamingStrategy) (label name : String)
  | forked (parent child : Nat)
  | dropped (registry : Nat)
deriving DecidableEq, Repr

def RegistryEvent.target : RegistryEvent → Nat
  | .handed registry _ _ _ | .dropped registry => registry
  | .forked _ child => child

structure Registries where
  live : Nat → Option NameRegistry
  log : List RegistryEvent := []

namespace Registries

def start (strategy : NamingStrategy) : Registries where
  live number := if number = 0 then some (.new strategy) else none

def perform (registries : Registries) (action : RegistryAction) : Registries :=
  match action with
  | .hand number call label =>
      match registries.live number with
      | none => registries
      | some registry =>
          let (after, name) := call.hand registry label
          { live := Function.update registries.live number (some after)
            log := .handed number (call.rule registry) label name :: registries.log }
  | .fork parent child =>
      match registries.live parent with
      | none => registries
      | some registry =>
          { live := Function.update registries.live child (some registry.fork)
            log := .forked parent child :: registries.log }
  | .drop number =>
      match registries.live number with
      | none => registries
      | some _ =>
          { live := Function.update registries.live number none
            log := .dropped number :: registries.log }

def run (registries : Registries) (actions : List RegistryAction) : Registries :=
  actions.foldl perform registries

/-! ## What a registry knows -/

/-- The names that a registry has handed out, and before it was forked the registries that it
descends from. -/
def known : List RegistryEvent → Nat → List String
  | [], _ => []
  | .handed other _ _ name :: earlier, registry =>
      if other = registry then name :: known earlier registry else known earlier registry
  | .forked parent child :: earlier, registry =>
      if child = registry then known earlier parent else known earlier registry
  | .dropped _ :: earlier, registry => known earlier registry

/-- A name that a registry may hand out: it can be declared, no standard function has it, and the
registry does not know it. -/
def Free (log : List RegistryEvent) (registry : Nat) (name : String) : Prop :=
  Identifier.isValid name = true ∧ name ∉ StandardFunction.names ∧ name ∉ known log registry

/-- The name for a label is the sanitized label if that is free, and otherwise has the least number
behind it that makes it free. -/
def Derived (log : List RegistryEvent) (registry : Nat) (label name : String) : Prop :=
  (Free log registry (sanitize label) → name = sanitize label) ∧
    (¬ Free log registry (sanitize label) →
      ∃ number, 1 ≤ number ∧ name = sanitize label ++ "_" ++ toString number ∧
        ∀ less, 1 ≤ less → less < number →
          ¬ Free log registry (sanitize label ++ "_" ++ toString less))

def compactNames : List RegistryEvent → List String
  | [] => []
  | .handed _ .compact _ name :: earlier => name :: compactNames earlier
  | _ :: earlier => compactNames earlier

/-- What is true of a name when it is handed out. -/
def Proper (earlier : List RegistryEvent) : RegistryEvent → Prop
  | .handed registry rule label name =>
      Free earlier registry name ∧ (rule = .strict → Derived earlier registry label name)
  | _ => True

/-- The numbered names have growing numbers, and all of them are below a bound. -/
def Growing (names : List String) (bound : Nat) : Prop :=
  ∃ numbers : List Nat, names = numbers.map (NameRegistry.numbered NameRegistry.compactTag) ∧
    numbers.Pairwise (· > ·) ∧ ∀ number ∈ numbers, number < bound

/-! ## What every run keeps -/

/-- Registries use what they know. Only the first registry numbers its names, and its counter is
beyond the numbers so far. -/
structure Consistent (registries : Registries) : Prop where
  used : ∀ number registry, registries.live number = some registry →
    registry.used = known registries.log number ++ StandardFunction.names
  numbering : ∀ number registry, registries.live number = some registry →
    registry.strategy = .compact →
      number = 0 ∧ Growing (compactNames registries.log) registry.compactCounter
  proper : ∀ later event earlier, registries.log = later ++ event :: earlier →
    Proper earlier event
  growing : ∃ bound, Growing (compactNames registries.log) bound

variable {registries : Registries} {number : Nat} {registry : NameRegistry}

theorem Growing.cons {names : List String} {bound found : Nat} (growing : Growing names bound)
    (le : bound ≤ found) :
    Growing (NameRegistry.numbered NameRegistry.compactTag found :: names) (found + 1) := by
  rcases growing with ⟨numbers, same, decreasing, below⟩
  refine ⟨found :: numbers, by rw [same, List.map_cons],
    List.pairwise_cons.mpr ⟨?_, decreasing⟩, ?_⟩
  · intro number member
    have := below number member
    omega
  · intro number member
    rcases List.mem_cons.mp member with rfl | member
    · exact Nat.lt_succ_self _
    · have := below number member
      omega

theorem update_cases {live : Nat → Option NameRegistry} {target other : Nat}
    {now : Option NameRegistry} (same : Function.update live target now other = some registry) :
    other = target ∧ now = some registry ∨ other ≠ target ∧ live other = some registry := by
  by_cases equal : other = target
  · subst equal
    rw [Function.update_self] at same
    exact .inl ⟨rfl, same⟩
  · rw [Function.update_of_ne equal] at same
    exact .inr ⟨equal, same⟩

theorem consistent_start (strategy : NamingStrategy) : Consistent (start strategy) where
  used := by
    intro number registry found
    simp only [start] at found
    split at found <;> cases found
    rfl
  numbering := by
    intro number registry found compact
    simp only [start] at found
    split at found
    next zero => exact ⟨zero, [], rfl, .nil, nofun⟩
    next => cases found
  proper := by
    intro later event earlier same
    cases later <;> cases same
  growing := ⟨0, [], rfl, .nil, nofun⟩

namespace Consistent

theorem isTaken_eq_false_iff (consistent : Consistent registries)
    (found : registries.live number = some registry) (name : String) :
    registry.isTaken name = false ↔ Free registries.log number name := by
  rw [NameRegistry.isTaken_eq_false, consistent.used number registry found, List.mem_append,
    not_or, Free]
  tauto

theorem derived_nameFor (consistent : Consistent registries)
    (found : registries.live number = some registry) (label : String) :
    Derived registries.log number label (registry.nameFor label) := by
  have free := consistent.isTaken_eq_false_iff found
  have notFree (name : String) (taken : registry.isTaken name = true) :
      ¬ Free registries.log number name := by
    rw [← free, taken]
    exact Bool.noConfusion
  rcases registry.nameFor_cases label with ⟨untaken, same⟩ | ⟨taken, least, search, same⟩
  · exact ⟨fun _ => same, fun occupied => absurd ((free _).mp untaken) occupied⟩
  · refine ⟨fun unoccupied => absurd unoccupied (notFree _ taken), fun _ => ?_⟩
    exact ⟨least, search.le, same, fun less atLeast below =>
      notFree _ (search.isTaken_of_lt atLeast below)⟩

theorem proper_hand (consistent : Consistent registries)
    (found : registries.live number = some registry) (call : NameCall) (label : String) :
    Proper registries.log
      (.handed number (call.rule registry) label (call.hand registry label).2) := by
  have free := consistent.isTaken_eq_false_iff found
  cases call with
  | uniqueLabel =>
      exact ⟨(free _).mp (registry.makeUniqueLabel_hands label).free,
        fun _ => consistent.derived_nameFor found label⟩
  | unique =>
      refine ⟨(free _).mp (registry.makeUnique_hands label).free, fun strict => ?_⟩
      have strict : registry.strategy = .strict := strict
      have same : (registry.makeUnique label).2 = registry.nameFor label := by
        rw [NameRegistry.makeUnique, strict]
        rfl
      have derived := consistent.derived_nameFor found label
      rwa [← same] at derived

end Consistent

section

variable (call : NameCall) (registry : NameRegistry) (label : String)

theorem hand_used :
    (call.hand registry label).1.used = (call.hand registry label).2 :: registry.used := by
  cases call with
  | unique => exact (registry.makeUnique_hands label).used
  | uniqueLabel => exact (registry.makeUniqueLabel_hands label).used

theorem hand_strategy : (call.hand registry label).1.strategy = registry.strategy := by
  cases call with
  | uniqueLabel => rfl
  | unique =>
      rw [NameCall.hand, NameRegistry.makeUnique]
      split <;> rfl

theorem hand_compact (compact : call.rule registry = .compact) :
    ∃ found, registry.compactCounter ≤ found ∧
      (call.hand registry label).2 = NameRegistry.numbered NameRegistry.compactTag found ∧
      (call.hand registry label).1.compactCounter = found + 1 := by
  cases call with
  | uniqueLabel => cases compact
  | unique =>
      have compact : registry.strategy = .compact := compact
      have search := (@NameRegistry.search_freeNumber NameRegistry.compactTag registry
        (by decide) registry.compactCounter).1
      refine ⟨_, search.le, ?_⟩
      rw [NameCall.hand, NameRegistry.makeUnique, compact]
      exact ⟨rfl, rfl⟩

theorem hand_counter (strict : call.rule registry = .strict) :
    (call.hand registry label).1.compactCounter = registry.compactCounter := by
  cases call with
  | uniqueLabel => rfl
  | unique =>
      have strict : registry.strategy = .strict := strict
      rw [NameCall.hand, NameRegistry.makeUnique, strict]
      rfl

theorem rule_of_strict (strict : registry.strategy = .strict) : call.rule registry = .strict := by
  cases call with
  | unique => exact strict
  | uniqueLabel => rfl

end

theorem proper_cons {log : List RegistryEvent} {event : RegistryEvent} (first : Proper log event)
    (others : ∀ later other earlier, log = later ++ other :: earlier → Proper earlier other)
    (later : List RegistryEvent) (other : RegistryEvent) (earlier : List RegistryEvent)
    (same : event :: log = later ++ other :: earlier) : Proper earlier other := by
  cases later with
  | nil =>
      cases same
      exact first
  | cons _ later =>
      cases same
      exact others later other earlier rfl

namespace Consistent

theorem hand (consistent : Consistent registries)
    (found : registries.live number = some registry) (call : NameCall) (label : String) :
    Consistent
      { live := Function.update registries.live number (some (call.hand registry label).1)
        log := .handed number (call.rule registry) label (call.hand registry label).2 ::
          registries.log } := by
  -- The names that are numbered afterwards, below the counter of the registry that was asked.
  have grown (compact : (call.hand registry label).1.strategy = .compact) : number = 0 ∧
      Growing (compactNames (.handed number (call.rule registry) label
        (call.hand registry label).2 :: registries.log))
        (call.hand registry label).1.compactCounter := by
    rw [hand_strategy] at compact
    rcases consistent.numbering number registry found compact with ⟨first, growing⟩
    refine ⟨first, ?_⟩
    cases rule : call.rule registry with
    | strict =>
        rw [hand_counter call registry label rule]
        exact growing
    | compact =>
        rcases hand_compact call registry label rule with ⟨least, le, name, counter⟩
        rw [compactNames, name, counter]
        exact growing.cons le
  refine ⟨fun other known same => ?_, fun other known same compact => ?_,
    proper_cons (consistent.proper_hand found call label) consistent.proper, ?_⟩
  · rcases update_cases same with ⟨rfl, now⟩ | ⟨different, before⟩
    · cases now
      rw [hand_used, consistent.used _ _ found, Registries.known, if_pos rfl, List.cons_append]
    · rw [Registries.known, if_neg different.symm]
      exact consistent.used other known before
  · rcases update_cases same with ⟨rfl, now⟩ | ⟨different, before⟩
    · cases now
      exact grown compact
    · rcases consistent.numbering other known before compact with ⟨rfl, growing⟩
      have strict : registry.strategy = .strict := by
        cases naming : registry.strategy with
        | strict => rfl
        | compact =>
            exact absurd (consistent.numbering number registry found naming).1.symm different
      rw [rule_of_strict call registry strict]
      exact ⟨rfl, growing⟩
  · cases rule : call.rule registry with
    | strict => exact consistent.growing
    | compact =>
        have compact : registry.strategy = .compact := by
          cases naming : registry.strategy with
          | compact => rfl
          | strict => rw [rule_of_strict call registry naming] at rule; cases rule
        rw [← hand_strategy call registry label] at compact
        have growing := (grown compact).2
        rw [rule] at growing
        exact ⟨_, growing⟩

/-- One action keeps what registries know and how they number. -/
theorem perform (consistent : Consistent registries) (action : RegistryAction) :
    Consistent (registries.perform action) := by
  cases action with
  | hand number call label =>
      rw [Registries.perform]
      cases found : registries.live number with
      | none => exact consistent
      | some registry => exact consistent.hand found call label
  | fork parent child =>
      rw [Registries.perform]
      cases found : registries.live parent with
      | none => exact consistent
      | some registry =>
          refine ⟨fun other known same => ?_, fun other known same compact => ?_,
            proper_cons trivial consistent.proper, consistent.growing⟩
          · rcases update_cases same with ⟨rfl, now⟩ | ⟨different, before⟩
            · cases now
              rw [Registries.known, if_pos rfl]
              exact consistent.used parent registry found
            · rw [Registries.known, if_neg different.symm]
              exact consistent.used other known before
          · rcases update_cases same with ⟨rfl, now⟩ | ⟨different, before⟩
            · cases now
              cases compact
            · exact consistent.numbering other known before compact
  | drop number =>
      rw [Registries.perform]
      cases found : registries.live number with
      | none => exact consistent
      | some registry =>
          have kept {other : Nat} {known : NameRegistry}
              (same : Function.update registries.live number none other = some known) :
              registries.live other = some known := by
            rcases update_cases same with ⟨_, impossible⟩ | ⟨_, before⟩
            · cases impossible
            · exact before
          exact ⟨fun other known same => consistent.used other known (kept same),
            fun other known same => consistent.numbering other known (kept same),
            proper_cons trivial consistent.proper, consistent.growing⟩

theorem run (consistent : Consistent registries) (actions : List RegistryAction) :
    Consistent (registries.run actions) := by
  induction actions generalizing registries with
  | nil => exact consistent
  | cons action actions induction => exact induction (consistent.perform action)

end Consistent

/-! ## Families of forks -/

/-- Actions that make forks of the members of a family only inside the family. -/
def ClosedFamily (inside : Nat → Bool) (actions : List RegistryAction) : Prop :=
  ∀ parent child, .fork parent child ∈ actions → inside parent = true → inside child = true

/-- Two states that agree on the registries outside a family; the second has no events inside. -/
structure AgreeOutside (inside : Nat → Bool) (first second : Registries) : Prop where
  live : ∀ number, inside number = false → first.live number = second.live number
  log : second.log = first.log.filter fun event => !inside event.target

namespace AgreeOutside

variable {inside : Nat → Bool} {first second : Registries}

theorem outside (agree : AgreeOutside inside first second) (event : RegistryEvent)
    (away : inside event.target = false) (now : Option NameRegistry) :
    AgreeOutside inside
      { live := Function.update first.live event.target now, log := event :: first.log }
      { live := Function.update second.live event.target now, log := event :: second.log } where
  live := by
    intro number outside
    by_cases equal : number = event.target
    · simp [equal]
    · simpa [equal] using agree.live number outside
  log := by simp [away, agree.log]

theorem within (agree : AgreeOutside inside first second) (event : RegistryEvent)
    (member : inside event.target = true) (now : Option NameRegistry) :
    AgreeOutside inside
      { live := Function.update first.live event.target now, log := event :: first.log }
      second where
  live := by
    intro number outside
    have different : number ≠ event.target := by
      rintro rfl
      rw [member] at outside
      cases outside
    simpa [different] using agree.live number outside
  log := by simp [member, agree.log]

theorem perform_within (agree : AgreeOutside inside first second) (action : RegistryAction)
    (member : inside action.target = true) :
    AgreeOutside inside (first.perform action) second := by
  cases action with
  | hand number call label =>
      rw [perform]
      cases first.live number with
      | none => exact agree
      | some registry => exact agree.within (.handed number _ label _) member _
  | fork parent child =>
      rw [perform]
      cases first.live parent with
      | none => exact agree
      | some registry => exact agree.within (.forked parent child) member _
  | drop number =>
      rw [perform]
      cases first.live number with
      | none => exact agree
      | some registry => exact agree.within (.dropped number) member _

theorem perform_outside (agree : AgreeOutside inside first second) (action : RegistryAction)
    (away : inside action.target = false)
    (closed : ∀ parent child, action = .fork parent child → inside parent = false) :
    AgreeOutside inside (first.perform action) (second.perform action) := by
  cases action with
  | hand number call label =>
      rw [perform, perform, agree.live number away]
      cases second.live number with
      | none => exact agree
      | some registry => exact agree.outside (.handed number _ label _) away _
  | fork parent child =>
      rw [perform, perform, agree.live parent (closed parent child rfl)]
      cases second.live parent with
      | none => exact agree
      | some registry => exact agree.outside (.forked parent child) away _
  | drop number =>
      rw [perform, perform, agree.live number away]
      cases second.live number with
      | none => exact agree
      | some registry => exact agree.outside (.dropped number) away _

theorem run (agree : AgreeOutside inside first second) {actions : List RegistryAction}
    (closed : ClosedFamily inside actions) :
    AgreeOutside inside (first.run actions)
      (second.run (actions.filter fun action => !inside action.target)) := by
  induction actions generalizing first second with
  | nil => exact agree
  | cons action actions induction =>
      have rest : ClosedFamily inside actions :=
        fun parent child member => closed parent child (List.mem_cons_of_mem _ member)
      cases place : inside action.target with
      | true =>
          rw [List.filter_cons_of_neg (by simp [place])]
          exact induction (agree.perform_within action place) rest
      | false =>
          rw [List.filter_cons_of_pos (by simp [place])]
          refine induction (agree.perform_outside action place ?_) rest
          rintro parent child rfl
          rw [Bool.eq_false_iff]
          intro member
          have child := closed parent child List.mem_cons_self member
          rw [RegistryAction.target, child] at place
          cases place

end AgreeOutside

/-! ## Every run -/

/-- Every run of a registry and its forks. Both searches end wherever a name may be asked for. A
name that is handed out can be declared, no standard function has it, and it is new to the registry
and to what the registries that it descends from had handed out when they were forked; it is
derived from its label or has a number greater than those before. A family of forks can be left out
without a trace in any other registry. -/
theorem run_distinguishes (strategy : NamingStrategy) (actions : List RegistryAction) :
    (∀ number registry, ((start strategy).run actions).live number = some registry →
      (∀ label, ∃ found, registry.Search (sanitize label ++ "_") 1 found ∧
        found ≤ registry.used.length + 2) ∧
      ∃ found, registry.Search NameRegistry.compactTag registry.compactCounter found ∧
        found ≤ registry.compactCounter + registry.used.length + 1) ∧
      (∀ later earlier registry rule label name,
        ((start strategy).run actions).log =
            later ++ .handed registry rule label name :: earlier →
          Identifier.isReserved name = false ∧ Free earlier registry name ∧
            (rule = .strict → Derived earlier registry label name)) ∧
      (∃ numbers : List Nat, compactNames ((start strategy).run actions).log =
          numbers.map (fun number => "item_" ++ toString number) ∧
        numbers.Pairwise (· > ·)) ∧
      ∀ inside, ClosedFamily inside actions →
        AgreeOutside inside ((start strategy).run actions)
          ((start strategy).run (actions.filter fun action => !inside action.target)) := by
  have consistent := (consistent_start strategy).run actions
  refine ⟨fun number registry _ => ⟨fun label => ?_, ?_⟩, ?_, ?_, fun inside closed => ?_⟩
  · rcases registry.search_freeNumber (NameRegistry.isTag_sanitize label) 1 with
      ⟨search, bound⟩
    exact ⟨_, search, by omega⟩
  · rcases @NameRegistry.search_freeNumber NameRegistry.compactTag registry (by decide)
      registry.compactCounter with ⟨search, bound⟩
    exact ⟨_, search, by omega⟩
  · intro later earlier registry rule label name same
    have proper := consistent.proper later _ earlier same
    have valid := proper.1.1
    rw [Identifier.isValid, Bool.and_eq_true, Bool.not_eq_true'] at valid
    exact ⟨valid.2, proper⟩
  · rcases consistent.growing with ⟨_, numbers, same, decreasing, _⟩
    exact ⟨numbers, same, decreasing⟩
  · exact AgreeOutside.run ⟨fun _ _ => rfl, rfl⟩ closed

def exampleForks : List RegistryAction :=
  [.hand 0 .uniqueLabel "item_0", .hand 0 .unique "x", .fork 0 1, .hand 1 .unique "fn", .fork 1 2,
    .hand 2 .unique "fn", .hand 0 .unique "x", .drop 1]

def exampleForksBefore : List RegistryEvent :=
  [.forked 1 2, .handed 1 .strict "fn" "fn_1", .forked 0 1, .handed 0 .compact "x" "item_1",
    .handed 0 .strict "item_0" "item_0"]

theorem run_distinguishes_exampleForks :
    Free exampleForksBefore 2 "fn_2" ∧ Derived exampleForksBefore 2 "fn" "fn_2" ∧
      (∃ numbers : List Nat, ["item_2", "item_1"] =
        numbers.map (fun number => "item_" ++ toString number) ∧ numbers.Pairwise (· > ·)) ∧
      (∃ found, (NameRegistry.new .compact).Search NameRegistry.compactTag 0 found) ∧
      ((start .compact).run exampleForks).live 0 =
        ((start .compact).run [.hand 0 .uniqueLabel "item_0", .hand 0 .unique "x",
          .hand 0 .unique "x"]).live 0 := by
  have log : ((start .compact).run exampleForks).log =
      [.dropped 1, .handed 0 .compact "x" "item_2"] ++
        .handed 2 .strict "fn" "fn_2" :: exampleForksBefore := by decide +kernel
  rcases run_distinguishes .compact exampleForks with ⟨_, handed, growing, families⟩
  rcases handed _ _ _ _ _ _ log with ⟨_, free, derived⟩
  rw [log] at growing
  have closed : ClosedFamily (fun number => number != 0) exampleForks := by
    intro parent child member inside
    simp only [exampleForks, List.mem_cons, reduceCtorEq, RegistryAction.fork.injEq,
      List.not_mem_nil, or_false, false_or] at member
    rcases member with ⟨rfl, rfl⟩ | ⟨rfl, rfl⟩ <;> decide
  have searches := ((run_distinguishes .compact []).1 0 (.new .compact) rfl).2
  exact ⟨free, derived rfl, growing, searches.imp fun _ search => search.1,
    (families _ closed).live 0 rfl⟩

end Registries

end ShaderKit
