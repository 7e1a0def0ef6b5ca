import ShaderKit.Proofs.Host.Moments
import ShaderKit.Proofs.Recording.Constants
import ShaderKit.Proofs.Value.Construct

/-!
# The meanings of nodes have their types

An expression over operands that fit their entries stands for something that fits its own
entry, or there is an obstacle. For nodes that are spelled out where they are used this
goes down to nodes that are bound, by induction on the index.
-/

namespace ShaderKit

/-! ## What an evaluation gives -/

/-- An evaluation that gives what is described, or fails with an error that is excused.
Being cut off is neither. -/
def Evaluation.Meets {α : Type} (work : Evaluation α) (excuse : ShaderError → Prop)
    (post : α → Prop) : Prop :=
  match work with
  | .ok result => post result
  | .error (.failed error) => excuse error
  | .error .outOfFuel => True

namespace Evaluation.Meets

variable {α β γ : Type} {excuse : ShaderError → Prop}

theorem ok {value : α} {post : α → Prop} (holds : post value) : Meets (.ok value) excuse post :=
  holds

theorem imp {work : Evaluation α} {post other : α → Prop} (meets : Meets work excuse post)
    (weaker : ∀ value, post value → other value) : Meets work excuse other := by
  match work, meets with
  | .ok value, holds => exact weaker value holds
  | .error (.failed _), excused => exact excused
  | .error .outOfFuel, _ => trivial

theorem forgive {work : Evaluation α} {post : α → Prop} {more : ShaderError → Prop}
    (meets : Meets work excuse post) (weaker : ∀ error, excuse error → more error) :
    Meets work more post := by
  match work, meets with
  | .ok _, holds => exact holds
  | .error (.failed error), excused => exact weaker error excused
  | .error .outOfFuel, _ => trivial

theorem bind {work : Evaluation α} {next : α → Evaluation β} {middle : α → Prop}
    {post : β → Prop} (first : Meets work excuse middle)
    (rest : ∀ value, work = .ok value → middle value → Meets (next value) excuse post) :
    Meets (work >>= next) excuse post := by
  match work, first with
  | .ok value, holds => exact rest value rfl holds
  | .error (.failed _), excused => exact excused
  | .error .outOfFuel, _ => trivial

theorem discard {work : Evaluation α} {post : α → Prop} (meets : Meets work excuse post) :
    Meets (discard work) excuse fun _ => True := by
  match work, meets with
  | .ok _, _ => trivial
  | .error (.failed _), excused => exact excused
  | .error .outOfFuel, _ => trivial

theorem of_eq_ok {work : Evaluation α} {post : α → Prop} (meets : Meets work excuse post)
    {value : α} (ran : work = .ok value) : post value := by
  rw [ran] at meets
  exact meets

theorem mapM {work : α → Evaluation β} {items : List α} {goals : List γ} {holds : γ → β → Prop}
    (each : List.Forall₂ (fun item goal => Meets (work item) excuse (holds goal)) items goals) :
    Meets (items.mapM work) excuse (List.Forall₂ holds goals) := by
  induction each with
  | nil => exact ok .nil
  | cons first _ induction =>
      rw [List.mapM_cons]
      apply bind first
      intro result _ firstHolds
      apply bind induction
      intro results _ resultsHold
      exact ok (.cons firstHolds resultsHold)

end Evaluation.Meets

open Evaluation

/-! ## Meanings without a depth -/

theorem mapM_congr {α β : Type} {first second : α → Evaluation β} {items : List α}
    (same : ∀ item ∈ items, first item = second item) :
    items.mapM first = items.mapM second := by
  induction items with
  | nil => rfl
  | cons item rest induction =>
      rw [List.mapM_cons, List.mapM_cons, same item List.mem_cons_self,
        induction fun other member => same other (List.mem_cons_of_mem _ member)]

namespace Activation

variable {activation : Activation} {frame : Frame}

theorem meaningOf_congr {first second : Node → Evaluation Meaning} {call : Callee}
    {entry : ExpressionEntry}
    (same : ∀ operand ∈ entry.expression.operands, first operand = second operand) :
    activation.meaningOf frame first call entry =
      activation.meaningOf frame second call entry := by
  rcases entry with ⟨expression, type, reference, scope⟩
  have all {arguments : List Node} (made : expression.operands = arguments) :
      arguments.mapM (fun node => first node >>= activation.valueOf frame) =
        arguments.mapM (fun node => second node >>= activation.valueOf frame) := by
    apply mapM_congr
    intro argument member
    rw [same argument (made ▸ member)]
  have alone {source : Node} (made : expression.operands = [source]) :
      first source = second source := by
    apply same
    change source ∈ expression.operands
    rw [made]
    exact List.mem_cons_self
  have both {left right : Node} (made : expression.operands = [left, right]) :
      first left = second left ∧ first right = second right := by
    constructor
    · apply same
      change left ∈ expression.operands
      rw [made]
      exact List.mem_cons_self
    · apply same
      change right ∈ expression.operands
      rw [made]
      exact List.mem_cons_of_mem _ List.mem_cons_self
  cases expression with
  | parameter | literal | constant | binding | localVariable | zero => rfl
  | load source | unary _ source | member source | convert source =>
      simp only [meaningOf, alone rfl]
  | swizzle source components =>
      match components with
      | [_] => simp only [meaningOf, alone rfl]
      | [] | _ :: _ :: _ => simp only [meaningOf, alone rfl]
  | binary _ left right | index left right =>
      simp only [meaningOf, (both rfl).1, (both rfl).2]
  | compose arguments | call _ arguments | standard _ arguments | helper _ arguments =>
      have values := @all arguments rfl
      simp only [meaningOf, values]

def Ordered (expressions : Array ExpressionEntry) : Prop :=
  ∀ (index : Nat) entry, expressions[index]? = some entry →
    ∀ operand ∈ entry.expression.operands, operand.index < index

/-- Any depth beyond the index of a node is enough. -/
theorem meaningWithin_eq (ordered : Ordered activation.recorded.expressions) {depth : Nat}
    {node : Node} (enough : node.index < depth) :
    activation.meaningWithin frame depth node = activation.meaning frame node := by
  induction depth using Nat.strongRecOn generalizing node with
  | ind depth induction =>
      cases depth with
      | zero => exact absurd enough (Nat.not_lt_zero _)
      | succ depth =>
          unfold meaning meaningWithin
          split
          next => rfl
          next =>
            split
            next => rfl
            next entry found =>
              split
              next =>
                apply meaningOf_congr
                intro operand member
                have below := ordered node.index entry found operand member
                have inside : operand.index < depth := by omega
                rw [induction depth (Nat.lt_succ_self _) inside,
                  induction node.index enough below]
              next => rfl

theorem meaning_of_bound {node : Node} {meaning : Meaning}
    (bound : frame.meanings[node.index]?.join = some meaning) :
    activation.meaning frame node = .ok meaning := by
  rw [Activation.meaning, meaningWithin, bound]

variable {node : Node} {entry : ExpressionEntry}

theorem meaning_of_inlined (ordered : Ordered activation.recorded.expressions)
    (unbound : frame.meanings[node.index]?.join = none)
    (found : activation.recorded.entry? node = some entry) (inlined : entry.isInlined = true) :
    activation.meaning frame node = activation.meaningOf frame (activation.meaning frame)
      (fun _ _ => activation.refuse .notComputed) entry := by
  rw [meaning, meaningWithin, unbound, found]
  dsimp only
  rw [if_pos inlined]
  apply meaningOf_congr
  intro operand member
  exact meaningWithin_eq ordered (ordered node.index entry found operand member)

theorem meaning_of_unbound (unbound : frame.meanings[node.index]?.join = none)
    (found : activation.recorded.entry? node = some entry)
    (notInlined : ¬ entry.isInlined = true) :
    activation.meaning frame node = activation.refuse .notComputed := by
  rw [meaning, meaningWithin, unbound, found]
  dsimp only
  rw [if_neg notInlined]

end Activation

end ShaderKit
