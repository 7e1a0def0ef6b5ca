import ShaderKit.Proofs.Host.Meaning
import ShaderKit.Proofs.Recording.Invariant

/-!
# Expressions over typed frames

In a frame whose variables have their types, an expression whose operands fit their entries
gives something that fits its own entry, whatever its constructor is.
-/

namespace ShaderKit

open Evaluation

/-- A run of a recorded function of a program, with arguments of its parameter types. -/
structure Activation.Sound (activation : Activation) (program : Program) : Prop where
  context : activation.context.Sound program
  recorded : activation.recorded.Sound activation.context
  arguments : List.Forall₂ HasType
    (activation.recorded.signature.parameters.map Parameter.type) activation.arguments

abbrev Activation.inventory (activation : Activation) : Inventory :=
  activation.recorded.inventory activation.context

/-- What a node of a type stands for: a value of the type, or, for a reference, a place in a
variable at which the type is stored. -/
def Activation.Describes (activation : Activation) (type : TypeDescriptor)
    (reference : Option Reference) : Meaning → Prop
  | .value value => reference = none ∧ HasType type value
  | .place index path =>
      (∃ known, reference = some known ∧ known.root = .localVariable) ∧
      ∃ declared, activation.recorded.locals[index]? = some declared ∧
        declared.type.follow path = some type

/-- A frame whose variables and bound nodes have their types. -/
structure Frame.Sound (frame : Frame) (activation : Activation) : Prop where
  cells (index : Nat) (declared : LocalVariable) :
    activation.recorded.locals[index]? = some declared →
      ∃ value, frame.cells[index]? = some value ∧ HasType declared.type value
  meanings (index : Nat) (entry : ExpressionEntry) (meaning : Meaning) :
    activation.recorded.expressions[index]? = some entry →
      frame.meanings[index]?.join = some meaning →
        activation.Describes entry.type entry.reference meaning
  room : frame.meanings.size = activation.recorded.expressions.size

namespace Activation

variable {activation : Activation} {frame : Frame} {excuse : ShaderError → Prop}
  {type inner : TypeDescriptor} {reference : Option Reference}

theorem Sound.ordered {program : Program} (sound : activation.Sound program) :
    Ordered activation.recorded.expressions :=
  fun index entry found => (sound.recorded.entries index entry found).earlier

theorem refuse_meets {α : Type} {post : α → Prop} {fault : HostFault}
    (excused : excuse (activation.failure fault)) :
    Meets (activation.refuse fault) excuse post :=
  excused

/-! ## Values, indices and parts -/

theorem value_meets {node : Node}
    (meets : Meets (activation.meaning frame node) excuse (activation.Describes type none)) :
    Meets (activation.value frame node) excuse (HasType type) := by
  apply Meets.bind meets
  intro meaning _ described
  cases meaning with
  | value value => exact .ok described.2
  | place index path =>
      rcases described.1 with ⟨_, impossible, _⟩
      cases impossible

theorem positionOf_meets {kind : TypeDescriptor} {value : HostValue}
    (typed : HasType kind value) (integer : Recording.isIndexType kind = true)
    (negative : ∀ number : Int32, value = .scalar (.i32 number) → number < 0 →
      excuse (activation.failure (.negativeIndex (.i32 number)))) :
    Meets (activation.positionOf value) excuse fun _ => True := by
  cases kind with
  | scalar kind =>
      rcases hasType_scalar.mp typed with ⟨scalar, rfl, rfl⟩
      cases scalar with
      | u32 number => exact .ok trivial
      | i32 number =>
          unfold positionOf
          dsimp only
          split
          next below => exact refuse_meets (negative number rfl below)
          next => exact .ok trivial
      | bool | f16 | f32 => cases integer
  | _ => cases integer

theorem project_meets {meaning : Meaning} {segment : PathSegment}
    (described : activation.Describes type reference meaning)
    (followed : type.follow [segment] = some inner)
    (outside : ∀ whole position, meaning = .value whole → segment = .index position →
      whole.extent ≤ position → excuse (activation.failure .outOfBounds)) :
    Meets (activation.project segment meaning) excuse
      (activation.Describes inner reference) := by
  cases meaning with
  | place index path =>
      rcases described with ⟨known, declared, found, reached⟩
      exact .ok ⟨known, declared, found, TypeDescriptor.follow_concat reached followed⟩
  | value whole =>
      rcases described with ⟨isValue, typed⟩
      rcases typed.at?_segment followed with ⟨part, found, partTyped⟩ | ⟨position, rfl, beyond⟩
      · simp only [project, found, require]
        exact .ok ⟨isValue, partTyped⟩
      · have missing : whole.at? [.index position] = none := by
          rw [Option.eq_none_iff_forall_ne_some]
          intro part found
          exact Nat.not_lt_of_le beyond (HostValue.lt_extent_of_at? found)
        simp only [project, missing, require]
        exact refuse_meets (outside whole position rfl rfl beyond)

theorem answer_meets {fault : HostFault} {result : Option HostValue}
    (yields : Yields type result) :
    Meets ((activation.require fault result).map Meaning.value) excuse
      (activation.Describes type none) := by
  rcases yields with ⟨value, rfl, typed⟩
  exact .ok ⟨rfl, typed⟩

theorem valueOf_place_meets {index : Nat} {path : ValuePath} (frameSound : frame.Sound activation)
    (described : activation.Describes type reference (.place index path))
    (unreadable : ∀ whole, frame.cells[index]? = some whole → ¬ whole.PathInRange path →
      excuse (activation.failure .readPath)) :
    Meets (activation.valueOf frame (.place index path)) excuse (HasType type) := by
  rcases described with ⟨_, declared, found, followed⟩
  rcases frameSound.cells index declared found with ⟨whole, cell, typed⟩
  simp only [valueOf, cell, Option.bind_some]
  cases read : whole.at? path with
  | some part =>
      rcases typed.at? followed (HostValue.pathInRange_of_at? read) with ⟨same, found, partTyped⟩
      rw [read] at found
      cases found
      exact .ok partTyped
  | none =>
      apply refuse_meets
      apply unreadable whole cell
      intro ranged
      rcases typed.at? followed ranged with ⟨_, found, _⟩
      rw [read] at found
      cases found

/-- Calls give values of the result types of their callees, or fail with excused errors. -/
def CallsMeet (activation : Activation) (frame : Frame) (call : Callee) (expression : Expression)
    (excuse : ShaderError → Prop) : Prop :=
  ∀ callee arguments recorded values type, expression = .call callee arguments →
    activation.context.find? callee = some recorded →
      arguments.mapM (activation.value frame) = .ok values →
        List.Forall₂ HasType (recorded.signature.parameters.map Parameter.type) values →
          recorded.signature.result = some type → Meets (call callee values) excuse (Yields type)

/-- An expression whose operands fit their entries fits its own. -/
theorem meaningOf_meets {program : Program} {entry : ExpressionEntry} {call : Callee}
    (sound : activation.Sound program) (frameSound : frame.Sound activation)
    (types : activation.inventory.Types entry.expression entry.type entry.reference)
    (operands : ∀ operand ∈ entry.expression.operands, ∀ type reference,
      activation.inventory.At operand type reference →
        Meets (activation.meaning frame operand) excuse (activation.Describes type reference))
    (obstacle : ∀ fault, Obstacle activation frame entry.expression fault →
      excuse (activation.failure fault))
    (calls : activation.CallsMeet frame call entry.expression excuse) :
    Meets (activation.meaningOf frame (activation.meaning frame) call entry) excuse
      (activation.Describes entry.type entry.reference) := by
  rcases entry with ⟨expression, type, reference, scope⟩
  dsimp only at types operands obstacle calls
  have values {arguments : List Node} {types : List TypeDescriptor}
      (made : expression.operands = arguments)
      (argumentsAt : List.Forall₂ activation.inventory.ValueAt arguments types) :
      Meets (arguments.mapM (activation.value frame)) excuse (List.Forall₂ HasType types) := by
    apply Meets.mapM
    apply forall₂_of_mem argumentsAt
    intro argument member type argumentAt
    exact value_meets (operands argument (made ▸ member) type none argumentAt)
  have single {source : Node} {type : TypeDescriptor} {reference : Option Reference}
      (made : expression.operands = [source])
      (sourceAt : activation.inventory.At source type reference) :
      Meets (activation.meaning frame source) excuse (activation.Describes type reference) :=
    operands source (made ▸ List.mem_cons_self) type reference sourceAt
  cases types with
  | @parameter index parameter declared =>
      have typed : (activation.recorded.signature.parameters.map Parameter.type)[index]? =
          some parameter.type := by
        rw [List.getElem?_map]
        exact congrArg (Option.map Parameter.type) declared
      exact answer_meets (getElem?_of_forall₂ sound.arguments typed)
  | literal value => exact .ok ⟨rfl, hasType_scalar.mpr ⟨value, rfl, rfl⟩⟩
  | @constant number constant known =>
      have typed := sound.context.constants constant (List.mem_of_getElem? known)
      apply answer_meets
      exact ⟨constant.value, congrArg (Option.map ModuleConstant.value) known, typed⟩
  | binding slot type access => exact refuse_meets (obstacle _ (.binding slot))
  | localVariable known access => exact .ok ⟨⟨_, rfl, rfl⟩, _, known, rfl⟩
  | @load source type reference sourceAt =>
      have read : Meets (activation.value frame source) excuse (HasType type) := by
        apply Meets.bind (single rfl sourceAt)
        intro meaning ran described
        cases meaning with
        | value value => cases described.1
        | place index path =>
            apply valueOf_place_meets frameSound described
            intro whole cell outside
            exact obstacle _ (.unreadable ran cell outside)
      apply Meets.bind read
      intro value _ typed
      exact .ok ⟨rfl, typed⟩
  | compose argumentsAt constructs =>
      apply Meets.bind (values rfl argumentsAt)
      intro values _ typed
      exact answer_meets (compose_yields constructs typed)
  | zero type => exact .ok ⟨rfl, hasType_zero type⟩
  | unary operandAt accepted =>
      apply Meets.bind (value_meets (single rfl operandAt))
      intro value _ typed
      exact answer_meets (UnaryOperator.apply_yields accepted typed)
  | binary leftAt rightAt accepted =>
      have leftMeets := operands _ List.mem_cons_self _ _ leftAt
      have rightMeets := operands _ (List.mem_cons_of_mem _ List.mem_cons_self) _ _ rightAt
      apply Meets.bind (value_meets leftMeets)
      intro left _ leftTyped
      apply Meets.bind (value_meets rightMeets)
      intro right _ rightTyped
      exact answer_meets (BinaryOperator.apply_yields accepted leftTyped rightTyped)
  | @member base type reference name position member baseAt declared =>
      rcases MemberList.toList_of_find? declared with ⟨listed, rfl⟩
      have named : activation.memberName? base position = some member.name := by
        rcases baseAt with ⟨entry, found, rfl, _⟩
        change activation.recorded.entry? base = some entry at found
        simp only [memberName?, found, listed, Option.bind_eq_bind, Option.bind_some]
      have followed : type.follow [.member member.name] = some member.type := by
        simp only [TypeDescriptor.follow, declared, Option.bind_eq_bind, Option.bind_some]
      have answer : Meets
          (activation.meaning frame base >>= activation.project (.member member.name)) excuse
          (activation.Describes member.type reference) := by
        apply Meets.bind (single rfl baseAt)
        intro meaning _ described
        apply project_meets described followed
        rintro _ _ _ ⟨⟩
      unfold meaningOf
      dsimp only
      rw [named]
      exact answer
  | @index base position type kind reference indexing baseAt positionAt integer indexed =>
      have baseMeets := operands base List.mem_cons_self _ _ baseAt
      have positionMeets :=
        operands position (List.mem_cons_of_mem _ List.mem_cons_self) _ _ positionAt
      apply Meets.bind (value_meets positionMeets)
      intro value given typed
      apply Meets.bind (positionOf_meets typed integer fun number same negative =>
        obstacle _ (.negative (same ▸ given) negative))
      intro number numbered _
      apply Meets.bind baseMeets
      intro meaning ran described
      have followed : type.follow [.index number] = some indexing.element := by
        simp only [TypeDescriptor.follow, indexed, Option.bind_eq_bind, Option.bind_some]
      apply project_meets described followed
      rintro whole position rfl ⟨⟩ beyond
      have baseValue : activation.value frame base = .ok whole := by
        rw [Activation.value, ran]
        rfl
      exact obstacle _ (.outside baseValue given numbered beyond)
  | @component source kind width reference position sourceAt below =>
      apply Meets.bind (single rfl sourceAt)
      intro meaning _ described
      apply project_meets described rfl
      rintro whole _ rfl ⟨⟩ beyond
      rcases hasType_vector.mp described.2 with ⟨components, rfl, counted, _⟩
      exact absurd below (Nat.not_lt_of_le (counted ▸ beyond))
  | @swizzle source kind width result components sourceAt below counted =>
      have answer : Meets (activation.value frame source >>= fun value =>
          (activation.require .swizzle (pick components value)).map Meaning.value) excuse
            (activation.Describes (.vector kind result) none) := by
        apply Meets.bind (value_meets (single rfl sourceAt))
        intro value _ typed
        exact answer_meets (pick_yields below counted typed)
      -- a single component is projected, but the count of a vector is never one
      rcases components with _ | ⟨_, _ | ⟨_, _⟩⟩
      · exact answer
      · cases result <;> cases counted
      · exact answer
  | @call callee arguments recorded type finished argumentsAt result =>
      apply Meets.bind (values rfl argumentsAt)
      intro values given typed
      apply Meets.bind (calls callee arguments recorded values type rfl finished given typed result)
      intro answer _ yields
      exact answer_meets yields
  | arrayLength arguments type => exact refuse_meets (obstacle _ (.arrayLength arguments))
  | @standard function arguments types type argumentsAt known accepted =>
      unfold meaningOf
      dsimp only
      rw [if_neg known]
      apply Meets.bind (values rfl argumentsAt)
      intro values _ typed
      exact answer_meets (StandardFunction.apply_yields accepted known typed)
  | helper argumentsAt comparable =>
      apply Meets.bind (values rfl argumentsAt)
      intro values _ typed
      exact answer_meets (Helper.apply_yields comparable typed)
  | convert sourceAt convertible =>
      apply Meets.bind (value_meets (single rfl sourceAt))
      intro value _ typed
      exact answer_meets (convert_yields convertible typed)

end Activation

/-! ## Nodes -/

def Frame.Binds (frame : Frame) (index : Nat) : Prop :=
  ∃ meaning, frame.meanings[index]?.join = some meaning

def Frame.Provides (frame : Frame) (bound : List Binder) : Prop :=
  ∀ index, .node index ∈ bound → frame.Binds index

namespace Activation

variable {activation : Activation} {frame : Frame} {program : Program} {bound : List Binder}
  {type : TypeDescriptor} {reference : Option Reference}

/-- A node that is spelled out has an obstacle with the given error. -/
def Blocked (activation : Activation) (frame : Frame) (node : Node) (error : ShaderError) : Prop :=
  ∃ entry fault, activation.recorded.entry? node = some entry ∧ entry.isInlined = true ∧
    Obstacle activation frame entry.expression fault ∧ error = activation.failure fault

/-- The operands of a node that is spelled out are available where the node is. -/
theorem ready_operands (provides : frame.Provides bound) {node : Node} {entry : ExpressionEntry}
    (unbound : frame.meanings[node.index]?.join = none)
    (found : activation.recorded.entry? node = some entry)
    (ready : Ready activation.recorded.expressions bound node.index) :
    entry.isInlined = true ∧ ∀ operand ∈ entry.expression.operands,
      Ready activation.recorded.expressions bound operand.index := by
  cases ready with
  | bound available =>
      rcases provides node.index available with ⟨meaning, known⟩
      rw [unbound] at known
      cases known
  | inlined known inlined _ operands =>
      have same := Option.some.inj (found.symm.trans known)
      subst same
      exact ⟨inlined, operands⟩

/-- What a node stands for fits its entry. Where the node is available, it stands for
something, or there is an obstacle. -/
theorem meaning_meets (sound : activation.Sound program) (frameSound : frame.Sound activation)
    (provides : frame.Provides bound) {node : Node}
    (known : activation.inventory.At node type reference) :
    Meets (activation.meaning frame node)
      (fun error => Ready activation.recorded.expressions bound node.index →
        activation.Blocked frame node error)
      (activation.Describes type reference) := by
  generalize place : node.index = index
  induction index using Nat.strongRecOn generalizing node type reference with
  | ind index induction =>
      subst place
      rcases known with ⟨entry, found, rfl, rfl⟩
      have entrySound := sound.recorded.entries node.index entry found
      cases state : frame.meanings[node.index]?.join with
      | some meaning =>
          rw [meaning_of_bound state]
          exact .ok (frameSound.meanings node.index entry meaning found state)
      | none =>
          by_cases inlined : entry.isInlined = true
          · rw [meaning_of_inlined sound.ordered state found inlined]
            apply meaningOf_meets sound frameSound entrySound.types
            · intro operand member type reference operandAt
              have below := entrySound.earlier operand member
              apply (induction operand.index below operandAt rfl).forgive
              intro error blocked ready
              have operandReady := (ready_operands provides state found ready).2 operand member
              rcases blocked operandReady with ⟨operandEntry, fault, known, spelled, obstacle, same⟩
              exact ⟨entry, fault, found, inlined, .operand member known spelled obstacle, same⟩
            · intro fault obstacle _
              exact ⟨entry, fault, found, inlined, obstacle, rfl⟩
            · intro callee arguments recorded values type same
              rw [ExpressionEntry.isInlined, same] at inlined
              cases inlined
          · rw [meaning_of_unbound state found inlined]
            apply refuse_meets
            intro ready
            exact absurd (ready_operands provides state found ready).1 inlined

theorem usable_meets (sound : activation.Sound program) (frameSound : frame.Sound activation)
    (provides : frame.Provides bound) {node : Node}
    (usable : activation.inventory.Usable bound node type reference) :
    Meets (activation.meaning frame node) (activation.Blocked frame node)
      (activation.Describes type reference) :=
  (meaning_meets sound frameSound provides usable.known).forgive fun _ blocked =>
    blocked usable.ready

theorem operand_meets (sound : activation.Sound program) (frameSound : frame.Sound activation)
    (provides : frame.Provides bound) {node : Node}
    (operand : activation.inventory.Operand bound node type) :
    Meets (activation.value frame node) (activation.Blocked frame node) (HasType type) :=
  value_meets (usable_meets sound frameSound provides operand)

end Activation

end ShaderKit
