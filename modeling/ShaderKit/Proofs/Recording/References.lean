import ShaderKit.Proofs.Recording.ScriptChanges

/-!
# References keep their access rights

A reference may be written where the recorder says so: a declared variable always, a buffer by
its entry, and the counter of a range loop never. Recording adds no reference to a variable
after the one with which the variable began, so these rights are the same to the end.
-/

namespace ShaderKit

/-! ## Statements of a block -/

mutual
def Statement.all : Statement → List Statement
  | .branch test accept reject =>
      .branch test accept reject :: (blockAll accept ++ blockAll reject)
  | .loop body => .loop body :: blockAll body
  | .range counter first last body => .range counter first last body :: blockAll body
  | statement => [statement]

def blockAll : List Statement → List Statement
  | [] => []
  | statement :: rest => statement.all ++ blockAll rest
end

theorem blockAll_append (block more : Block) :
    blockAll (block ++ more) = blockAll block ++ blockAll more := by
  induction block with
  | nil => rfl
  | cons statement rest induction =>
      rw [List.cons_append, blockAll, blockAll, induction, List.append_assoc]

theorem Statement.all_of_isPlain {statement : Statement} (plain : statement.isPlain = true) :
    statement.all = [statement] := by
  cases statement <;> first | rfl | cases plain

namespace Recorder

variable {around : Surroundings} {recorder before after : Recorder}

/-! ## Rights -/

structure ReadOnly (recorder : Recorder) (number : Nat) : Prop where
  known : number < recorder.locals.size
  read : ∀ (index : Nat) entry, recorder.expressions[index]? = some entry →
    entry.expression = .localVariable number → entry.reference = some ⟨.read, .localVariable⟩

def Allows (recorder : Recorder) : Statement → Prop
  | .store target _ => recorder.Writable target
  | .range counter _ _ _ => recorder.ReadOnly counter
  | _ => True

theorem ReadOnly.later {number : Nat} (readOnly : before.ReadOnly number)
    (preserves : before.Preserves after) : after.ReadOnly number where
  known := Nat.lt_of_lt_of_le readOnly.known preserves.locals
  read index entry found same := by
    have old := preserves.fresh index entry number found same readOnly.known
    exact readOnly.read index entry old same

theorem Allows.later {statement : Statement} (allows : before.Allows statement)
    (preserves : before.Preserves after) : after.Allows statement := by
  cases statement with
  | store target source => exact Writable.later allows preserves
  | range counter first last body => exact ReadOnly.later allows preserves
  | _ => trivial

/-- An entry that is a variable or a buffer is one that is known, a buffer with the rights of
an entry that is noted. -/
structure Rooted (recorder : Recorder) (entry : ExpressionEntry) : Prop where
  declared : ∀ number, entry.expression = .localVariable number → number < recorder.locals.size
  noted : ∀ slot, entry.expression = .binding slot → ∃ used ∈ recorder.bindings,
    used.slot = slot ∧ used.type = entry.type ∧
      entry.reference = some ⟨used.access.referenceAccess, .binding⟩

def Holds (recorder : Recorder) (statement : Statement) : Prop :=
  ∃ block ∈ recorder.blocks, statement ∈ blockAll block

/-- A recorder whose statements keep the rights of references. -/
structure Respects (recorder : Recorder) : Prop where
  entries : ∀ entry ∈ recorder.expressions, recorder.Rooted entry
  statements : ∀ statement, recorder.Holds statement → recorder.Allows statement

theorem respects_empty (session : Session) : Respects { session := session } where
  entries entry member := by simp at member
  statements statement := by
    rintro ⟨block, member, inside⟩
    rw [List.mem_singleton.mp member] at inside
    cases inside

theorem Respects.grow (respects : before.Respects) (preserves : before.Preserves after)
    (bindings : ∀ used ∈ before.bindings, used ∈ after.bindings)
    (entries : ∀ entry ∈ after.expressions, entry ∈ before.expressions ∨ after.Rooted entry)
    (statements : ∀ statement, after.Holds statement →
      before.Holds statement ∨ after.Allows statement) : after.Respects where
  entries entry member := by
    rcases entries entry member with old | rooted
    · have rooted := respects.entries entry old
      constructor
      · intro number same
        exact Nat.lt_of_lt_of_le (rooted.declared number same) preserves.locals
      · intro slot same
        rcases rooted.noted slot same with ⟨used, noted, rest⟩
        exact ⟨used, bindings used noted, rest⟩
    · exact rooted
  statements statement held := by
    rcases statements statement held with old | allowed
    · exact (respects.statements statement old).later preserves
    · exact allowed

/-! ## Parts of a recorder -/

theorem Holds.of_addStatement {statement added : Statement}
    (held : (recorder.addStatement added).Holds statement) :
    recorder.Holds statement ∨ statement ∈ added.all := by
  rcases held with ⟨block, member, inside⟩
  unfold Recorder.addStatement at member
  split at member
  next => exact .inl ⟨block, member, inside⟩
  next first outer same =>
    rcases List.mem_cons.mp member with rfl | member
    · rw [blockAll_append, List.mem_append] at inside
      rcases inside with inside | inside
      · exact .inl ⟨first, same ▸ List.mem_cons_self, inside⟩
      · rw [blockAll, blockAll, List.append_nil] at inside
        exact .inr inside
    · exact .inl ⟨block, same ▸ List.mem_cons_of_mem _ member, inside⟩

theorem Holds.of_opened {deeper : Nat} {statement : Statement}
    (held : (recorder.opened deeper).Holds statement) : recorder.Holds statement := by
  rcases held with ⟨block, member, inside⟩
  rcases List.mem_cons.mp member with rfl | member
  · cases inside
  · exact ⟨block, member, inside⟩

theorem Holds.of_closed {deeper : Nat} {statement : Statement}
    (held : (recorder.closed deeper).Holds statement) : recorder.Holds statement := by
  rcases held with ⟨block, member, inside⟩
  exact ⟨block, List.mem_of_mem_tail member, inside⟩

theorem holds_of_openBlock {statement : Statement}
    (inside : statement ∈ blockAll recorder.openBlock) : recorder.Holds statement := by
  unfold openBlock at inside
  cases same : recorder.blocks with
  | nil =>
      rw [same] at inside
      cases inside
  | cons block outer =>
      rw [same] at inside
      exact ⟨block, same ▸ List.mem_cons_self, inside⟩

theorem Holds.of_withExpression {function : ShaderFunction} {expression : Expression}
    {type : TypeDescriptor} {reference : Option Reference} {statement : Statement}
    (held : (recorder.withExpression function expression type reference).Holds statement) :
    recorder.Holds statement ∨ ∃ node, statement = .emit node := by
  unfold withExpression at held
  dsimp only at held
  split at held
  next => exact .inl held
  next =>
    rcases held.of_addStatement with held | added
    · exact .inl held
    · exact .inr ⟨_, List.mem_singleton.mp added⟩

/-! ## Changes keep the rights -/

theorem Respects.opened (respects : recorder.Respects) (deeper : Nat) :
    (recorder.opened deeper).Respects :=
  respects.grow (preserves_opened recorder deeper) (fun _ noted => noted)
    (fun _ member => .inl member) fun _ held => .inl held.of_opened

theorem Respects.closed (respects : recorder.Respects) (deeper : Nat) :
    (recorder.closed deeper).Respects :=
  respects.grow (preserves_closed recorder deeper) (fun _ noted => noted)
    (fun _ member => .inl member) fun _ held => .inl held.of_closed

theorem Respects.addStatement {statement : Statement} (respects : recorder.Respects)
    (allowed : ∀ inner ∈ statement.all, recorder.Allows inner) :
    (recorder.addStatement statement).Respects := by
  have preserves := (Preserves.refl recorder).addStatement statement
  apply respects.grow preserves
  · intro used noted
    rw [addStatement_eq]
    exact noted
  · intro entry member
    rw [expressions_addStatement] at member
    exact .inl member
  · intro inner held
    rcases held.of_addStatement with held | added
    · exact .inl held
    · exact .inr ((allowed inner added).later preserves)

theorem Respects.openBlock (respects : recorder.Respects) :
    ∀ inner ∈ blockAll recorder.openBlock, recorder.Allows inner :=
  fun inner inside => respects.statements inner (holds_of_openBlock inside)

theorem Respects.closed_addStatement {statement : Statement} (respects : recorder.Respects)
    (deeper : Nat) (allowed : ∀ inner ∈ statement.all, recorder.Allows inner) :
    ((recorder.closed deeper).addStatement statement).Respects :=
  (respects.closed deeper).addStatement fun inner inside =>
    (allowed inner inside).later (preserves_closed recorder deeper)

theorem bindings_withExpression (recorder : Recorder) (function : ShaderFunction)
    (expression : Expression) (type : TypeDescriptor) (reference : Option Reference) :
    (recorder.withExpression function expression type reference).bindings =
      recorder.bindings := by
  unfold withExpression
  dsimp only
  split
  next => rfl
  next => rw [addStatement_eq]; rfl

/-- A new expression keeps the rights if it is a variable or buffer only in the ways that are
known. -/
theorem Respects.withExpression {middle : Recorder} {expression : Expression}
    {type : TypeDescriptor} {reference : Option Reference} (respects : before.Respects)
    (function : ShaderFunction)
    (preserves : before.Preserves (middle.withExpression function expression type reference))
    (expressions : middle.expressions = before.expressions)
    (bindings : middle.bindings = before.bindings)
    (statements : ∀ statement, middle.Holds statement →
      before.Holds statement ∨ ∀ recorder : Recorder, recorder.Allows statement)
    (declared : ∀ number, expression = .localVariable number → number < middle.locals.size)
    (noted : ∀ slot, expression = .binding slot → ∃ used ∈ before.bindings,
      used.slot = slot ∧ used.type = type ∧
        reference = some ⟨used.access.referenceAccess, .binding⟩) :
    (middle.withExpression function expression type reference).Respects := by
  have sameBindings : (middle.withExpression function expression type reference).bindings =
      before.bindings := (bindings_withExpression _ _ _ _ _).trans bindings
  apply respects.grow preserves
  · intro used member
    rw [sameBindings]
    exact member
  · intro entry member
    rw [expressions_withExpression] at member
    rcases Array.mem_push.mp member with old | rfl
    · exact .inl (expressions ▸ old)
    · refine .inr ⟨?_, ?_⟩
      · intro number same
        rw [locals_withExpression]
        exact declared number same
      · intro slot same
        rw [sameBindings]
        exact noted slot same
  · intro statement held
    rcases held.of_withExpression with held | ⟨node, rfl⟩
    · rcases statements statement held with old | allowed
      · exact .inl old
      · exact .inr (allowed _)
    · exact .inr trivial

theorem Respects.withVariable (respects : recorder.Respects) (function : ShaderFunction)
    (declared : LocalVariable) (initial : Option Node) :
    (recorder.withVariable function declared initial).Respects := by
  have preserves := preserves_withVariable recorder function declared initial
  unfold Recorder.withVariable at preserves ⊢
  apply respects.withExpression function preserves
  · exact expressions_addStatement _ _
  · rw [addStatement_eq]; rfl
  · intro statement held
    rcases held.of_addStatement with held | added
    · exact .inl held
    · rw [List.mem_singleton.mp added]
      exact .inr fun _ => trivial
  · rintro number ⟨⟩
    rw [locals_addStatement, Recording.withLocal, Array.size_push]
    exact Nat.lt_succ_self _
  · rintro slot ⟨⟩

theorem Respects.counting (respects : recorder.Respects) (function : ShaderFunction)
    (type : TypeDescriptor) : (recorder.counting function type).Respects := by
  have preserves := preserves_counting recorder function type
  unfold Recorder.counting at preserves ⊢
  apply respects.withExpression function preserves
  · rfl
  · rfl
  · exact fun statement held => .inl held.of_opened
  · rintro number ⟨⟩
    change recorder.locals.size < (recorder.locals.push _).size
    rw [Array.size_push]
    exact Nat.lt_succ_self _
  · rintro slot ⟨⟩

theorem Respects.readOnly_counting (respects : recorder.Respects) (function : ShaderFunction)
    (type : TypeDescriptor) :
    (recorder.counting function type).ReadOnly recorder.locals.size where
  known := by
    unfold Recorder.counting
    rw [locals_withExpression]
    change recorder.locals.size < (recorder.locals.push _).size
    rw [Array.size_push]
    exact Nat.lt_succ_self _
  read index entry found same := by
    unfold Recorder.counting at found
    rw [expressions_withExpression] at found
    rcases Array.mem_push.mp (Array.mem_of_getElem? found) with old | rfl
    · exact absurd ((respects.entries entry old).declared _ same) (Nat.lt_irrefl _)
    · rfl

/-- Recording keeps the rights of references, by cases on the changes that it makes. -/
theorem Becomes.respects (becomes : before.Becomes around after) (respects : before.Respects) :
    after.Respects := by
  induction becomes with
  | refl => exact respects
  | trans _ _ first second => exact second (first respects)
  | @expression recorder expression type reference covered admitted =>
      have becomes : recorder.Becomes around
          (recorder.withExpression around.function expression type reference) :=
        .expression type reference covered admitted
      have preserves := becomes.preserves
      apply respects.withExpression _ preserves rfl rfl fun _ held => .inl held
      · rintro number rfl
        exact False.elim admitted
      · rintro slot rfl
        exact admitted
  | @statement recorder statement plain _ permitted =>
      apply respects.addStatement
      intro inner inside
      rw [Statement.all_of_isPlain plain, List.mem_singleton] at inside
      rw [inside]
      cases statement with
      | store target source => exact permitted
      | range => cases plain
      | _ => trivial
  | declared recorder declared initial => exact respects.withVariable _ declared initial
  | branch test accept reject acceptRespects rejectRespects =>
      have accepted := acceptRespects (respects.opened 0)
      have rejected := rejectRespects ((accepted.closed 0).opened 0)
      apply rejected.closed_addStatement
      intro inner inside
      rw [Statement.all, List.mem_cons, List.mem_append] at inside
      rcases inside with rfl | inside | inside
      · trivial
      · have preserves := ((preserves_closed _ 0).trans (preserves_opened _ 0)).trans
          reject.preserves
        exact (accepted.openBlock inner inside).later preserves
      · exact rejected.openBlock inner inside
  | loop _ bodyRespects =>
      have body := bodyRespects (respects.opened 1)
      apply body.closed_addStatement
      intro inner inside
      rw [Statement.all, List.mem_cons] at inside
      rcases inside with rfl | inside
      · trivial
      · exact body.openBlock inner inside
  | @range recorder finish type _ _ body bodyRespects =>
      have inner := bodyRespects (respects.counting _ _)
      apply inner.closed_addStatement
      intro statement inside
      rw [Statement.all, List.mem_cons] at inside
      rcases inside with rfl | inside
      · exact (respects.readOnly_counting _ type).later body.preserves
      · exact inner.openBlock statement inside
  | dropped deeper _ insideRespects => exact (insideRespects (respects.opened deeper)).closed deeper
  | droppedRange _ insideRespects => exact (insideRespects (respects.counting _ _)).closed 1
  | localVariable recorder declared =>
      exact respects.grow (preserves_withLocal recorder declared) (fun _ noted => noted)
        (fun _ member => .inl member) fun _ held => .inl held
  | binding =>
      exact respects.grow (.of_eq rfl (Nat.le_refl _)) (fun _ noted => mem_addNew.mpr (.inl noted))
        (fun _ member => .inl member) fun _ held => .inl held
  | constant | helper | register | journal | traced | untraced =>
      exact respects.grow (.of_eq rfl (Nat.le_refl _)) (fun _ noted => noted)
        (fun _ member => .inl member) fun _ held => .inl held

end Recorder

end ShaderKit
