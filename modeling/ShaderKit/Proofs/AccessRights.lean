import ShaderKit.Proofs.Module.Closed
import ShaderKit.Proofs.Recording.Proceeding
import ShaderKit.Proofs.Recording.References

/-!
# Access rights

Every store of a recording ends in a variable that was declared before it or in a buffer,
through any chain of parts. In a module the buffers are used as the binding table declares
them, so a buffer that is written is declared to be writable.
-/

namespace ShaderKit

/-! ## Roots of references -/

def Expression.base? : Expression → Option Node
  | .member base _ | .index base _ | .swizzle base _ => some base
  | _ => none

/-- The entry in which a chain of parts ends that begins at a node. -/
inductive RecordedFunction.Root (recorded : RecordedFunction) : Node → ExpressionEntry → Prop where
  | whole {node : Node} {entry : ExpressionEntry} (found : recorded.entry? node = some entry)
      (whole : entry.expression.base? = none) : Root recorded node entry
  | part {node base : Node} {entry root : ExpressionEntry}
      (found : recorded.entry? node = some entry) (part : entry.expression.base? = some base)
      (rest : Root recorded base root) : Root recorded node root

theorem Expression.mem_operands_of_base? {expression : Expression} {base : Node}
    (part : expression.base? = some base) : base ∈ expression.operands := by
  cases expression with
  | member | index | swizzle =>
      cases part
      exact List.mem_cons_self
  | _ => cases part

/-- A reference is a part of a reference with the same rights, a variable or a buffer. -/
theorem Inventory.Types.reference_cases {inventory : Inventory} {expression : Expression}
    {type : TypeDescriptor} {reference : Reference}
    (types : inventory.Types expression type (some reference)) :
    (∃ base whole, expression.base? = some base ∧
        inventory.expressions[base.index]? = some whole ∧ whole.reference = some reference) ∨
      (∃ number, expression = .localVariable number) ∨ ∃ slot, expression = .binding slot := by
  cases types with
  | binding slot => exact .inr (.inr ⟨slot, rfl⟩)
  | localVariable => exact .inr (.inl ⟨_, rfl⟩)
  | member baseAt | index baseAt | component baseAt =>
      rcases baseAt with ⟨whole, found, _, same⟩
      exact .inl ⟨_, whole, rfl, found, same⟩

theorem Inventory.Types.isInlined_of_reference {inventory : Inventory} {expression : Expression}
    {type : TypeDescriptor} {reference : Reference}
    (types : inventory.Types expression type (some reference)) :
    expression.isInlined (some reference) = true := by
  cases types <;> rfl

namespace RecordedFunction

variable {recorded : RecordedFunction} {context : TraceContext} {bound : List Binder}
  {reference : Reference}

theorem Sound.types_of_reference (sound : recorded.Sound context) {node : Node}
    {entry : ExpressionEntry} (found : recorded.entry? node = some entry)
    (same : entry.reference = some reference) :
    (recorded.inventory context).Types entry.expression entry.type (some reference) := by
  have types := (sound.entries node.index entry found).types
  rw [same] at types
  exact types

/-- The chain of parts of a reference has an end, because a part comes after its whole. -/
theorem Sound.exists_root (sound : recorded.Sound context) {node : Node}
    {entry : ExpressionEntry} (found : recorded.entry? node = some entry)
    (same : entry.reference = some reference) : ∃ root, recorded.Root node root := by
  rcases (sound.types_of_reference found same).reference_cases with
    ⟨base, whole, part, foundBase, sameBase⟩ | ⟨number, own⟩ | ⟨slot, own⟩
  · have earlier : base.index < node.index :=
      (sound.entries node.index entry found).earlier base (Expression.mem_operands_of_base? part)
    rcases sound.exists_root foundBase sameBase with ⟨root, rest⟩
    exact ⟨root, .part found part rest⟩
  · exact ⟨entry, .whole found (own ▸ rfl)⟩
  · exact ⟨entry, .whole found (own ▸ rfl)⟩
termination_by node.index

/-- Induction along a chain of parts that begins at a reference. All of them have its rights,
and the end is a variable or a buffer. -/
theorem Root.along (sound : recorded.Sound context) {root : ExpressionEntry}
    {motive : Node → Prop}
    (ends : ∀ node, recorded.entry? node = some root → root.reference = some reference →
      ((∃ number, root.expression = .localVariable number) ∨
        ∃ slot, root.expression = .binding slot) → motive node)
    (part : ∀ node base entry, recorded.entry? node = some entry →
      entry.reference = some reference → base ∈ entry.expression.operands → motive base →
        motive node)
    {node : Node} (chain : recorded.Root node root) :
    ∀ entry, recorded.entry? node = some entry → entry.reference = some reference →
      motive node := by
  induction chain with
  | whole found whole =>
      intro entry again same
      cases found.symm.trans again
      rcases (sound.types_of_reference found same).reference_cases with ⟨_, _, isPart, _⟩ | own
      · cases whole.symm.trans isPart
      · exact ends _ found same own
  | @part node base entry root found isPart _ induction =>
      intro _ again same
      cases found.symm.trans again
      rcases (sound.types_of_reference found same).reference_cases with
        ⟨other, whole, again, foundWhole, sameWhole⟩ | ⟨_, own⟩ | ⟨_, own⟩
      · cases isPart.symm.trans again
        exact part node base entry found same (Expression.mem_operands_of_base? isPart)
          (induction ends whole foundWhole sameWhole)
      · rw [own] at isPart
        cases isPart
      · rw [own] at isPart
        cases isPart

theorem Root.variable_mem (sound : recorded.Sound context) {node : Node}
    {entry root : ExpressionEntry} {number : Nat} (chain : recorded.Root node root)
    (found : recorded.entry? node = some entry) (same : entry.reference = some reference)
    (own : root.expression = .localVariable number)
    (emitted : ∀ (index : Nat) entry, .node index ∈ bound →
      recorded.expressions[index]? = some entry → entry.isInlined = false)
    (ready : Ready recorded.expressions bound node.index) : .variable number ∈ bound := by
  have spelled {node : Node} {entry : ExpressionEntry} (found : recorded.entry? node = some entry)
      (same : entry.reference = some reference) : .node node.index ∉ bound := by
    intro available
    have types := sound.types_of_reference found same
    have inlined := emitted node.index entry available found
    rw [ExpressionEntry.isInlined, same, types.isInlined_of_reference] at inlined
    cases inlined
  have available : Ready recorded.expressions bound node.index → .variable number ∈ bound := by
    apply chain.along sound (motive := fun node =>
      Ready recorded.expressions bound node.index → .variable number ∈ bound) _ _ entry found same
    · intro node found same _ ready
      cases ready with
      | bound available => exact absurd available (spelled found same)
      | inlined foundReady _ declared _ =>
          cases found.symm.trans foundReady
          exact declared number own
    · intro node base entry found same operand induction ready
      cases ready with
      | bound available => exact absurd available (spelled found same)
      | inlined foundReady _ _ operands =>
          cases found.symm.trans foundReady
          exact induction (operands base operand)
  exact available ready

end RecordedFunction

/-! ## What stands in a block -/

namespace Stands

variable {available bound : List Binder} {block : Block} {statement : Statement}

theorem mem_blockAll_of_mem_all {inner : Statement} (member : inner ∈ statement.all)
    (stands : Stands available block bound statement) : inner ∈ blockAll block := by
  induction stands with
  | here => exact List.mem_append_left _ member
  | later _ induction => exact List.mem_append_right _ (induction member)
  | accept _ induction =>
      exact List.mem_append_left _
        (List.mem_cons_of_mem _ (List.mem_append_left _ (induction member)))
  | reject _ induction =>
      exact List.mem_append_left _
        (List.mem_cons_of_mem _ (List.mem_append_right _ (induction member)))
  | loop _ induction | range _ induction =>
      exact List.mem_append_left _ (List.mem_cons_of_mem _ (induction member))

theorem mem_blockAll (stands : Stands available block bound statement) :
    statement ∈ blockAll block := by
  apply stands.mem_blockAll_of_mem_all
  cases statement <;> exact List.mem_cons_self

theorem mem_bound (stands : Stands available block bound statement) :
    ∀ binder ∈ bound, binder ∈ available ∨ ∃ outer binding,
      Stands available block outer binding ∧ (binder ∈ binding.binds ∨
        ∃ counter first last body, binding = .range counter first last body ∧
          binder = .variable counter) := by
  induction stands with
  | here => exact fun binder member => .inl member
  | later _ induction =>
      intro binder member
      rcases induction binder member with known | ⟨outer, binding, stands, binds⟩
      · rcases List.mem_append.mp known with known | first
        · exact .inl known
        · exact .inr ⟨_, _, .here, .inl first⟩
      · exact .inr ⟨outer, binding, .later stands, binds⟩
  | accept _ induction =>
      intro binder member
      rcases induction binder member with known | ⟨outer, binding, stands, binds⟩
      · exact .inl known
      · exact .inr ⟨outer, binding, .accept stands, binds⟩
  | reject _ induction =>
      intro binder member
      rcases induction binder member with known | ⟨outer, binding, stands, binds⟩
      · exact .inl known
      · exact .inr ⟨outer, binding, .reject stands, binds⟩
  | loop _ induction =>
      intro binder member
      rcases induction binder member with known | ⟨outer, binding, stands, binds⟩
      · exact .inl known
      · exact .inr ⟨outer, binding, .loop stands, binds⟩
  | range _ induction =>
      intro binder member
      rcases induction binder member with known | ⟨outer, binding, stands, binds⟩
      · rcases List.mem_append.mp known with known | counter
        · exact .inl known
        · exact .inr ⟨_, _, .here, .inr ⟨_, _, _, _, rfl, List.mem_singleton.mp counter⟩⟩
      · exact .inr ⟨outer, binding, .range stands, binds⟩

end Stands

mutual
theorem Statement.exists_stands : ∀ {first : Statement} {rest : Block} {available : List Binder},
    ∀ inner ∈ first.all, ∃ bound, Stands available (first :: rest) bound inner
  | .branch condition accept reject, _, _ => by
      intro inner member
      rw [Statement.all, List.mem_cons, List.mem_append] at member
      rcases member with rfl | member | member
      · exact ⟨_, .here⟩
      · obtain ⟨bound, stands⟩ := exists_stands_of_mem_blockAll inner member
        exact ⟨bound, .accept stands⟩
      · obtain ⟨bound, stands⟩ := exists_stands_of_mem_blockAll inner member
        exact ⟨bound, .reject stands⟩
  | .loop body, _, _ => by
      intro inner member
      rw [Statement.all, List.mem_cons] at member
      rcases member with rfl | member
      · exact ⟨_, .here⟩
      · obtain ⟨bound, stands⟩ := exists_stands_of_mem_blockAll inner member
        exact ⟨bound, .loop stands⟩
  | .range counter first last body, _, _ => by
      intro inner member
      rw [Statement.all, List.mem_cons] at member
      rcases member with rfl | member
      · exact ⟨_, .here⟩
      · obtain ⟨bound, stands⟩ := exists_stands_of_mem_blockAll inner member
        exact ⟨bound, .range stands⟩
  | .emit _, _, _ | .declare _ _, _, _ | .store _ _, _, _ | .callVoid _ _, _, _
  | .leaveLoop, _, _ | .nextRound, _, _ | .giveBack _, _, _ | .discard, _, _ => by
      intro inner member
      rw [List.mem_singleton.mp member]
      exact ⟨_, .here⟩

theorem exists_stands_of_mem_blockAll : ∀ {block : List Statement} {available : List Binder},
    ∀ inner ∈ blockAll block, ∃ bound, Stands available block bound inner
  | [], _ => nofun
  | first :: rest, _ => by
      intro inner member
      rcases List.mem_append.mp member with member | member
      · exact Statement.exists_stands inner member
      · obtain ⟨bound, stands⟩ := exists_stands_of_mem_blockAll inner member
        exact ⟨bound, .later stands⟩
end

/-! ## Finished recordings -/

/-- A script leaves a recorder that keeps the rights of references. -/
theorem Tracing.respects_of_scriptWork {around : Surroundings} {body : Script}
    {result : Option Operand} {session : Session} {recorded : RecordedFunction} {final : Recorder}
    (worked : scriptWork around body result { session := session } = .ok recorded final) :
    final.Respects :=
  ((scriptWork_follows around body result _).becomes_of_ok worked).respects
    (Recorder.respects_empty session)

/-- A recording that keeps the rights of references. -/
structure RecordedFunction.Respects (recorded : RecordedFunction) : Prop where
  noted : ∀ entry ∈ recorded.expressions, ∀ slot, entry.expression = .binding slot →
    ∃ used ∈ recorded.bindings, used.slot = slot ∧ used.type = entry.type ∧
      entry.reference = some ⟨used.access.referenceAccess, .binding⟩
  stores : ∀ block target source, recorded.body = .statements block →
    .store target source ∈ blockAll block → ∃ entry reference,
      recorded.entry? target = some entry ∧ entry.reference = some reference ∧
        reference.access = .readWrite
  counters : ∀ block counter first last body, recorded.body = .statements block →
    .range counter first last body ∈ blockAll block → ∀ entry ∈ recorded.expressions,
      entry.expression = .localVariable counter → entry.reference = some ⟨.read, .localVariable⟩

theorem Recorder.Respects.recorded {recorder : Recorder} (respects : recorder.Respects)
    (function : ShaderFunction) : (recorder.recorded function).Respects where
  noted entry member := (respects.entries entry member).noted
  stores block target source same inside := by
    cases same
    exact respects.statements _ (holds_of_openBlock inside)
  counters block counter first last body same inside entry member own := by
    cases same
    rcases Array.getElem?_of_mem member with ⟨index, found⟩
    have readOnly : recorder.ReadOnly counter := respects.statements _ (holds_of_openBlock inside)
    exact readOnly.read index entry found own

theorem Program.Makes.respects {program : Program} {function : ShaderFunction}
    {recorded : RecordedFunction} (makes : program.Makes function recorded) :
    recorded.Respects := by
  rcases makes.cases with ⟨text, _, callees, _, rfl⟩ | ⟨body, result, depth, _, final, _, worked⟩
  · exact ⟨by simp, nofun, nofun⟩
  · rw [Tracing.scriptWork_recorded worked]
    exact (Tracing.respects_of_scriptWork worked).recorded function

/-! ## Stores -/

/-- A statement that makes a node available binds it, and one that makes a variable available
declares it. -/
theorem Statement.binds_cases {statement : Statement} {binder : Binder}
    (binds : binder ∈ statement.binds) :
    (∃ node, statement = .emit node ∧ binder = .node node.index) ∨
      ∃ number initial, statement = .declare number initial ∧ binder = .variable number := by
  cases statement with
  | emit node => exact .inl ⟨node, rfl, List.mem_singleton.mp binds⟩
  | declare number initial => exact .inr ⟨number, initial, rfl, List.mem_singleton.mp binds⟩
  | _ => cases binds

theorem Stands.not_isInlined {inventory : Inventory} {inLoop : Prop} {block : Block}
    {bound : List Binder} {statement : Statement} (stands : Stands [] block bound statement)
    (checked : BlockChecked inventory inLoop [] block) (index : Nat) (entry : ExpressionEntry)
    (available : .node index ∈ bound) (found : inventory.expressions[index]? = some entry) :
    entry.isInlined = false := by
  rcases stands.mem_bound _ available with impossible | ⟨_, binding, inside, binds | counts⟩
  · cases impossible
  · rcases Statement.binds_cases binds with ⟨node, rfl, ⟨⟩⟩ | ⟨_, _, _, ⟨⟩⟩
    rcases inside.checked checked with ⟨_, emitted⟩
    simp only [Statement.Checked] at emitted
    rcases emitted with ⟨_, again, notInlined, _⟩
    cases found.symm.trans again
    exact notInlined
  · rcases counts with ⟨_, _, _, _, _, ⟨⟩⟩

theorem Stands.exists_declare {block : Block} {bound : List Binder} {statement : Statement}
    {number : Nat} (stands : Stands [] block bound statement) (available : .variable number ∈ bound) :
    (∃ outer initial, Stands [] block outer (.declare number initial)) ∨
      ∃ outer first last body, Stands [] block outer (.range number first last body) := by
  rcases stands.mem_bound _ available with impossible | ⟨outer, binding, inside, binds | counts⟩
  · cases impossible
  · rcases Statement.binds_cases binds with ⟨_, _, ⟨⟩⟩ | ⟨_, initial, rfl, ⟨⟩⟩
    exact .inl ⟨outer, initial, inside⟩
  · rcases counts with ⟨_, first, last, body, rfl, ⟨⟩⟩
    exact .inr ⟨outer, first, last, body, inside⟩

/-- The stores of a recording write variables that it declares before them, none of which counts
the rounds of a loop, or buffers. -/
def RecordedFunction.StoresIntoOwn (recorded : RecordedFunction) : Prop :=
  ∀ block bound target source, recorded.body = .statements block →
    Stands [] block bound (.store target source) →
    (∃ root, recorded.Root target root) ∧ ∀ root, recorded.Root target root →
      (∃ number, root.expression = .localVariable number ∧ .variable number ∈ bound ∧
        (∃ outer initial, Stands [] block outer (.declare number initial)) ∧
        ∀ outer first last body, ¬ Stands [] block outer (.range number first last body)) ∨
      ∃ slot, root.expression = .binding slot

namespace RecordedFunction

variable {recorded : RecordedFunction} {context : TraceContext} {block : Block}
  {bound : List Binder} {target source : Node}

/-- The root of a store is a variable or buffer that may be written. -/
theorem Respects.writable_root (respects : recorded.Respects) (sound : recorded.Sound context)
    (body : recorded.body = .statements block)
    (stands : Stands [] block bound (.store target source)) {root : ExpressionEntry}
    (chain : recorded.Root target root) :
    root ∈ recorded.expressions ∧
      (∃ reference, root.reference = some reference ∧ reference.access = .readWrite) ∧
      ((∃ number, root.expression = .localVariable number) ∨
        ∃ slot, root.expression = .binding slot) := by
  rcases respects.stores block target source body stands.mem_blockAll with
    ⟨entry, reference, found, same, writable⟩
  refine chain.along sound (motive := fun _ => _) ?_ ?_ entry found same
  · intro node found same own
    exact ⟨Array.mem_of_getElem? found, ⟨reference, same, writable⟩, own⟩
  · exact fun _ _ _ _ _ _ later => later

theorem Respects.storesIntoOwn (respects : recorded.Respects) (sound : recorded.Sound context) :
    recorded.StoresIntoOwn := by
  intro block bound target source body stands
  rcases respects.stores block target source body stands.mem_blockAll with
    ⟨entry, reference, found, same, _⟩
  refine ⟨sound.exists_root found same, fun root chain => ?_⟩
  rcases respects.writable_root sound body stands chain with
    ⟨member, ⟨rights, sameRights, writable⟩, ⟨number, own⟩ | buffer⟩
  · have notCounter : ∀ outer first last inner,
        ¬ Stands [] block outer (.range number first last inner) := by
      intro outer first last inner counts
      have read := respects.counters block number first last inner body counts.mem_blockAll root
        member own
      cases sameRights.symm.trans read
      cases writable
    have checked := sound.checked block body
    rcases stands.checked checked with ⟨_, storeChecked⟩
    have ready := storeChecked.ready target List.mem_cons_self
    have available := chain.variable_mem sound found same own (stands.not_isInlined checked) ready
    refine .inl ⟨number, own, available, ?_, notCounter⟩
    rcases stands.exists_declare available with declared | ⟨outer, first, last, inner, counts⟩
    · exact declared
    · exact absurd counts (notCounter outer first last inner)
  · exact .inr buffer

end RecordedFunction

/-! ## Binding tables -/

theorem BindingTable.validateFrom_ok {seen : List Slot} {entries : List BindingEntry}
    (valid : validateFrom seen entries = .ok ()) :
    (∀ entry ∈ entries, entry.slot ∉ seen ∧ entry.validate = .ok ()) ∧
      (entries.map BindingEntry.slot).Nodup := by
  induction entries generalizing seen with
  | nil => exact ⟨nofun, List.nodup_nil⟩
  | cons first rest induction =>
      unfold validateFrom at valid
      split at valid
      next => cases valid
      next new =>
        rcases bind_eq_ok.mp valid with ⟨_, firstValid, restValid⟩
        rcases induction restValid with ⟨others, different⟩
        have unseen : first.slot ∉ seen := fun member => new (List.contains_iff_mem.mpr member)
        constructor
        · intro entry member
          rcases List.mem_cons.mp member with rfl | member
          · exact ⟨unseen, firstValid⟩
          · rcases others entry member with ⟨notSeen, entryValid⟩
            exact ⟨fun old => notSeen (List.mem_cons_of_mem _ old), entryValid⟩
        · rw [List.map_cons, List.nodup_cons]
          refine ⟨fun member => ?_, different⟩
          rcases List.mem_map.mp member with ⟨entry, inside, same⟩
          exact (others entry inside).1 (same ▸ List.mem_cons_self)

theorem BindingEntry.checkUniform_of_validate {entry : BindingEntry}
    (valid : entry.validate = .ok ()) (isUniform : entry.access = .uniform) :
    entry.type.checkUniform = .ok () := by
  unfold validate at valid
  rw [isUniform] at valid
  dsimp only at valid
  split at valid
  next passed => exact passed
  next => cases valid

/-- The buffers of a recording are used as a table declares them: each noted use, and each
expression that is a buffer, has the type and the access of the entry for its slot, and a buffer
in which a store ends is declared writable. -/
structure RecordedFunction.UsesAsDeclared (recorded : RecordedFunction) (table : BindingTable) :
    Prop where
  noted : ∀ used ∈ recorded.bindings, ∃ declared ∈ table.entries,
    declared.slot = used.slot ∧ declared.type = used.type ∧ declared.access = used.access
  expressions : ∀ entry ∈ recorded.expressions, ∀ slot, entry.expression = .binding slot →
    ∃ declared ∈ table.entries, declared.slot = slot ∧ declared.type = entry.type ∧
      entry.reference = some ⟨declared.access.referenceAccess, .binding⟩ ∧
      ∃ used ∈ recorded.bindings, used.slot = slot
  stores : ∀ block bound target source root slot, recorded.body = .statements block →
    Stands [] block bound (.store target source) → recorded.Root target root →
      root.expression = .binding slot →
        ∃ declared ∈ table.entries, declared.slot = slot ∧ declared.access = .storage true

theorem BindingTable.noted_of_checkFunction {table : BindingTable} {recorded : RecordedFunction}
    (checked : table.checkFunction recorded = .ok ()) :
    ∀ used ∈ recorded.bindings, ∃ declared ∈ table.entries,
      declared.slot = used.slot ∧ declared.type = used.type ∧ declared.access = used.access := by
  intro used member
  have passed := passed_of_forM checked used member
  unfold checkUse find? at passed
  split at passed
  next => cases passed
  next declared found =>
    split at passed
    next => cases passed
    next sameType =>
      split at passed
      next => cases passed
      next sameAccess =>
        have slot := List.find?_some found
        rw [decide_eq_true_eq] at slot
        exact ⟨declared, List.mem_of_find?_eq_some found, slot,
          Decidable.not_not.mp sameType, Decidable.not_not.mp sameAccess⟩

theorem RecordedFunction.Respects.usesAsDeclared {recorded : RecordedFunction}
    {context : TraceContext} {table : BindingTable} (respects : recorded.Respects)
    (sound : recorded.Sound context) (checked : table.checkFunction recorded = .ok ()) :
    recorded.UsesAsDeclared table := by
  have noted := BindingTable.noted_of_checkFunction checked
  have expressions : ∀ entry ∈ recorded.expressions, ∀ slot, entry.expression = .binding slot →
      ∃ declared ∈ table.entries, declared.slot = slot ∧ declared.type = entry.type ∧
        entry.reference = some ⟨declared.access.referenceAccess, .binding⟩ ∧
        ∃ used ∈ recorded.bindings, used.slot = slot := by
    intro entry member slot own
    rcases respects.noted entry member slot own with ⟨used, listed, rfl, sameType, sameRights⟩
    rcases noted used listed with ⟨declared, inside, sameSlot, declaredType, declaredAccess⟩
    refine ⟨declared, inside, sameSlot, declaredType.trans sameType, ?_, used, listed, rfl⟩
    rw [declaredAccess]
    exact sameRights
  refine ⟨noted, expressions, ?_⟩
  intro block bound target source root slot body stands chain own
  rcases respects.writable_root sound body stands chain with
    ⟨member, ⟨rights, sameRights, writable⟩, _⟩
  rcases expressions root member slot own with ⟨declared, inside, sameSlot, _, declaredRights, _⟩
  refine ⟨declared, inside, sameSlot, ?_⟩
  cases sameRights.symm.trans declaredRights
  cases access : declared.access with
  | uniform =>
      rw [access] at writable
      cases writable
  | storage mode =>
      cases mode with
      | true => rfl
      | false =>
          rw [access] at writable
          cases writable

/-! ## Modules -/

/-- A module can only be resolved with a table that is valid. -/
theorem Program.validate_of_resolve {program : Program} {roots : List ShaderFunction}
    {table : BindingTable} {config : ResolveConfig} {journal after : Journal}
    {resolved : ResolvedModule}
    (resolves : program.resolve roots table config journal = .ok resolved after) :
    table.validate = .ok () := by
  unfold Program.resolve at resolves
  rcases bind_ran_ok.mp resolves with ⟨_, _, valid, _⟩
  cases answer : table.validate with
  | ok answer => rfl
  | error error =>
      rw [answer] at valid
      cases valid

/-- References keep their access rights. After any traces of functions of a program, however they
ended, the chain of parts of every store of a finished recording ends in a variable that was
declared before the store and counts no loop, or in a buffer. If the functions resolve with a
table, it declares every slot once, its uniform entries have uniform layouts, and every recording
of the module uses the buffers with exactly the types and accesses that the table declares, and
stores only into those that it declares writable. -/
theorem Program.references_keepRights {program : Program} {roots : List ShaderFunction}
    (known : ∀ root ∈ roots, program.find? root.id = some root) (journal : Journal) :
    let context := (program.attemptAll roots { journal := journal }).context
    (∀ recorded ∈ context.finished, recorded.StoresIntoOwn) ∧
    ∀ table config resolved after,
      program.resolve roots table config journal = .ok resolved after →
      resolved.bindings = table ∧ (table.entries.map BindingEntry.slot).Nodup ∧
      (∀ entry ∈ table.entries, entry.access = .uniform → entry.type.checkUniform = .ok ()) ∧
      (∀ id, .function id ∈ resolved.declarations.map Prod.fst ↔ id ∈ context.order) ∧
      ∀ recorded ∈ context.finished, recorded.UsesAsDeclared table := by
  intro context
  have sound : context.Sound program :=
    Program.attemptAll_sound known (TraceContext.sound_empty program)
  have ordered : context.Ordered :=
    program.attemptAll_ordered roots TraceContext.ordered_empty
  have recordedSound : ∀ recorded ∈ context.finished, recorded.Sound context :=
    fun recorded member => (sound.finished recorded.id recorded (ordered.find?_of_mem member)).2
  have respects : ∀ recorded ∈ context.finished, recorded.Respects :=
    fun recorded member => (Program.makes_of_attemptAll member).respects
  constructor
  · exact fun recorded member =>
      (respects recorded member).storesIntoOwn (recordedSound recorded member)
  · intro table config resolved after resolves
    have declares := Program.function_mem_declarations resolves
    rcases BindingTable.validateFrom_ok (Program.validate_of_resolve resolves) with
      ⟨valid, different⟩
    rcases Program.resolve_eq_ok resolves with ⟨_, _, ran, checked, rfl⟩
    rw [← Program.context_of_traceAll ran] at checked
    refine ⟨rfl, different, ?_, declares, ?_⟩
    · exact fun entry member isUniform =>
        BindingEntry.checkUniform_of_validate (valid entry member).2 isUniform
    · exact fun recorded member => (respects recorded member).usesAsDeclared
        (recordedSound recorded member) (passed_of_forM checked recorded member)

def exampleDimmer : BindingEntry :=
  ⟨⟨0, 1⟩, .struct (some "Scene") (.cons "lamp" exampleLamp {} .nil), .storage true, none⟩

def exampleDim : ShaderFunction where
  id := ⟨0⟩
  signature := ⟨"dim", [], none, none⟩
  implementation := .script
    (.ofList [
      .bind "scene" exampleDimmer,
      .member "lamp" "scene" "lamp",
      .member "power" "lamp" "power",
      .bind "shown" exampleScene,
      .declare "rest" none (.literal (.f32 0x3f800000)),
      .range "round" (.literal (.u32 0)) (.literal (.u32 2)) (.ofList [
        .attempt (.ofList [.store "round" (.literal (.u32 1)), .store "shown" (.register "scene")]),
        .binary "half" .mul (.register "rest") (.literal (.f32 0x3f000000)),
        .store "rest" (.register "half"),
        .store "power" (.register "rest")])])
    none

theorem references_keepRights_exampleDim :
    let program : Program := ⟨[exampleDim]⟩
    let table : BindingTable := ⟨[exampleDimmer, exampleScene]⟩
    let context := (program.attemptAll [exampleDim] {}).context
    ∃ resolved after recorded,
      program.resolve [exampleDim] table {} {} = .ok resolved after ∧
      recorded ∈ context.finished ∧ recorded.bindings = [exampleDimmer, exampleScene] ∧
      recorded.StoresIntoOwn ∧ recorded.UsesAsDeclared table := by
  intro program table context
  have known : ∀ root ∈ [exampleDim], program.find? root.id = some root := by
    intro root member
    rw [List.mem_singleton.mp member]
    rfl
  have succeeds : (match program.resolve [exampleDim] table {} {} with
    | .ok _ _ => true
    | .error _ _ => false) = true := by decide +kernel
  have listed : context.finished.any
      (fun recorded => recorded.bindings == [exampleDimmer, exampleScene]) = true := by
    decide +kernel
  rcases List.any_eq_true.mp listed with ⟨recorded, member, bindings⟩
  rcases Program.references_keepRights known {} with ⟨stores, modules⟩
  cases resolves : program.resolve [exampleDim] table {} {} with
  | error error after =>
      rw [resolves] at succeeds
      cases succeeds
  | ok resolved after =>
      rcases modules table {} resolved after resolves with ⟨_, _, _, _, uses⟩
      exact ⟨resolved, after, recorded, rfl, member, eq_of_beq bindings, stores recorded member,
        uses recorded member⟩

end ShaderKit
