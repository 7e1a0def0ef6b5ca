import ShaderKit.Module.Resolve
import ShaderKit.Proofs.Recording.PostOrder

/-!
# Declarations stand after what they need

The declarations of a module are collected so that everything that the text of a declaration
names is declared before it.
-/

namespace ShaderKit

/-! ## What declarations need -/

mutual
def TypeDescriptor.structs : TypeDescriptor → List TypeDescriptor
  | .array element _ => element.structs
  | .struct label members => members.structs ++ [.struct label members]
  | _ => []

def MemberList.structs : MemberList → List TypeDescriptor
  | .nil => []
  | .cons _ type _ rest => type.structs ++ rest.structs
end

theorem MemberList.mem_structs {inner : TypeDescriptor} (members : MemberList) :
    inner ∈ members.structs ↔ ∃ member ∈ members.toList, inner ∈ member.type.structs := by
  cases members with
  | nil => simp [structs, toList]
  | cons name type attributes rest =>
      simp only [structs, toList, List.mem_append, List.exists_mem_cons_iff, rest.mem_structs]

def Expression.declaration? : Expression → Option Declaration
  | .constant number => some (.constant number)
  | .binding slot => some (.binding slot)
  | .helper used _ => some (.helper used)
  | .call callee _ => some (.function callee)
  | _ => none

namespace Declaration

variable (context : TraceContext) (table : BindingTable)

def types : Declaration → List TypeDescriptor
  | .type (.struct _ members) => members.toList.map Member.type
  | .type _ => []
  | .constant number => (context.constant? number).toList.map ModuleConstant.type
  | .binding slot => (table.find? slot).toList.map BindingEntry.type
  | .helper used => used.parameterTypes ++ [used.resultType]
  | .function id => (context.find? id).toList.flatMap RecordedFunction.mentionedTypes

/-- The text of a declaration names something else that the module declares: a structure,
possibly inside another type, what an expression of a function names, or a function that a
function refers to. -/
inductive Needs : Declaration → Declaration → Prop where
  | type {declaration : Declaration} {type inner : TypeDescriptor}
      (named : type ∈ declaration.types context table) (inside : inner ∈ type.structs) :
      Needs declaration (.type inner)
  | expression {id : FunctionId} {recorded : RecordedFunction} {entry : ExpressionEntry}
      {needed : Declaration} (found : context.find? id = some recorded)
      (member : entry ∈ recorded.expressions)
      (named : entry.expression.declaration? = some needed) : Needs (.function id) needed
  | function {id callee : FunctionId} {recorded : RecordedFunction}
      (found : context.find? id = some recorded) (refers : recorded.Refers callee) :
      Needs (.function id) (.function callee)

def Known : Declaration → Prop
  | .type named => ∃ label members, named = .struct label members
  | .constant number => (context.constant? number).isSome
  | .binding slot => (table.find? slot).isSome
  | .helper _ => True
  | .function id => (context.find? id).isSome

end Declaration

/-- Declarations that stand after what they need. -/
structure Collected (context : TraceContext) (table : BindingTable) (known : List Declaration) :
    Prop where
  inOrder : InOrder (Declaration.Needs context table) known
  known : ∀ declaration ∈ known, declaration.Known context table

structure Collects (context : TraceContext) (table : BindingTable)
    (before after wanted : List Declaration) : Prop where
  collected : Collected context table after
  kept : ∀ declaration ∈ before, declaration ∈ after
  has : ∀ declaration ∈ wanted, declaration ∈ after

section

variable {context : TraceContext} {table : BindingTable} {known middle after : List Declaration}
  {wanted more : List Declaration}

theorem Collects.nil (collected : Collected context table known) :
    Collects context table known known [] :=
  ⟨collected, fun _ member => member, fun _ member => nomatch member⟩

theorem Collects.trans (first : Collects context table known middle wanted)
    (second : Collects context table middle after more) :
    Collects context table known after (wanted ++ more) where
  collected := second.collected
  kept declaration member := second.kept declaration (first.kept declaration member)
  has declaration member := by
    rcases List.mem_append.mp member with before | later
    · exact second.kept declaration (first.has declaration before)
    · exact second.has declaration later

theorem Collects.then (first : Collects context table known middle wanted)
    (second : Collects context table middle after more) :
    Collects context table known after more where
  collected := second.collected
  kept := (first.trans second).kept
  has := second.has

theorem Collects.foldl {β : Type} {step : List Declaration → β → List Declaration}
    {wants : β → List Declaration} {items : List β}
    (each : ∀ item ∈ items, ∀ known, Collected context table known →
      Collects context table known (step known item) (wants item))
    (collected : Collected context table known) :
    Collects context table known (items.foldl step known) (items.flatMap wants) := by
  induction items generalizing known with
  | nil => exact .nil collected
  | cons item rest induction =>
      have first := each item List.mem_cons_self known collected
      exact first.trans (induction
        (fun other member => each other (List.mem_cons_of_mem _ member)) first.collected)

theorem mem_declare {declaration other : Declaration} :
    other ∈ declare known declaration ↔ other ∈ known ∨ other = declaration := by
  unfold declare
  split
  next present =>
    constructor
    · exact .inl
    · rintro (member | rfl)
      · exact member
      · exact List.contains_iff_mem.mp present
  next => rw [List.mem_append, List.mem_singleton]

/-- A declaration is appended once all that it needs is there. -/
theorem declare_collects {declaration : Declaration} (collected : Collected context table known)
    (found : declaration.Known context table)
    (met : ∀ needed, declaration.Needs context table needed → needed ∈ known) :
    Collects context table known (declare known declaration) [declaration] where
  collected := by
    have allKnown : ∀ other ∈ declare known declaration, other.Known context table := by
      intro other member
      rcases mem_declare.mp member with old | rfl
      · exact collected.known other old
      · exact found
    refine ⟨?_, allKnown⟩
    unfold declare
    split
    next => exact collected.inOrder
    next absent =>
      have new : declaration ∉ known := fun member => absent (List.contains_iff_mem.mpr member)
      exact collected.inOrder.concat new (fun _ _ _ needed => needed) met
  kept other member := mem_declare.mpr (.inl member)
  has other member := mem_declare.mpr (.inr (List.mem_singleton.mp member))

/-! ## Types -/

theorem needs_struct {label : Option String} {members : MemberList} {needed : Declaration} :
    Declaration.Needs context table (.type (.struct label members)) needed ↔
      ∃ inner ∈ members.structs, needed = .type inner := by
  constructor
  · rintro ⟨named, inside⟩
    rcases List.mem_map.mp named with ⟨member, listed, rfl⟩
    exact ⟨_, (MemberList.mem_structs _).mpr ⟨member, listed, inside⟩, rfl⟩
  · rintro ⟨inner, inside, rfl⟩
    rcases (MemberList.mem_structs _).mp inside with ⟨member, listed, inside⟩
    exact .type (List.mem_map.mpr ⟨member, listed, rfl⟩) inside

mutual
theorem TypeDescriptor.declare_collects : ∀ (type : TypeDescriptor) {known : List Declaration},
    Collected context table known →
      Collects context table known (type.declare known) (type.structs.map Declaration.type)
  | .scalar _, known, collected | .vector _ _, known, collected
  | .matrix _ _ _, known, collected | .atomic _, known, collected => .nil collected
  | .array element length, known, collected => element.declare_collects collected
  | .struct label members, known, collected => by
      rw [TypeDescriptor.declare]
      split
      next present =>
        have member := List.contains_iff_mem.mp present
        refine ⟨collected, fun _ inside => inside, ?_⟩
        intro declaration wanted
        rcases List.mem_map.mp wanted with ⟨inner, inside, rfl⟩
        rw [TypeDescriptor.structs, List.mem_append, List.mem_singleton] at inside
        rcases inside with inside | rfl
        · exact (collected.inOrder.earlier _ member _ (needs_struct.mpr ⟨inner, inside, rfl⟩)).1
        · exact member
      next =>
        have inner := members.declare_collects collected
        have found : Declaration.Known context table (.type (.struct label members)) :=
          ⟨label, members, rfl⟩
        have both := inner.trans (ShaderKit.declare_collects inner.collected found
          fun needed needs => by
            rcases needs_struct.mp needs with ⟨type, inside, rfl⟩
            exact inner.has _ (List.mem_map_of_mem inside))
        rw [← List.map_singleton, ← List.map_append] at both
        exact both

theorem MemberList.declare_collects : ∀ (members : MemberList) {known : List Declaration},
    Collected context table known →
      Collects context table known (members.declare known) (members.structs.map Declaration.type)
  | .nil, known, collected => .nil collected
  | .cons name type attributes rest, known, collected => by
      have first := type.declare_collects collected
      have both := first.trans (rest.declare_collects first.collected)
      rw [← List.map_append] at both
      exact both
end

theorem declareTypes_collects (collected : Collected context table known)
    (types : List TypeDescriptor) :
    Collects context table known (declareTypes known types)
      (types.flatMap fun type => type.structs.map Declaration.type) :=
  .foldl (fun type _ _ collected => type.declare_collects collected) collected

theorem mem_structs_of_types {types : List TypeDescriptor} {type inner : TypeDescriptor}
    (member : type ∈ types) (inside : inner ∈ type.structs) :
    Declaration.type inner ∈ types.flatMap fun type => type.structs.map Declaration.type :=
  List.mem_flatMap.mpr ⟨type, member, List.mem_map_of_mem inside⟩

/-! ## Constants, buffers and helpers -/

theorem Declaration.Needs.of_types {declaration needed : Declaration}
    (needs : declaration.Needs context table needed) (plain : ∀ id, declaration ≠ .function id) :
    ∃ type ∈ declaration.types context table, ∃ inner ∈ type.structs, needed = .type inner := by
  cases needs with
  | type named inside => exact ⟨_, named, _, inside, rfl⟩
  | @expression id => exact absurd rfl (plain id)
  | @function id => exact absurd rfl (plain id)

theorem declare_collects_types {declaration : Declaration} {types : List TypeDescriptor}
    (collected : Collected context table known) (found : declaration.Known context table)
    (plain : ∀ id, declaration ≠ .function id)
    (named : ∀ type ∈ declaration.types context table, type ∈ types ∨ type.structs = []) :
    Collects context table known (declare (declareTypes known types) declaration)
      [declaration] := by
  have first := declareTypes_collects collected types
  apply first.then (declare_collects first.collected found ?_)
  intro needed needs
  rcases needs.of_types plain with ⟨type, spelled, inner, inside, rfl⟩
  rcases named type spelled with listed | flat
  · exact first.has _ (mem_structs_of_types listed inside)
  · rw [flat] at inside
    cases inside

theorem declareConstant_collects {number : Nat} (collected : Collected context table known)
    (below : number < context.constants.length) :
    Collects context table known (context.declareConstant known number) [.constant number] := by
  have found : Declaration.Known context table (.constant number) := by
    change (context.constants[number]?).isSome = true
    rw [List.getElem?_eq_getElem below]
    rfl
  exact declare_collects_types collected found nofun fun _ named => .inl named

theorem declareBinding_collects {used : BindingEntry} (collected : Collected context table known)
    (found : (table.find? used.slot).isSome) :
    Collects context table known (table.declareBinding known used) [.binding used.slot] :=
  declare_collects_types collected found nofun fun _ named => .inl named

theorem Helper.declare_collects (helper : Helper) (collected : Collected context table known) :
    Collects context table known (helper.declare known) [.helper helper] := by
  have found : Declaration.Known context table (.helper helper) := trivial
  refine declare_collects_types collected found nofun fun type named => ?_
  rcases List.mem_append.mp named with listed | result
  · exact .inl listed
  · rw [List.mem_singleton.mp result]
    cases helper
    exact .inr rfl

/-! ## Functions -/

/-- A declaration that is collected for a recorded function: a structure of a type that the
function mentions, or an entry of one of its lists. -/
inductive RecordedFunction.Lists (recorded : RecordedFunction) : Declaration → Prop where
  | type {type inner : TypeDescriptor} (mentioned : type ∈ recorded.mentionedTypes)
      (inside : inner ∈ type.structs) : Lists recorded (.type inner)
  | constant {number : Nat} (member : number ∈ recorded.constants) :
      Lists recorded (.constant number)
  | binding {used : BindingEntry} (member : used ∈ recorded.bindings) :
      Lists recorded (.binding used.slot)
  | helper {used : Helper} (member : used ∈ recorded.helpers) : Lists recorded (.helper used)
  | function {callee : FunctionId} (member : callee ∈ recorded.callees) :
      Lists recorded (.function callee)

/-- The lists of a recorded function have all that its text names. -/
theorem RecordedFunction.Accounted.lists {recorded : RecordedFunction} {needed : Declaration}
    (accounted : recorded.Accounted context)
    (found : context.find? recorded.id = some recorded)
    (needs : Declaration.Needs context table (.function recorded.id) needed) :
    recorded.Lists needed := by
  cases needs with
  | @type _ type inner named inside =>
      change type ∈ (context.find? recorded.id).toList.flatMap _ at named
      rw [found, Option.toList_some, List.flatMap_singleton] at named
      exact .type named inside
  | @expression _ other entry _ again member named =>
      cases found.symm.trans again
      have covered := accounted.expressions entry member
      cases same : entry.expression with
      | constant number =>
          rw [same] at named covered
          cases named
          exact .constant covered
      | binding slot =>
          rw [same] at named covered
          cases named
          rcases covered with ⟨used, inside, rfl⟩
          exact .binding inside
      | helper used =>
          rw [same] at named covered
          cases named
          exact .helper covered
      | call callee =>
          rw [same] at named covered
          cases named
          exact .function covered
      | _ =>
          rw [same] at named
          cases named
  | @function _ callee other again refers =>
      cases found.symm.trans again
      exact .function (refers.mem_callees accounted)

/-- A function is declared after all that it needs, if the functions that it refers to are there
and the table has its buffers. -/
theorem RecordedFunction.declare_collects {recorded : RecordedFunction}
    (collected : Collected context table known) (accounted : recorded.Accounted context)
    (found : context.find? recorded.id = some recorded)
    (callees : ∀ callee ∈ recorded.callees, Declaration.function callee ∈ known)
    (bindings : ∀ used ∈ recorded.bindings, (table.find? used.slot).isSome) :
    Collects context table known (recorded.declare context table known)
      [.function recorded.id] := by
  have constant (number : Nat) (member : number ∈ recorded.constants)
      (known : List Declaration) (collected : Collected context table known) :
      Collects context table known (context.declareConstant known number) [.constant number] :=
    declareConstant_collects collected (accounted.constants number member)
  have buffer (used : BindingEntry) (member : used ∈ recorded.bindings)
      (known : List Declaration) (collected : Collected context table known) :
      Collects context table known (table.declareBinding known used) [.binding used.slot] :=
    declareBinding_collects collected (bindings used member)
  have helper (used : Helper) (_ : used ∈ recorded.helpers) (known : List Declaration)
      (collected : Collected context table known) :
      Collects context table known (used.declare known) [.helper used] :=
    used.declare_collects collected
  have types := declareTypes_collects collected recorded.mentionedTypes
  have constants := Collects.foldl constant types.collected
  have buffers := Collects.foldl buffer constants.collected
  have helpers := Collects.foldl helper buffers.collected
  have all := types.trans (constants.trans (buffers.trans helpers))
  have listed {β : Type} {items : List β} {item : β} {declare : β → Declaration}
      (member : item ∈ items) : declare item ∈ items.flatMap fun item => [declare item] :=
    List.mem_flatMap.mpr ⟨item, member, List.mem_singleton_self _⟩
  have own : Declaration.Known context table (.function recorded.id) := by
    change (context.find? recorded.id).isSome = true
    rw [found]
    rfl
  apply all.then (ShaderKit.declare_collects all.collected own ?_)
  intro needed needs
  cases accounted.lists found needs with
  | type mentioned inside =>
      exact all.has _ (List.mem_append_left _ (mem_structs_of_types mentioned inside))
  | constant member =>
      exact all.has _ (List.mem_append_right _ (List.mem_append_left _ (listed member)))
  | binding member =>
      exact all.has _ (List.mem_append_right _ (List.mem_append_right _
        (List.mem_append_left _ (listed member))))
  | helper member =>
      exact all.has _ (List.mem_append_right _ (List.mem_append_right _
        (List.mem_append_right _ (listed member))))
  | function member => exact all.kept _ (callees _ member)

end

/-! ## Contexts -/

/-- The declarations of a context stand after what they need, and every finished function is
among them. -/
theorem TraceContext.Ordered.declarations_collected {context : TraceContext}
    {table : BindingTable} (ordered : context.Ordered)
    (bindings : ∀ recorded ∈ context.finished, ∀ used ∈ recorded.bindings,
      (table.find? used.slot).isSome) :
    Collected context table (context.declarations table) ∧
      ∀ recorded ∈ context.finished,
        Declaration.function recorded.id ∈ context.declarations table := by
  -- the functions that are declared so far are those before the next one
  have collects (before after : List RecordedFunction)
      (split : context.finished = before ++ after) {known : List Declaration}
      (collected : Collected context table known)
      (declared : ∀ recorded ∈ before, Declaration.function recorded.id ∈ known) :
      let final := after.foldl (RecordedFunction.declare context table) known
      Collected context table final ∧
        ∀ recorded ∈ context.finished, Declaration.function recorded.id ∈ final := by
    induction after generalizing before known with
    | nil =>
        rw [List.append_nil] at split
        exact ⟨collected, fun recorded member => declared recorded (split ▸ member)⟩
    | cons recorded rest induction =>
        have member : recorded ∈ context.finished :=
          split ▸ List.mem_append_right _ List.mem_cons_self
        have found := ordered.find?_of_mem member
        have callees : ∀ callee ∈ recorded.callees, Declaration.function callee ∈ known := by
          intro callee called
          have precedes := ordered.inOrder.earlier recorded.id (mem_order_of_find? found) callee
            ⟨recorded, found, called⟩
          rw [TraceContext.order, split, List.map_append, List.map_cons] at precedes
          rcases List.mem_map.mp precedes.mem_of_append with ⟨earlier, inside, rfl⟩
          exact declared earlier inside
        have own := recorded.declare_collects collected (ordered.accounted recorded member) found
          callees (bindings recorded member)
        apply induction (before ++ [recorded]) (by rw [List.append_assoc]; exact split)
          own.collected
        intro other inside
        rcases List.mem_append.mp inside with earlier | last
        · exact own.kept _ (declared other earlier)
        · exact own.has _ (by rw [List.mem_singleton.mp last]; exact List.mem_singleton_self _)
  exact collects [] context.finished rfl
    ⟨.nil _, fun _ impossible => absurd impossible List.not_mem_nil⟩
    fun _ impossible => absurd impossible List.not_mem_nil

end ShaderKit
