import Mathlib.Data.List.Perm.Subperm
import ShaderKit.Proofs.Descriptor.Registered

/-!
# Locations of entry point members

What the preparation of a structure for an entry point leaves as it is, and which
locations it fills in. Preparing is two things that do not meet: a check of every member
against the role, and a filling of locations that knows no role. Whatever is said of the
result is said of the filling.
-/

namespace ShaderKit

def Member.builtin? (member : Member) : Option Builtin :=
  match member.attributes.io with
  | some (.builtin builtin) => some builtin
  | _ => none

namespace Member

/-- A member of a prepared structure beside the declared one. -/
structure PreparedAs (declared placed : Member) : Prop where
  name : placed.name = declared.name
  type : placed.type = declared.type
  align : placed.attributes.align = declared.attributes.align
  size : placed.attributes.size = declared.attributes.size
  explicit : declared.attributes.io.isSome = true → placed.attributes.io = declared.attributes.io
  attributed : placed.attributes.io.isSome = true

/-- The members of the second list are those of the first, where the members without an
attribute take the given locations in order. -/
inductive FilledWith : List Nat → List Member → List Member → Prop where
  | nil : FilledWith [] [] []
  | explicit {locations : List Nat} {member : Member} {declared placed : List Member}
      (attributed : member.attributes.io.isSome = true)
      (rest : FilledWith locations declared placed) :
      FilledWith locations (member :: declared) (member :: placed)
  | missing {locations : List Nat} {member : Member} {declared placed : List Member}
      (location : Nat) (free : member.attributes.io = none)
      (rest : FilledWith locations declared placed) :
      FilledWith (location :: locations) (member :: declared) (member.placeAt location :: placed)

/-- Some of the numbers outside of `used`, in increasing order and none left out. -/
structure SmallestUnused (used locations : List Nat) : Prop where
  increasing : locations.Pairwise (· < ·)
  unused : ∀ location ∈ locations, location ∉ used
  smallest : ∀ location ∈ locations, ∀ smaller < location, smaller ∈ used ∨ smaller ∈ locations

theorem SmallestUnused.nil (used : List Nat) : SmallestUnused used [] where
  increasing := .nil
  unused := nofun
  smallest := nofun

theorem SmallestUnused.cons {used locations : List Nat} {location : Nat}
    (fresh : location ∉ used) (least : ∀ smaller < location, smaller ∈ used)
    (others : SmallestUnused (location :: used) locations) :
    SmallestUnused used (location :: locations) where
  increasing := by
    refine .cons ?_ others.increasing
    intro other inside
    rcases Nat.lt_trichotomy location other with later | same | before
    · exact later
    · exact absurd (same ▸ List.mem_cons_self) (others.unused other inside)
    · exact absurd (List.mem_cons_of_mem _ (least other before)) (others.unused other inside)
  unused := by
    intro other inside taken
    cases inside with
    | head => exact fresh taken
    | tail _ inside => exact others.unused other inside (List.mem_cons_of_mem _ taken)
  smallest := by
    intro other inside smaller below
    cases inside with
    | head => exact .inl (least smaller below)
    | tail _ inside =>
        rcases others.smallest other inside smaller below with taken | filled
        · cases taken with
          | head => exact .inr List.mem_cons_self
          | tail _ taken => exact .inl taken
        · exact .inr (List.mem_cons_of_mem _ filled)

end Member

/-! ## The least free location -/

theorem mem_of_lt_freeLocation {used : List Nat} {tries next location : Nat}
    (from_next : next ≤ location) (skipped : location < freeLocation used tries next) :
    location ∈ used := by
  induction tries generalizing next with
  | zero => exact absurd skipped (Nat.not_lt.mpr from_next)
  | succ tries induction =>
      rw [freeLocation] at skipped
      split at skipped
      next taken =>
        rcases Nat.eq_or_lt_of_le from_next with same | later
        · exact same ▸ List.contains_iff_mem.mp taken
        · exact induction later skipped
      next => exact absurd skipped (Nat.not_lt.mpr from_next)

theorem freeLocation_of_mem {used : List Nat} {tries next : Nat}
    (taken : freeLocation used tries next ∈ used) :
    freeLocation used tries next = next + tries := by
  induction tries generalizing next with
  | zero => rfl
  | succ tries induction =>
      rw [freeLocation] at taken ⊢
      split at taken
      next used =>
        rw [if_pos used, induction taken]
        omega
      next free => exact absurd (List.contains_iff_mem.mpr taken) free

/-- Among one candidate more than there are used locations, one is free. -/
theorem freeLocation_not_mem (used : List Nat) (next : Nat) :
    freeLocation used (used.length + 1) next ∉ used := by
  intro taken
  have exhausted := freeLocation_of_mem taken
  have inside : List.range' next (used.length + 1) ⊆ used := by
    intro location tried
    rcases List.mem_range'_1.mp tried with ⟨from_next, below⟩
    exact mem_of_lt_freeLocation from_next (exhausted ▸ below)
  have bounded := (List.subperm_of_subset List.nodup_range' inside).length_le
  rw [List.length_range'] at bounded
  omega

/-! ## Filling in locations -/

/-- The members with their missing locations filled in; `used` and `next` are as in
`IoRole.assign`. -/
def Member.fill (used : List Nat) (next : Nat) : List Member → List Member
  | [] => []
  | member :: rest =>
      if member.attributes.io.isSome then member :: fill used next rest
      else
        let location := freeLocation used (used.length + 1) next
        member.placeAt location :: fill (location :: used) location rest

theorem IoRole.assign_eq_ok_iff {role : IoRole} {used : List Nat} {next : Nat}
    {declared assigned : List Member} :
    role.assign used next declared = .ok assigned ↔
      (∀ member ∈ declared, role.checkMember member = .ok ()) ∧
        assigned = Member.fill used next declared := by
  induction declared generalizing used next assigned with
  | nil =>
      constructor
      · intro done
        cases done
        exact ⟨nofun, rfl⟩
      · rintro ⟨_, rfl⟩
        rfl
  | cons member rest induction =>
      have placing : ∀ (used : List Nat) (next : Nat) (placed : Member),
          (∃ others, role.assign used next rest = .ok others ∧
            Except.ok (placed :: others) = (.ok assigned : Except SchemaError _)) ↔
          (∀ other ∈ rest, role.checkMember other = .ok ()) ∧
            assigned = placed :: Member.fill used next rest := by
        intro used next placed
        constructor
        · rintro ⟨others, done, same⟩
          rcases induction.mp done with ⟨checked, rfl⟩
          exact ⟨checked, (Except.ok.inj same).symm⟩
        · rintro ⟨checked, rfl⟩
          exact ⟨_, induction.mpr ⟨checked, rfl⟩, rfl⟩
      have checking : ∀ {rest : Prop},
          (∃ u : Unit, role.checkMember member = .ok u ∧ rest) ↔
            role.checkMember member = .ok () ∧ rest :=
        ⟨fun ⟨_, checked⟩ => checked, fun checked => ⟨(), checked⟩⟩
      rw [List.forall_mem_cons, assign, bind_eq_ok, Member.fill, checking, and_assoc]
      split
      next => rw [bind_eq_ok, placing]
      next => rw [bind_eq_ok, placing]

namespace Member

/-- The filled in locations are the smallest unused ones if no location below `next` is
unused. -/
theorem fill_filledWith {used : List Nat} {next : Nat} (declared : List Member)
    (passed : ∀ location < next, location ∈ used) :
    ∃ locations, FilledWith locations declared (fill used next declared) ∧
      SmallestUnused used locations := by
  induction declared generalizing used next with
  | nil => exact ⟨[], .nil, .nil used⟩
  | cons member rest induction =>
      rw [fill]
      split
      next attributed =>
        rcases induction passed with ⟨locations, filled, smallest⟩
        exact ⟨locations, .explicit attributed filled, smallest⟩
      next bare =>
        have free : member.attributes.io = none := Option.not_isSome_iff_eq_none.mp bare
        have least : ∀ location < freeLocation used (used.length + 1) next, location ∈ used := by
          intro location below
          rcases Nat.lt_or_ge location next with before | from_next
          · exact passed location before
          · exact mem_of_lt_freeLocation from_next below
        rcases induction (fun location below => List.mem_cons_of_mem _ (least location below))
          with ⟨locations, filled, smallest⟩
        exact ⟨_ :: locations, .missing _ free filled,
          .cons (freeLocation_not_mem used next) least smallest⟩

variable {locations used : List Nat} {declared placed : List Member}

namespace FilledWith

theorem preparedAs (filled : FilledWith locations declared placed) :
    List.Forall₂ PreparedAs declared placed := by
  induction filled with
  | nil => exact .nil
  | explicit attributed _ induction =>
      exact .cons ⟨rfl, rfl, rfl, rfl, fun _ => rfl, attributed⟩ induction
  | missing location free _ induction =>
      refine .cons ⟨rfl, rfl, rfl, rfl, ?_, rfl⟩ induction
      intro attributed
      rw [free] at attributed
      cases attributed

/-- Filling in adds the given locations to the declared ones. -/
theorem locations_perm (filled : FilledWith locations declared placed) :
    (placed.filterMap location?).Perm (locations ++ declared.filterMap location?) := by
  induction filled with
  | nil => exact .nil
  | @explicit locations member declared placed attributed _ induction =>
      cases asked : member.location? with
      | none =>
          rw [List.filterMap_cons_none asked, List.filterMap_cons_none asked]
          exact induction
      | some location =>
          rw [List.filterMap_cons_some asked, List.filterMap_cons_some asked]
          exact (induction.cons location).trans List.perm_middle.symm
  | @missing locations member declared placed location free _ induction =>
      have unasked : member.location? = none := by rw [location?, free]
      have placedAt : (member.placeAt location).location? = some location := rfl
      rw [List.filterMap_cons_some placedAt, List.filterMap_cons_none unasked]
      exact induction.cons location

theorem builtins_eq (filled : FilledWith locations declared placed) :
    placed.filterMap builtin? = declared.filterMap builtin? := by
  induction filled with
  | nil => rfl
  | @explicit locations member declared placed attributed _ induction =>
      rw [List.filterMap_cons, List.filterMap_cons, induction]
  | @missing locations member declared placed location free _ induction =>
      have unasked : member.builtin? = none := by rw [builtin?, free]
      have placedAt : (member.placeAt location).builtin? = none := rfl
      rw [List.filterMap_cons_none placedAt, List.filterMap_cons_none unasked, induction]

theorem fill_eq_self (filled : FilledWith locations declared placed) (used : List Nat)
    (next : Nat) : fill used next placed = placed := by
  induction filled with
  | nil => rfl
  | explicit attributed _ induction => rw [fill, if_pos attributed, induction]
  | @missing locations member declared placed location free _ induction =>
      have attributed : (member.placeAt location).attributes.io.isSome = true := rfl
      rw [fill, if_pos attributed, induction]

theorem checkMember {role : IoRole} (filled : FilledWith locations declared placed)
    (checked : ∀ member ∈ declared, role.checkMember member = .ok ()) :
    ∀ member ∈ placed, role.checkMember member = .ok () := by
  induction filled with
  | nil => exact nofun
  | explicit attributed _ induction =>
      rcases List.forall_mem_cons.mp checked with ⟨first, others⟩
      exact List.forall_mem_cons.mpr ⟨first, induction others⟩
  | @missing locations member declared placed location free _ induction =>
      rcases List.forall_mem_cons.mp checked with ⟨first, others⟩
      refine List.forall_mem_cons.mpr ⟨?_, induction others⟩
      rw [IoRole.checkMember, free] at first
      exact first

theorem hasPosition (filled : FilledWith locations declared placed) :
    hasPosition placed = hasPosition declared := by
  induction filled with
  | nil => rfl
  | explicit _ _ induction =>
      rw [ShaderKit.hasPosition, List.any_cons]
      exact congrArg _ induction
  | missing location free _ induction =>
      rw [ShaderKit.hasPosition, List.any_cons, ShaderKit.hasPosition, List.any_cons, free]
      exact congrArg _ induction

theorem nodup_iff (filled : FilledWith locations declared placed)
    (smallest : SmallestUnused (declared.filterMap location?) locations) :
    (placed.filterMap location?).Nodup ↔ (declared.filterMap location?).Nodup := by
  rw [filled.locations_perm.nodup_iff, List.nodup_append]
  constructor
  · exact fun distinct => distinct.2.1
  · intro distinct
    refine ⟨smallest.increasing.imp Nat.ne_of_lt, distinct, ?_⟩
    intro location inside other asked same
    exact smallest.unused location inside (same ▸ asked)

end FilledWith

end Member

/-! ## Prepared structures -/

namespace IoRole

variable {role : IoRole} {label : Option String} {members : MemberList} {prepared : TypeDescriptor}

def fillMembers (members : List Member) : List Member :=
  Member.fill (members.filterMap Member.location?) 0 members

theorem prepare_struct_eq_ok :
    role.prepare (.struct label members) = .ok prepared ↔
      (∀ member ∈ members.toList, role.checkMember member = .ok ()) ∧
        (role = .vertexOutput → hasPosition members.toList = true) ∧
        TypeDescriptor.structOf label (fillMembers members.toList) = .ok prepared := by
  rw [prepare, bind_eq_ok]
  constructor
  · rintro ⟨assigned, placed, done⟩
    rcases assign_eq_ok_iff.mp placed with ⟨checked, rfl⟩
    split at done
    next => cases done
    next positioned =>
      refine ⟨checked, fun output => ?_, done⟩
      cases found : hasPosition members.toList with
      | true => rfl
      | false => exact absurd ⟨output, by rw [found]; rfl⟩ positioned
  · rintro ⟨checked, positioned, built⟩
    refine ⟨_, assign_eq_ok_iff.mpr ⟨checked, rfl⟩, ?_⟩
    rw [if_neg]
    · exact built
    · rintro ⟨output, missing⟩
      rw [positioned output] at missing
      cases missing

theorem filledWith_of_prepare (done : role.prepare (.struct label members) = .ok prepared) :
    ∃ placed locations, prepared = .struct label (.ofList placed) ∧
      Member.FilledWith locations members.toList placed ∧
      Member.SmallestUnused (members.toList.filterMap Member.location?) locations := by
  rcases prepare_struct_eq_ok.mp done with ⟨_, _, built⟩
  rcases @Member.fill_filledWith (members.toList.filterMap Member.location?) 0 members.toList
    (fun _ below => absurd below (Nat.not_lt_zero _)) with ⟨locations, filled, smallest⟩
  exact ⟨_, locations, (TypeDescriptor.structOf_eq_ok built).2.2.1, filled, smallest⟩

theorem prepare_of_filledWith {locations : List Nat} {placed : List Member}
    (filled : Member.FilledWith locations members.toList placed)
    (done : role.prepare (.struct label members) = .ok (.struct label (.ofList placed))) :
    role.prepare (.struct label (.ofList placed)) = .ok (.struct label (.ofList placed)) := by
  rcases prepare_struct_eq_ok.mp done with ⟨checked, positioned, built⟩
  have same : MemberList.ofList (fillMembers members.toList) = .ofList placed := by
    have equal := (TypeDescriptor.structOf_eq_ok built).2.2.1
    injection equal with _ equal
    exact equal.symm
  apply prepare_struct_eq_ok.mpr
  rw [MemberList.toList_ofList]
  refine ⟨filled.checkMember checked, fun output => ?_, ?_⟩
  · rw [filled.hasPosition, positioned output]
  · rw [fillMembers, filled.fill_eq_self]
    rw [← MemberList.toList_ofList (fillMembers _), same, MemberList.toList_ofList] at built
    exact built

end IoRole

/-! ## Entry points -/

/-- An entry point accepts a type as its input or output and carries it as `prepared`. -/
inductive Signature.Exchanges (type prepared : TypeDescriptor) : Prop where
  | vertexInput {name : String} {output : TypeDescriptor} {signature : Signature}
      (built : vertex name (some type) output = .ok signature)
      (carried : signature.parameters = [⟨"input", prepared⟩])
  | vertexOutput {name : String} {input : Option TypeDescriptor} {signature : Signature}
      (built : vertex name input type = .ok signature) (carried : signature.result = some prepared)
  | fragmentInput {name : String} {output : TypeDescriptor} {signature : Signature}
      (built : fragment name (some type) output = .ok signature)
      (carried : signature.parameters = [⟨"input", prepared⟩])
  | fragmentOutput {name : String} {input : Option TypeDescriptor} {signature : Signature}
      (built : fragment name input type = .ok signature)
      (carried : signature.result = some prepared)
  | computeInput {name : String} {x y z : Nat} {signature : Signature}
      (built : compute name (some type) x y z = .ok signature)
      (carried : signature.parameters = [⟨"input", prepared⟩])

namespace Signature

variable {name : String} {stage : EntryStage} {inputRole outputRole : IoRole}
  {signature : Signature} {type prepared : TypeDescriptor}

theorem input_of_entry {output : Option TypeDescriptor}
    (built : entry name (some type) output stage inputRole outputRole = .ok signature)
    (carried : signature.parameters = [⟨"input", prepared⟩]) :
    inputRole.prepare type = .ok prepared := by
  rcases bind_eq_ok.mp built with ⟨parameters, preparedInput, built⟩
  rcases bind_eq_ok.mp built with ⟨result, _, built⟩
  rcases bind_eq_ok.mp built with ⟨_, _, same⟩
  cases same
  rcases bind_eq_ok.mp preparedInput with ⟨input, done, same⟩
  cases same
  cases carried
  exact done

theorem output_of_entry {input : Option TypeDescriptor}
    (built : entry name input (some type) stage inputRole outputRole = .ok signature)
    (carried : signature.result = some prepared) : outputRole.prepare type = .ok prepared := by
  rcases bind_eq_ok.mp built with ⟨parameters, _, built⟩
  rcases bind_eq_ok.mp built with ⟨result, preparedOutput, built⟩
  rcases bind_eq_ok.mp built with ⟨_, _, same⟩
  cases same
  rcases bind_eq_ok.mp preparedOutput with ⟨output, done, same⟩
  cases same
  cases carried
  exact done

theorem Exchanges.prepare (exchanged : Exchanges type prepared) :
    ∃ role : IoRole, role.prepare type = .ok prepared := by
  cases exchanged with
  | vertexInput built carried => exact ⟨_, input_of_entry built carried⟩
  | vertexOutput built carried => exact ⟨_, output_of_entry built carried⟩
  | fragmentInput built carried => exact ⟨_, input_of_entry built carried⟩
  | fragmentOutput built carried => exact ⟨_, output_of_entry built carried⟩
  | computeInput built carried =>
      unfold compute at built
      split at built
      next => cases built
      next => exact ⟨_, input_of_entry built carried⟩

end Signature

/-- Preparing a structure keeps its label and its members in their order, with names,
types, alignments, sizes and attributes; the missing locations are, in declaration order,
the smallest numbers that no member asks for. Locations are distinct if the declared ones
are, a prepared structure stays as it is, and every role and every entry point that takes
the structure prepares it alike. -/
theorem IoRole.prepare_locations {role : IoRole} {label : Option String} {members : MemberList}
    {prepared : TypeDescriptor} (done : role.prepare (.struct label members) = .ok prepared) :
    ∃ placed locations, prepared = .struct label (.ofList placed) ∧
      List.Forall₂ Member.PreparedAs members.toList placed ∧
      Member.FilledWith locations members.toList placed ∧
      Member.SmallestUnused (members.toList.filterMap Member.location?) locations ∧
      ((members.toList.filterMap Member.location?).Nodup →
        (placed.filterMap Member.location?).Nodup) ∧
      role.prepare prepared = .ok prepared ∧
      (∀ (other : IoRole) (otherwise : TypeDescriptor),
        other.prepare (.struct label members) = .ok otherwise → otherwise = prepared) ∧
      ∀ exchanged, Signature.Exchanges (.struct label members) exchanged →
        exchanged = prepared := by
  have alike : ∀ (other : IoRole) (otherwise : TypeDescriptor),
      other.prepare (.struct label members) = .ok otherwise → otherwise = prepared := by
    intro other otherwise preparedToo
    have built := (prepare_struct_eq_ok.mp done).2.2
    have builtToo := (prepare_struct_eq_ok.mp preparedToo).2.2
    exact Except.ok.inj (builtToo.symm.trans built)
  rcases filledWith_of_prepare done with ⟨placed, locations, rfl, filled, smallest⟩
  refine ⟨placed, locations, rfl, filled.preparedAs, filled, smallest,
    (filled.nodup_iff smallest).mpr, prepare_of_filledWith filled done, alike, ?_⟩
  intro exchanged taken
  rcases taken.prepare with ⟨other, preparedToo⟩
  exact alike other exchanged preparedToo

def exampleHandedOn : TypeDescriptor :=
  .struct none (.ofList
    [⟨"weight", .scalar .f32, {}⟩,
     ⟨"uv", .vector .f32 .two, { io := some (.location 0) }⟩,
     ⟨"color", .vector .f32 .four, { align := some 16 }⟩,
     ⟨"position", .vector .f32 .four, { io := some (.builtin .position) }⟩])

def exampleHandedOnPlaced : TypeDescriptor :=
  .struct none (.ofList
    [⟨"weight", .scalar .f32, { io := some (.location 1) }⟩,
     ⟨"uv", .vector .f32 .two, { io := some (.location 0) }⟩,
     ⟨"color", .vector .f32 .four, { align := some 16, io := some (.location 2) }⟩,
     ⟨"position", .vector .f32 .four, { io := some (.builtin .position) }⟩])

/-- Both sides of the exchange between the stages see the same structure. -/
theorem prepare_locations_exampleHandedOn :
    IoRole.vertexOutput.prepare exampleHandedOn = .ok exampleHandedOnPlaced ∧
      IoRole.fragmentInput.prepare exampleHandedOn = .ok exampleHandedOnPlaced ∧
      IoRole.vertexOutput.prepare exampleHandedOnPlaced = .ok exampleHandedOnPlaced ∧
      ∀ exchanged, Signature.Exchanges exampleHandedOn exchanged →
        exchanged = exampleHandedOnPlaced := by
  have output : IoRole.vertexOutput.prepare exampleHandedOn = .ok exampleHandedOnPlaced := by
    decide +kernel
  rcases IoRole.prepare_locations output with ⟨_, _, _, _, _, _, _, again, _, alike⟩
  exact ⟨output, by decide +kernel, again, alike⟩

/-- In a structure that an entry point accepts two members share a location, or a pipeline
value, exactly when two declared members ask for the same one: what is filled in repeats
nothing. -/
theorem Signature.Exchanges.unambiguous_iff {label : Option String} {members : MemberList}
    {prepared : TypeDescriptor}
    (exchanged : Signature.Exchanges (.struct label members) prepared) :
    ∃ placed, prepared = .struct label (.ofList placed) ∧
      ((placed.filterMap Member.location?).Nodup ↔
        (members.toList.filterMap Member.location?).Nodup) ∧
      ((placed.filterMap Member.builtin?).Nodup ↔
        (members.toList.filterMap Member.builtin?).Nodup) := by
  rcases exchanged.prepare with ⟨role, done⟩
  rcases IoRole.filledWith_of_prepare done with ⟨placed, locations, rfl, filled, smallest⟩
  exact ⟨placed, rfl, filled.nodup_iff smallest, by rw [filled.builtins_eq]⟩

theorem unambiguous_iff_exampleHandedOn :
    ∃ placed, exampleHandedOnPlaced = .struct none (.ofList placed) ∧
      (placed.filterMap Member.location?).Nodup ∧ (placed.filterMap Member.builtin?).Nodup := by
  have built : Signature.fragment "shade" (some exampleHandedOn) (.vector .f32 .four) =
      .ok ⟨"shade", [⟨"input", exampleHandedOnPlaced⟩], some (.vector .f32 .four),
        some .fragment⟩ := by decide +kernel
  rcases Signature.Exchanges.unambiguous_iff (.fragmentInput built rfl) with
    ⟨placed, same, locations, builtins⟩
  exact ⟨placed, same, locations.mpr (by decide +kernel), builtins.mpr (by decide +kernel)⟩

def exampleRepeated : List Member :=
  [⟨"red", .scalar .f32, { io := some (.location 0) }⟩,
   ⟨"green", .scalar .f32, { io := some (.location 0) }⟩,
   ⟨"position", .vector .f32 .four, { io := some (.builtin .position) }⟩,
   ⟨"again", .vector .f32 .four, { io := some (.builtin .position) }⟩]

/-- Repeated attributes are accepted and stay. -/
theorem exchanges_exampleRepeated :
    Signature.Exchanges (.struct none (.ofList exampleRepeated))
        (.struct none (.ofList exampleRepeated)) ∧
      ¬ (exampleRepeated.filterMap Member.location?).Nodup ∧
      ¬ (exampleRepeated.filterMap Member.builtin?).Nodup := by
  have built : Signature.fragment "shade" (some (.struct none (.ofList exampleRepeated)))
      (.vector .f32 .four) =
      .ok ⟨"shade", [⟨"input", .struct none (.ofList exampleRepeated)⟩],
        some (.vector .f32 .four), some .fragment⟩ := by decide +kernel
  exact ⟨.fragmentInput built rfl, by decide +kernel, by decide +kernel⟩

end ShaderKit
