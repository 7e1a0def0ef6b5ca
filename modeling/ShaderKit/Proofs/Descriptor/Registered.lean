import ShaderKit.Function.Signature
import ShaderKit.Proofs.Codec.Accepts

/-!
# Registered types

Types that are built by the checked constructors alone. Such a type repeats no member
names, and it has a layout: what the constructors check is what the layout asks for.
-/

namespace ShaderKit

/-- A type built by the checked constructors from registered types. -/
inductive TypeDescriptor.Registered : TypeDescriptor → Prop where
  | scalar (kind : ScalarKind) : Registered (.scalar kind)
  | vector (kind : ScalarKind) (width : VectorWidth) : Registered (.vector kind width)
  | matrix {kind : ScalarKind} {columns rows : VectorWidth} {type : TypeDescriptor}
      (built : matrixOf kind columns rows = .ok type) : Registered type
  | atomic {kind : ScalarKind} {type : TypeDescriptor} (built : atomicOf kind = .ok type) :
      Registered type
  | array {element type : TypeDescriptor} {length : ArrayLength}
      (elementRegistered : Registered element) (built : arrayOf element length = .ok type) :
      Registered type
  | struct {label : Option String} {members : List Member} {type : TypeDescriptor}
      (registered : ∀ member ∈ members, Registered member.type)
      (built : structOf label members = .ok type) : Registered type

/-! ## What the constructors build -/

namespace TypeDescriptor

variable {type element : TypeDescriptor}

theorem matrixOf_eq_ok {kind : ScalarKind} {columns rows : VectorWidth}
    (built : matrixOf kind columns rows = .ok type) : type = .matrix kind columns rows := by
  unfold matrixOf at built
  split at built <;> cases built
  rfl

theorem atomicOf_eq_ok {kind : ScalarKind} (built : atomicOf kind = .ok type) :
    type = .atomic kind := by
  unfold atomicOf at built
  split at built <;> cases built
  rfl

theorem arrayOf_eq_ok {length : ArrayLength} (built : arrayOf element length = .ok type) :
    element.isSized = true ∧ type = .array element length ∧
      (length ≠ .runtime → type.isTooLarge = false) := by
  unfold arrayOf at built
  split at built
  next => cases built
  next sized =>
    have sized : element.isSized = true := by
      rw [Bool.not_eq_true, Bool.not_eq_false'] at sized
      exact sized
    split at built
    next =>
      cases built
      exact ⟨sized, rfl, fun fixed => absurd rfl fixed⟩
    next count =>
      split at built
      next => cases built
      next fits =>
        cases built
        exact ⟨sized, rfl, fun _ => Bool.eq_false_iff.mpr fits⟩

theorem structOf_eq_ok {label : Option String} {members : List Member}
    (built : structOf label members = .ok type) :
    members ≠ [] ∧ Member.checkAll [] members = .ok () ∧
      type = .struct label (.ofList members) ∧ type.isTooLarge = false := by
  unfold structOf at built
  split at built
  next => cases built
  next filled =>
    rcases bind_eq_ok.mp built with ⟨_, checked, built⟩
    dsimp only at built
    split at built
    next => cases built
    next fits =>
      cases built
      refine ⟨?_, checked, rfl, Bool.eq_false_iff.mpr fits⟩
      rintro rfl
      exact filled rfl

end TypeDescriptor

/-! ## Checked members -/

namespace Member

variable {member : Member} {members : List Member} {seen : List String}

structure Checked (member : Member) (seen : List String) (last : Bool) : Prop where
  fresh : member.name ∉ seen
  sized : member.checkSized last = .ok ()
  align : member.checkAlign = .ok ()
  size : member.checkSize = .ok ()
  builtin : member.checkBuiltin = .ok ()

theorem checkAll_cons (checked : checkAll seen (member :: members) = .ok ()) :
    member.Checked seen members.isEmpty ∧ checkAll (member.name :: seen) members = .ok () := by
  rw [checkAll, bind_eq_ok] at checked
  rcases checked with ⟨_, named, checked⟩
  rcases bind_eq_ok.mp checked with ⟨_, sized, checked⟩
  rcases bind_eq_ok.mp checked with ⟨_, attributes, rest⟩
  rw [checkAttributes, bind_eq_ok] at attributes
  rcases attributes with ⟨_, aligned, attributes⟩
  rcases bind_eq_ok.mp attributes with ⟨_, spanned, builtin⟩
  refine ⟨⟨?_, sized, aligned, spanned, builtin⟩, rest⟩
  unfold checkName at named
  split at named
  next => cases named
  next =>
    split at named
    next => cases named
    next unseen =>
      intro taken
      exact unseen (List.contains_iff_mem.mpr taken)

theorem names_of_checkAll (checked : checkAll seen members = .ok ()) :
    ∀ member ∈ members, member.name ∉ seen := by
  induction members generalizing seen with
  | nil =>
      intro member impossible
      cases impossible
  | cons first rest induction =>
      rcases checkAll_cons checked with ⟨known, others⟩
      intro member inside
      cases inside with
      | head => exact known.fresh
      | tail _ inside =>
          intro taken
          exact induction others member inside (List.mem_cons_of_mem _ taken)

theorem builtin_of_checkAll (checked : checkAll seen members = .ok ()) :
    ∀ member ∈ members, ∀ builtin, member.attributes.io = some (.builtin builtin) →
      member.type = builtin.type := by
  induction members generalizing seen with
  | nil =>
      intro member impossible
      cases impossible
  | cons first rest induction =>
      rcases checkAll_cons checked with ⟨known, others⟩
      intro member inside builtin asked
      cases inside with
      | head =>
          have allowed := known.builtin
          rw [checkBuiltin, asked] at allowed
          simp only at allowed
          split at allowed
          next same => exact same.symm
          next => cases allowed
      | tail _ inside => exact induction others member inside builtin asked

theorem find?_ofList_eq_none {name : String} (absent : ∀ member ∈ members, member.name ≠ name) :
    (MemberList.ofList members).find? name = none := by
  induction members with
  | nil => rfl
  | cons member rest induction =>
      rw [MemberList.ofList, MemberList.find?, if_neg (absent member List.mem_cons_self),
        induction fun other inside => absent other (List.mem_cons_of_mem _ inside)]
      rfl

theorem distinct_of_checkAll (checked : checkAll seen members = .ok ())
    (inner : ∀ member ∈ members, member.type.Distinct) :
    (MemberList.ofList members).Distinct := by
  induction members generalizing seen with
  | nil =>
      rw [MemberList.ofList, MemberList.Distinct]
      trivial
  | cons member rest induction =>
      rcases checkAll_cons checked with ⟨_, others⟩
      rw [MemberList.ofList, MemberList.Distinct]
      refine ⟨?_, inner member List.mem_cons_self,
        induction others fun other inside => inner other (List.mem_cons_of_mem _ inside)⟩
      apply find?_ofList_eq_none
      intro other inside same
      exact names_of_checkAll others other inside (same ▸ List.mem_cons_self)

theorem aligns_of_checkAlign {layout : Layout} (laid : LaidOut member.type layout)
    (checked : member.checkAlign = .ok ()) :
    ∃ align, MemberAligns layout.alignment member.attributes.alignBytes? align := by
  have natural : member.naturalAlignment = layout.alignment := by
    rw [naturalAlignment, layout_eq_ok.mpr laid]
  unfold checkAlign at checked
  split at checked
  next unasked =>
    rw [unasked]
    exact ⟨_, .natural⟩
  next align asked =>
    rw [asked]
    split at checked
    next allowed =>
      rcases Bool.and_eq_true_iff.mp allowed with ⟨power, stricter⟩
      rw [natural] at stricter
      exact ⟨align, .asked power (of_decide_eq_true stricter)⟩
    next => cases checked

theorem spans_of_checkSize {layout : Layout} {size : Nat} (laid : LaidOut member.type layout)
    (sized : layout.size = some size) (checked : member.checkSize = .ok ()) :
    ∃ span, MemberSpans size member.attributes.sizeBytes? span := by
  have least : member.leastSize = size := by
    rw [leastSize, layout_eq_ok.mpr laid]
    simp only [sized, Option.getD_some]
  unfold checkSize at checked
  split at checked
  next unasked =>
    rw [unasked]
    exact ⟨_, .natural⟩
  next span asked =>
    rw [asked]
    split at checked
    next => cases checked
    next greater =>
      rw [least] at greater
      exact ⟨span, .asked (Nat.le_of_not_lt greater)⟩

theorem unasked_of_checkSize {layout : Layout} (laid : LaidOut member.type layout)
    (unsized : layout.size = none) (checked : member.checkSize = .ok ()) :
    member.attributes.sizeBytes? = none := by
  have least : member.leastSize = addressLimit - 1 := by
    rw [leastSize, layout_eq_ok.mpr laid]
    simp only [unsized, Option.getD_none]
  unfold checkSize at checked
  split at checked
  next unasked => exact unasked
  next bytes asked =>
    rcases Option.map_eq_some_iff.mp asked with ⟨word, _, rfl⟩
    have below : word.toNat < addressLimit - 1 := Nat.lt_trans word.toNat_lt (by decide)
    rw [least, if_pos below] at checked
    cases checked

theorem runtime_of_checkSized {last : Bool} (checked : member.checkSized last = .ok ())
    (unsized : member.type.isSized = false) :
    last = true ∧ ∃ element, member.type = .array element .runtime := by
  unfold checkSized at checked
  split at checked
  next sized =>
    rw [unsized] at sized
    cases sized
  next =>
    split at checked
    next => cases checked
    next isLast =>
      split at checked
      next => cases checked
      next runtime =>
        rw [Bool.not_eq_true, Bool.not_eq_false'] at isLast runtime
        exact ⟨isLast, TypeDescriptor.isRuntimeArray_iff.mp runtime⟩

end Member

/-! ## Layouts -/

theorem checkAddress_cases (path : LayoutPath) (number : Nat) :
    checkAddress path number = .ok number ∨
      checkAddress path number = .error (.sizeOverflow path) := by
  unfold checkAddress
  split
  · exact .inl rfl
  · exact .inr rfl

theorem layoutFrom_of_checkAll (path : LayoutPath) {members : List Member} {seen : List String}
    (laid : ∀ member ∈ members, ∃ layout, LaidOut member.type layout)
    (checked : Member.checkAll seen members = .ok ()) (offset alignment : Nat) :
    (∃ run, (MemberList.ofList members).layoutFrom path offset alignment = .ok run) ∨
      ∃ place, (MemberList.ofList members).layoutFrom path offset alignment =
        .error (.sizeOverflow place) := by
  induction members generalizing seen offset alignment with
  | nil => exact .inl ⟨_, rfl⟩
  | cons member rest induction =>
      let here := path ++ [.member member.name]
      rcases Member.checkAll_cons checked with ⟨known, others⟩
      rcases laid member List.mem_cons_self with ⟨layout, memberLaid⟩
      rcases Member.aligns_of_checkAlign memberLaid known.align with ⟨align, aligns⟩
      have started := checkAddress_cases here (roundUp align offset)
      rw [MemberList.ofList, MemberList.layoutFrom, layoutAt_of_laidOut _ memberLaid, ok_bind]
      cases layoutSize : layout.size with
      | some size =>
          rcases Member.spans_of_checkSize memberLaid layoutSize known.size with ⟨span, spans⟩
          have reserved : memberSpan here (some size) member.attributes.sizeBytes? =
              .ok (some span) :=
            memberSpan_eq_ok.mpr (.inl ⟨_, _, rfl, rfl, spans⟩)
          simp only [Option.isNone_some, Bool.false_and, Bool.false_eq_true, if_false,
            memberAlignment_eq_ok.mpr aligns, ok_bind, reserved, here]
          rcases started with fits | tooFar
          · rw [fits, ok_bind]
            rcases checkAddress_cases here (roundUp align offset + span) with fits | tooFar
            · rw [fits, ok_bind]
              rcases induction (fun other inside => laid other (List.mem_cons_of_mem _ inside))
                others (roundUp align offset + span) (max alignment align) with
                ⟨run, restLaid⟩ | ⟨place, tooFar⟩
              · rw [restLaid]
                exact .inl ⟨_, rfl⟩
              · rw [tooFar]
                exact .inr ⟨place, rfl⟩
            · rw [tooFar]
              exact .inr ⟨_, rfl⟩
          · rw [tooFar]
            exact .inr ⟨_, rfl⟩
      | none =>
          have unsized : member.type.isSized = false := by
            rw [← memberLaid.isSome_size, layoutSize]
            rfl
          rcases Member.runtime_of_checkSized known.sized unsized with ⟨last, element, runtime⟩
          have unasked := Member.unasked_of_checkSize memberLaid layoutSize known.size
          cases List.isEmpty_iff.mp last
          simp only [runtime, TypeDescriptor.isRuntimeArray, MemberList.ofList,
            MemberList.isEmpty, Bool.and_self, Bool.not_true, Bool.and_false,
            Bool.false_eq_true, if_false, memberAlignment_eq_ok.mpr aligns, ok_bind, unasked,
            memberSpan]
          rcases started with fits | tooFar
          · rw [fits]
            exact .inl ⟨_, rfl⟩
          · rw [tooFar]
            exact .inr ⟨_, rfl⟩

namespace TypeDescriptor

variable {type element : TypeDescriptor}

theorem isTooLarge_of_sizeOverflow {place : LayoutPath}
    (tooLarge : type.layout = .error (.sizeOverflow place)) : type.isTooLarge = true := by
  rw [isTooLarge, tooLarge]

theorem array_laidOut {length : ArrayLength} {inner : Layout} (elementLaid : LaidOut element inner)
    (elementSized : element.isSized = true)
    (fits : length ≠ .runtime → (TypeDescriptor.array element length).isTooLarge = false) :
    ∃ layout, LaidOut (.array element length) layout := by
  rcases elementLaid.size_of_isSized elementSized with ⟨size, innerSize⟩
  cases length with
  | runtime => exact ⟨_, .array elementLaid innerSize nofun⟩
  | fixed count =>
      have fits := fits nofun
      have computed : (TypeDescriptor.array element (.fixed count)).layout = (do
          let bytes ← checkAddress [] (count * roundUp inner.alignment size)
          .ok (.array (some bytes) inner.alignment (roundUp inner.alignment size) inner)) := by
        rw [layout, layoutAt, layoutAt_of_laidOut _ elementLaid]
        simp [Layout.stride, innerSize]
      rcases checkAddress_cases [] (count * roundUp inner.alignment size) with checked | tooFar
      · rw [checked, ok_bind] at computed
        exact ⟨_, layout_eq_ok.mp computed⟩
      · rw [tooFar] at computed
        rw [isTooLarge_of_sizeOverflow computed] at fits
        cases fits

theorem struct_laidOut {label : Option String} {members : List Member}
    (laid : ∀ member ∈ members, ∃ layout, LaidOut member.type layout) (filled : members ≠ [])
    (checked : Member.checkAll [] members = .ok ())
    (fits : (TypeDescriptor.struct label (.ofList members)).isTooLarge = false) :
    ∃ layout, LaidOut (.struct label (.ofList members)) layout := by
  have notEmpty : ¬ (MemberList.ofList members).isEmpty = true := by
    cases members with
    | nil => exact absurd rfl filled
    | cons => nofun
  rcases layoutFrom_of_checkAll [] laid checked 0 1 with ⟨run, membersLaid⟩ | ⟨place, tooFar⟩
  · cases finished : run.finish with
    | none =>
        have computed : (TypeDescriptor.struct label (.ofList members)).layout =
            .ok (.struct none run.alignment run.layouts) := by
          simp only [layout, layoutAt, if_neg notEmpty, membersLaid, ok_bind, finished]
        exact ⟨_, layout_eq_ok.mp computed⟩
    | some finish =>
        have computed : (TypeDescriptor.struct label (.ofList members)).layout = (do
            let size ← checkAddress [] (roundUp run.alignment finish)
            .ok (.struct (some size) run.alignment run.layouts)) := by
          simp only [layout, layoutAt, if_neg notEmpty, membersLaid, ok_bind, finished]
        rcases checkAddress_cases [] (roundUp run.alignment finish) with within | tooFar
        · rw [within, ok_bind] at computed
          exact ⟨_, layout_eq_ok.mp computed⟩
        · rw [tooFar] at computed
          rw [isTooLarge_of_sizeOverflow computed] at fits
          cases fits
  · have computed : (TypeDescriptor.struct label (.ofList members)).layout =
        .error (.sizeOverflow place) := by
      simp only [layout, layoutAt, if_neg notEmpty, tooFar]
      rfl
    rw [isTooLarge_of_sizeOverflow computed] at fits
    cases fits

theorem Registered.distinct (registered : type.Registered) : type.Distinct := by
  induction registered with
  | scalar kind | vector kind width => simp only [Distinct]
  | matrix built =>
      rw [matrixOf_eq_ok built]
      simp only [Distinct]
  | atomic built =>
      rw [atomicOf_eq_ok built]
      simp only [Distinct]
  | array _ built induction =>
      rw [(arrayOf_eq_ok built).2.1, Distinct]
      exact induction
  | struct _ built induction =>
      rcases structOf_eq_ok built with ⟨_, checked, rfl, _⟩
      rw [Distinct]
      exact Member.distinct_of_checkAll checked induction

/-- A registered type has a layout. -/
theorem Registered.laidOut (registered : type.Registered) : ∃ layout, LaidOut type layout := by
  induction registered with
  | scalar kind => exact ⟨_, .scalar kind⟩
  | vector kind width => exact ⟨_, .vector kind width⟩
  | matrix built =>
      rw [matrixOf_eq_ok built]
      exact ⟨_, .matrix _ _ _⟩
  | atomic built =>
      rw [atomicOf_eq_ok built]
      exact ⟨_, .atomic _⟩
  | array _ built induction =>
      rcases arrayOf_eq_ok built with ⟨elementSized, rfl, fits⟩
      rcases induction with ⟨inner, elementLaid⟩
      exact array_laidOut elementLaid elementSized fits
  | struct _ built induction =>
      rcases structOf_eq_ok built with ⟨filled, checked, rfl, fits⟩
      exact struct_laidOut induction filled checked fits

theorem Registered.sized (registered : type.Registered) (fixed : type.isSized = true) :
    ∃ layout size, LaidOut type layout ∧ layout.size = some size := by
  rcases registered.laidOut with ⟨layout, laid⟩
  rcases laid.size_of_isSized fixed with ⟨size, sized⟩
  exact ⟨layout, size, laid, sized⟩

theorem Registered.members {label : Option String} {members : MemberList}
    (registered : (TypeDescriptor.struct label members).Registered) :
    ∀ member ∈ members.toList, member.type.Registered := by
  generalize same : TypeDescriptor.struct label members = type at registered
  cases registered with
  | scalar | vector => cases same
  | matrix built => cases same.trans (matrixOf_eq_ok built)
  | atomic built => cases same.trans (atomicOf_eq_ok built)
  | array _ built => cases same.trans (arrayOf_eq_ok built).2.1
  | struct inner built =>
      cases same.trans (structOf_eq_ok built).2.2.1
      rw [MemberList.toList_ofList]
      exact inner

end TypeDescriptor

/-! ## Signatures over registered types -/

/-- A signature built over registered types. -/
inductive Signature.Registered : Signature → Prop where
  | plain {name : String} {parameters : List Parameter} {result : Option TypeDescriptor}
      {signature : Signature}
      (parametersRegistered : ∀ parameter ∈ parameters, parameter.type.Registered)
      (resultRegistered : ∀ type ∈ result, type.Registered)
      (built : plain name parameters result = .ok signature) : Registered signature
  | vertex {name : String} {input : Option TypeDescriptor} {output : TypeDescriptor}
      {signature : Signature} (inputRegistered : ∀ type ∈ input, type.Registered)
      (outputRegistered : output.Registered) (built : vertex name input output = .ok signature) :
      Registered signature
  | fragment {name : String} {input : Option TypeDescriptor} {output : TypeDescriptor}
      {signature : Signature} (inputRegistered : ∀ type ∈ input, type.Registered)
      (outputRegistered : output.Registered)
      (built : fragment name input output = .ok signature) : Registered signature
  | compute {name : String} {input : Option TypeDescriptor} {x y z : Nat}
      {signature : Signature} (inputRegistered : ∀ type ∈ input, type.Registered)
      (built : compute name input x y z = .ok signature) : Registered signature

namespace IoRole

variable {role : IoRole} {type prepared : TypeDescriptor}

theorem checkMember_eq_ok {member : Member} (checked : role.checkMember member = .ok ()) :
    member.type.isValueOf ScalarKind.isNumeric = true ∨
      ∃ builtin, member.attributes.io = some (.builtin builtin) := by
  unfold checkMember at checked
  split at checked
  next builtin asked => exact .inr ⟨builtin, asked⟩
  next =>
    split at checked
    next => cases checked
    next =>
      split at checked
      next => cases checked
      next numeric =>
        rw [Bool.not_eq_true, Bool.not_eq_false'] at numeric
        exact .inl numeric

theorem assign_eq_ok {used : List Nat} {next : Nat} {declared assigned : List Member}
    (done : role.assign used next declared = .ok assigned) :
    ∀ placed ∈ assigned, (∃ member ∈ declared, placed.type = member.type) ∧
      (placed.type.isValueOf ScalarKind.isNumeric = true ∨
        ∃ builtin, placed.attributes.io = some (.builtin builtin)) := by
  induction declared generalizing used next assigned with
  | nil =>
      cases done
      intro placed impossible
      cases impossible
  | cons member rest induction =>
      rw [assign, bind_eq_ok] at done
      rcases done with ⟨_, checked, done⟩
      have kept : ∀ {others : List Member} {used : List Nat} {next : Nat},
          role.assign used next rest = .ok others → ∀ placed ∈ others,
            (∃ other ∈ member :: rest, placed.type = other.type) ∧
              (placed.type.isValueOf ScalarKind.isNumeric = true ∨
                ∃ builtin, placed.attributes.io = some (.builtin builtin)) := by
        intro others used next assigned placed inside
        rcases induction assigned placed inside with ⟨⟨other, otherInside, same⟩, allowed⟩
        exact ⟨⟨other, List.mem_cons_of_mem _ otherInside, same⟩, allowed⟩
      split at done
      next =>
        rcases bind_eq_ok.mp done with ⟨others, assigned, same⟩
        cases same
        intro placed inside
        cases inside with
        | head => exact ⟨⟨member, List.mem_cons_self, rfl⟩, checkMember_eq_ok checked⟩
        | tail _ inside => exact kept assigned placed inside
      next free =>
        rcases bind_eq_ok.mp done with ⟨others, assigned, same⟩
        cases same
        intro placed inside
        cases inside with
        | head =>
            refine ⟨⟨member, List.mem_cons_self, rfl⟩, .inl ?_⟩
            rcases checkMember_eq_ok checked with numeric | ⟨builtin, asked⟩
            · exact numeric
            · rw [asked] at free
              exact absurd rfl free
        | tail _ inside => exact kept assigned placed inside

theorem isSized_of_isValueOf {test : ScalarKind → Bool} (value : type.isValueOf test = true) :
    type.isSized = true := by
  cases type <;> first | rfl | cases value

theorem allSized_of_all {members : List Member}
    (sized : ∀ member ∈ members, member.type.isSized = true) :
    (MemberList.ofList members).allSized = true := by
  induction members with
  | nil => rfl
  | cons member rest induction =>
      rw [MemberList.ofList, MemberList.allSized, sized member List.mem_cons_self,
        induction fun other inside => sized other (List.mem_cons_of_mem _ inside)]
      rfl

theorem registered_of_prepare (registered : type.Registered)
    (done : role.prepare type = .ok prepared) :
    prepared.Registered ∧ prepared.isSized = true := by
  unfold prepare at done
  split at done
  next label members =>
    rcases bind_eq_ok.mp done with ⟨assigned, placed, done⟩
    split at done
    next => cases done
    next =>
      have inner := registered.members
      have placedWell := assign_eq_ok placed
      have built : (TypeDescriptor.structOf label assigned) = .ok prepared := done
      constructor
      · apply TypeDescriptor.Registered.struct _ built
        intro member inside
        rcases (placedWell member inside).1 with ⟨original, originalInside, same⟩
        rw [same]
        exact inner original originalInside
      · rcases TypeDescriptor.structOf_eq_ok built with ⟨_, checked, rfl, _⟩
        rw [TypeDescriptor.isSized]
        apply allSized_of_all
        intro member inside
        rcases (placedWell member inside).2 with numeric | ⟨builtin, asked⟩
        · exact isSized_of_isValueOf numeric
        · rw [Member.builtin_of_checkAll checked member inside builtin asked]
          cases builtin <;> rfl
  next =>
    split at done
    next allowed =>
      cases done
      exact ⟨registered, isSized_of_isValueOf allowed.2⟩
    next => cases done

end IoRole

namespace Signature

variable {signature : Signature}

theorem isSized_of_checkParameters {seen : List String} {parameters : List Parameter}
    (checked : checkParameters seen parameters = .ok ()) :
    ∀ parameter ∈ parameters, parameter.type.isSized = true := by
  induction parameters generalizing seen with
  | nil =>
      intro parameter impossible
      cases impossible
  | cons first rest induction =>
      unfold checkParameters at checked
      split at checked
      next => cases checked
      next =>
        split at checked
        next => cases checked
        next =>
          split at checked
          next => cases checked
          next sized =>
            rw [Bool.not_eq_true, Bool.not_eq_false'] at sized
            intro parameter inside
            cases inside with
            | head => exact sized
            | tail _ inside => exact induction checked parameter inside

theorem parameters_of_entry {name : String} {input output : Option TypeDescriptor}
    {stage : EntryStage} {inputRole outputRole : IoRole}
    (inputRegistered : ∀ type ∈ input, type.Registered)
    (built : entry name input output stage inputRole outputRole = .ok signature) :
    ∀ parameter ∈ signature.parameters,
      parameter.type.Registered ∧ parameter.type.isSized = true := by
  rcases bind_eq_ok.mp built with ⟨parameters, prepared, built⟩
  rcases bind_eq_ok.mp built with ⟨result, _, built⟩
  rcases bind_eq_ok.mp built with ⟨_, _, same⟩
  cases same
  cases input with
  | none =>
      cases prepared
      intro parameter impossible
      cases impossible
  | some type =>
      rcases bind_eq_ok.mp prepared with ⟨preparedType, done, same⟩
      cases same
      intro parameter inside
      rw [List.mem_singleton.mp inside]
      exact IoRole.registered_of_prepare (inputRegistered type rfl) done

theorem Registered.parameters (registered : signature.Registered) :
    ∀ parameter ∈ signature.parameters,
      parameter.type.Registered ∧ parameter.type.isSized = true := by
  cases registered with
  | plain parametersRegistered _ built =>
      rcases bind_eq_ok.mp built with ⟨_, checked, built⟩
      rcases bind_eq_ok.mp built with ⟨_, _, same⟩
      cases same
      intro parameter inside
      exact ⟨parametersRegistered parameter inside,
        isSized_of_checkParameters checked parameter inside⟩
  | vertex inputRegistered _ built => exact parameters_of_entry inputRegistered built
  | fragment inputRegistered _ built => exact parameters_of_entry inputRegistered built
  | compute inputRegistered built =>
      unfold Signature.compute at built
      split at built
      next => cases built
      next => exact parameters_of_entry inputRegistered built

end Signature

end ShaderKit
