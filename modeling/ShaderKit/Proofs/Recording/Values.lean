import ShaderKit.Proofs.Recording.Operations

/-!
# Operations on values, variables and parts keep the invariant
-/

namespace ShaderKit.Recording

open Recorder

variable {setting : Setting} {start : Recorder}

theorem fits_pair {expression : Expression} {first second : Node}
    {firstType secondType : TypeDescriptor} {firstReference secondReference : Option Reference}
    (made : expression.operands = [first, second])
    (firstUsable : start.Usable setting first firstType firstReference)
    (secondUsable : start.Usable setting second secondType secondReference)
    (notVariable : ∀ number, expression ≠ .localVariable number) :
    start.Fits setting expression := by
  apply Fits.of_usable _ notVariable
  intro operand member
  rw [made] at member
  rcases List.mem_cons.mp member with rfl | member
  · exact ⟨_, _, firstUsable⟩
  · rw [List.mem_singleton.mp member]
    exact ⟨_, _, secondUsable⟩

theorem fits_single {expression : Expression} {node : Node} {type : TypeDescriptor}
    {reference : Option Reference} (made : expression.operands = [node])
    (usable : start.Usable setting node type reference)
    (notVariable : ∀ number, expression ≠ .localVariable number) :
    start.Fits setting expression := by
  apply Fits.of_usable _ notVariable
  intro operand member
  rw [made] at member
  rw [List.mem_singleton.mp member]
  exact ⟨_, _, usable⟩

theorem fits_all {expression : Expression} {nodes : List Node} {types : List TypeDescriptor}
    (made : expression.operands = nodes)
    (usable : List.Forall₂ (start.Operand setting) nodes types)
    (notVariable : ∀ number, expression ≠ .localVariable number) :
    start.Fits setting expression := by
  apply Fits.of_usable _ notVariable
  intro operand member
  rw [made] at member
  rcases exists_right_of_mem usable member with ⟨type, operand⟩
  exact ⟨type, none, operand⟩

/-! ## Values -/

theorem constant_meets (sound : start.Sound setting) (label : Option String)
    (type : TypeDescriptor) (value : HostValue) :
    Meets setting (constant setting.function label type value) start fun node finish =>
      finish.Operand setting node type := by
  unfold constant
  split
  next => exact .refuse sound
  next constructible =>
    split
    next => exact .refuse sound
    next =>
      apply Meets.get_bind
      rw [Bool.not_eq_true, Bool.not_eq_false'] at constructible
      split
      next error context failed =>
        rcases TraceContext.internConstant_error constructible failed with ⟨rfl, _⟩
        apply Meets.bind (Meets.become sound (.refl start))
        intro _ _ sound _ _
        exact .throw sound
      next number context interned =>
        rcases TraceContext.internConstant_sound sound.context constructible interned with
          ⟨contextSound, grows, constant, known, same⟩
        let next : Recorder := { start with
          session := { start.session with context := context }
          constants := Recorder.addNew start.constants number }
        have inventory :
            (start.inventory setting.function).Extends (next.inventory setting.function) :=
          ⟨grows, rfl, fun _ _ found => found, fun _ _ found => found⟩
        have agrees : start.Agrees next := ⟨rfl, rfl, rfl, rfl, rfl⟩
        apply Meets.bind (Meets.become (agrees.sound inventory contextSound sound)
          (agrees.grows inventory))
        rintro _ state stateSound _ rfl
        rw [← same]
        exact addValue_meets stateSound (.constant known) (fits_nil rfl fun _ => nofun)

theorem zero_meets (sound : start.Sound setting) (type : TypeDescriptor) :
    Meets setting (zero setting.function type) start fun node finish =>
      finish.Operand setting node type := by
  unfold zero
  split
  next => exact .refuse sound
  next => exact addValue_meets sound (.zero type) (fits_nil rfl fun _ => nofun)

theorem convert_meets (sound : start.Sound setting) (source : Node) (type : TypeDescriptor) :
    Meets setting (convert setting.function source type) start fun node finish =>
      finish.Operand setting node type := by
  apply Meets.bind (value_operand sound source)
  intro source start sound _ known
  apply Meets.bind (typeOf_operand sound known)
  rintro sourceType start _ _ ⟨rfl, operand⟩
  split
  next => exact .refuse sound
  next convertible =>
    rw [Bool.not_eq_true, Bool.not_eq_false'] at convertible
    split
    next same =>
      subst same
      exact .pure sound operand
    next =>
      exact addValue_meets sound (.convert operand.known convertible)
        (fits_single rfl operand fun _ => nofun)

theorem construct_meets (sound : start.Sound setting) (type : TypeDescriptor)
    (arguments : List Node) :
    Meets setting (construct setting.function type arguments) start fun node finish =>
      finish.Operand setting node type := by
  unfold construct
  split
  next => exact zero_meets sound type
  next =>
    apply Meets.bind (values_meets sound arguments)
    intro values start sound _ known
    apply Meets.bind (typesOf_meets sound known)
    intro types start sound _ operands
    split
    next => exact convert_meets sound _ _
    next =>
      split
      next accepted =>
        rw [Bool.and_eq_true] at accepted
        exact addValue_meets sound
          (.compose (operands.imp fun _ _ operand => operand.known) accepted.1)
          (fits_all rfl operands fun _ => nofun)
      next => exact .refuse sound

/-! ## Operators -/

theorem unary_meets (sound : start.Sound setting) (operator : UnaryOperator) (source : Operand) :
    Meets setting (unary setting.function operator source) start fun node finish =>
      ∃ type, finish.Operand setting node type := by
  apply Meets.bind (operandValue_meets sound source)
  intro source start sound _ known
  apply Meets.bind (typeOf_operand sound known)
  rintro type start _ _ ⟨rfl, operand⟩
  split
  next => exact .refuse sound
  next result accepted =>
    apply (addValue_meets sound (.unary operand.known accepted)
      (fits_single rfl operand fun _ => nofun)).imp
    intro node finish added
    exact ⟨result, added⟩

theorem binary_meets (sound : start.Sound setting) (operator : BinaryOperator)
    (left right : Operand) :
    Meets setting (binary setting.function operator left right) start fun node finish =>
      ∃ type, finish.Operand setting node type := by
  apply Meets.bind (operandValue_meets sound left)
  rintro left start sound _ ⟨leftKnown, leftOperand⟩
  apply Meets.bind (operandValue_meets sound right)
  intro right start sound grows rightKnown
  apply Meets.bind (typeOf_operand sound ⟨leftKnown, leftOperand.grow grows⟩)
  rintro leftType start _ _ ⟨rfl, leftOperand⟩
  apply Meets.bind (typeOf_operand sound rightKnown)
  rintro rightType start _ _ ⟨rfl, rightOperand⟩
  split
  next => exact .refuse sound
  next result accepted =>
    apply (addValue_meets sound (.binary leftOperand.known rightOperand.known accepted)
      (fits_pair rfl leftOperand rightOperand fun _ => nofun)).imp
    intro node finish added
    exact ⟨result, added⟩

/-! ## Variables -/

def withLocal (recorder : Recorder) (declared : LocalVariable) : Recorder :=
  { recorder with locals := recorder.locals.push declared }

theorem getElem?_withLocal (start : Recorder) (declared : LocalVariable) :
    (withLocal start declared).locals[start.locals.size]? = some declared :=
  Array.getElem?_push_size

theorem inventory_withLocal (start : Recorder) (declared : LocalVariable)
    (function : ShaderFunction) :
    (start.inventory function).Extends ((withLocal start declared).inventory function) where
  context := .refl _
  function := rfl
  expressions _ _ found := found
  locals index old found := by
    have below : index < start.locals.size := (Array.getElem?_eq_some_iff.mp found).1
    have lookup : (withLocal start declared).locals[index]? = start.locals[index]? := by
      rw [withLocal, Array.getElem?_push, if_neg (Nat.ne_of_lt below)]
    exact lookup.trans found

theorem agrees_withLocal (start : Recorder) (declared : LocalVariable) :
    start.Agrees (withLocal start declared) :=
  ⟨rfl, rfl, rfl, rfl, rfl⟩

theorem withLocal_sound (sound : start.Sound setting) (declared : LocalVariable) :
    (withLocal start declared).Sound setting :=
  (agrees_withLocal start declared).sound (inventory_withLocal start declared setting.function)
    sound.context sound

theorem withLocal_grows (start : Recorder) (declared : LocalVariable)
    (function : ShaderFunction) : start.Grows (withLocal start declared) function :=
  (agrees_withLocal start declared).grows (inventory_withLocal start declared function)

theorem declare_meets (sound : start.Sound setting) (name : Option String)
    (type : TypeDescriptor) (initial : Option Node)
    (known : ∀ node ∈ initial, start.Operand setting node type) :
    Meets setting (declare setting.function name type initial) start fun _ _ => True := by
  unfold declare
  split
  next => exact .refuse sound
  next =>
    apply Meets.get_bind
    apply Meets.bind (Meets.become (withLocal_sound sound ⟨name, type⟩)
      (withLocal_grows start ⟨name, type⟩ setting.function))
    rintro _ _ withSound withGrows rfl
    have found := getElem?_withLocal start ⟨name, type⟩
    have checked : (Statement.declare start.locals.size initial).Checked
        ((withLocal start ⟨name, type⟩).inventory setting.function)
        ((withLocal start ⟨name, type⟩).loopDepth ≠ 0)
        ((withLocal start ⟨name, type⟩).available setting) := by
      simp only [Statement.Checked]
      exact ⟨⟨name, type⟩, found, fun node member => (known node member).grow withGrows⟩
    apply Meets.bind (addStatement_meets withSound checked)
    rintro _ _ stateSound _ rfl
    refine Meets.imp (addExpression_meets stateSound ?_ ?_) fun _ _ _ => trivial
    · rw [inventory_addStatement]
      exact @Inventory.Types.localVariable
        ((withLocal start ⟨name, type⟩).inventory setting.function) _ _ found .readWrite
    · constructor
      · intro operand member
        cases member
      · intro number same
        cases same
        rw [available_addStatement withSound.opened]
        exact List.mem_append_right _ List.mem_cons_self

theorem declareWith_meets (sound : start.Sound setting) (name : Option String)
    (initial : Operand) :
    Meets setting (declareWith setting.function name initial) start fun _ _ => True := by
  apply Meets.bind (operandValue_meets sound initial)
  intro initial start sound _ known
  apply Meets.bind (typeOf_operand sound known)
  rintro type start _ _ ⟨rfl, operand⟩
  apply declare_meets sound
  intro node member
  cases member
  exact operand

theorem load_meets (sound : start.Sound setting) (source : Node) :
    Meets setting (load setting.function source) start fun node finish =>
      ∃ type, finish.Operand setting node type := by
  apply Meets.bind (entry_meets sound source)
  rintro found start _ _ ⟨rfl, _, _⟩
  split
  next => exact .refuse sound
  next => exact value_operand sound source

theorem checkStore_meets (sound : start.Sound setting) (entry : ExpressionEntry) :
    Meets setting (checkStore setting.function entry) start fun _ finish =>
      finish = start ∧ ∃ reference, entry.reference = some reference := by
  unfold checkStore
  split
  next => exact .refuse sound
  next reference same =>
    split
    next => exact .refuse sound
    next =>
      split
      next => exact .refuse sound
      next => exact .pure sound ⟨rfl, reference, same⟩

theorem store_meets (sound : start.Sound setting) (target : Node) (source : Operand) :
    Meets setting (store setting.function target source) start fun _ _ => True := by
  apply Meets.bind (entry_meets sound target)
  rintro entry start _ _ ⟨rfl, _, usable⟩
  apply Meets.bind (checkStore_meets sound entry)
  rintro _ start _ _ ⟨rfl, reference, same⟩
  rw [same] at usable
  apply Meets.bind (operandValue_meets sound source)
  intro stored start sound grows known
  apply Meets.bind (typeOf_operand sound known)
  rintro type start _ _ ⟨rfl, operand⟩
  split
  next => exact .refuse sound
  next fits =>
    have fits : type = entry.type := Decidable.not_not.mp fits
    refine Meets.imp (addStatement_meets sound ?_) fun _ _ _ => trivial
    simp only [Statement.Checked]
    exact ⟨entry.type, reference, usable.grow grows, fits ▸ operand⟩

/-! ## Parts -/

theorem lettersIn?_some {set : List Char} {width : Nat} {letters : List Char}
    {components : List Nat} (found : lettersIn? set width letters = some components) :
    components.length = letters.length ∧ ∀ position ∈ components, position < width := by
  induction letters generalizing components with
  | nil =>
      cases found
      exact ⟨rfl, fun _ impossible => nomatch impossible⟩
  | cons letter rest induction =>
      rcases Option.bind_eq_some_iff.mp found with ⟨position, _, found⟩
      split at found
      next below =>
        rcases Option.bind_eq_some_iff.mp found with ⟨others, foundRest, same⟩
        cases same
        rcases induction foundRest with ⟨counted, allBelow⟩
        refine ⟨congrArg Nat.succ counted, ?_⟩
        intro other member
        cases member with
        | head => exact below
        | tail _ member => exact allBelow other member
      next => cases found

theorem length_le_utf8ByteSize (letters : List Char) :
    letters.length ≤ (String.ofList letters).utf8ByteSize := by
  induction letters with
  | nil => exact Nat.zero_le _
  | cons letter rest induction =>
      have positive := letter.utf8Size_pos
      rw [← List.singleton_append, String.ofList_append, String.utf8ByteSize_append,
        List.length_append, List.length_singleton]
      change 1 + rest.length ≤ (String.singleton letter).utf8ByteSize + _
      rw [String.utf8ByteSize_singleton]
      omega

theorem swizzleComponents?_some {pattern : String} {width : Nat} {components : List Nat}
    (found : swizzleComponents? pattern width = some components) :
    0 < components.length ∧ components.length ≤ 4 ∧
      ∀ position ∈ components, position < width := by
  unfold swizzleComponents? at found
  dsimp only at found
  split at found
  next => cases found
  next shape =>
    rw [Bool.or_eq_true, not_or] at shape
    rcases shape with ⟨filled, short⟩
    have letters : ∃ set, lettersIn? set width pattern.toList = some components := by
      split at found
      next named =>
        cases found
        exact ⟨_, named⟩
      next => exact ⟨_, found⟩
    rcases letters with ⟨set, named⟩
    rcases lettersIn?_some named with ⟨counted, below⟩
    have size := length_le_utf8ByteSize pattern.toList
    rw [String.ofList_toList] at size
    rw [decide_eq_true_eq] at short
    have named_letter : pattern.toList.length ≠ 0 := by
      intro empty
      apply filled
      rw [List.isEmpty_iff]
      exact List.length_eq_zero_iff.mp empty
    exact ⟨by omega, by omega, below⟩

theorem count_of_ofCount? {count : Nat} {width : VectorWidth}
    (found : VectorWidth.ofCount? count = some width) : count = width.count := by
  unfold VectorWidth.ofCount? at found
  split at found <;> cases found <;> rfl

theorem swizzle_meets (sound : start.Sound setting) (base : Node) (pattern : String) :
    Meets setting (swizzle setting.function base pattern) start fun _ _ => True := by
  apply Meets.bind (entry_meets sound base)
  rintro entry start _ _ ⟨rfl, _, usable⟩
  split
  next kind width typed =>
    rw [typed] at usable
    split
    next => exact .refuse sound
    next components named =>
      rcases swizzleComponents?_some named with ⟨filled, few, below⟩
      split
      next single =>
        have one : components.length = 1 := by
          by_contra several
          match count : components.length, filled, few, several, single with
          | 2, _, _, _, single => cases single
          | 3, _, _, _, single => cases single
          | 4, _, _, _, single => cases single
        rcases List.length_eq_one_iff.mp one with ⟨component, rfl⟩
        refine Meets.imp (addExpression_meets sound ?_ ?_) fun _ _ _ => trivial
        · exact .component usable.known (below component List.mem_cons_self)
        · exact fits_single rfl usable fun _ => nofun
      next result several =>
        apply Meets.bind (value_meets sound base)
        rintro source finish finishSound grows ⟨type, reference, known, operand⟩
        rcases known.known.unique usable.known with ⟨rfl, _⟩
        refine Meets.imp (addValue_meets finishSound ?_ ?_) fun _ _ _ => trivial
        · exact .swizzle operand.known below (count_of_ofCount? several)
        · exact fits_single rfl operand fun _ => nofun
  next => exact .refuse sound

theorem member_meets (sound : start.Sound setting) (base : Node) (name : String) :
    Meets setting (member setting.function base name) start fun _ _ => True := by
  apply Meets.bind (entry_meets sound base)
  rintro entry start _ _ ⟨rfl, _, usable⟩
  split
  next => exact swizzle_meets sound base name
  next =>
    split
    next => exact .refuse sound
    next position found declared =>
      refine Meets.imp (addExpression_meets sound ?_ ?_) fun _ _ _ => trivial
      · exact .member usable.known declared
      · exact fits_single rfl usable fun _ => nofun

theorem index_meets (sound : start.Sound setting) (base : Node) (position : Operand) :
    Meets setting (index setting.function base position) start fun _ _ => True := by
  apply Meets.bind (operandValue_meets sound position)
  rintro position start sound _ ⟨known, operand⟩
  apply Meets.bind (entry_meets sound position)
  rintro positionEntry start _ _ ⟨rfl, found, usable⟩
  rcases operand.known.unique usable.known with ⟨rfl, _⟩
  dsimp only
  split
  next => exact .refuse sound
  next integer =>
    rw [Bool.not_eq_true, Bool.not_eq_false'] at integer
    apply Meets.bind (entry_meets sound base)
    rintro entry start _ _ ⟨rfl, _, baseUsable⟩
    split
    next => exact .refuse sound
    next indexing indexed =>
      split
      next => exact .refuse sound
      next =>
        split
        next => exact .refuse sound
        next =>
          refine Meets.imp (addExpression_meets sound ?_ ?_) fun _ _ _ => trivial
          · exact .index baseUsable.known operand.known integer indexed
          · exact fits_pair rfl baseUsable operand fun _ => nofun

end ShaderKit.Recording
