import ShaderKit.Proofs.Text.Lexing

/-!
# Reading expressions

How WGSL reads a text of names, numbers, parentheses and operators. A tree stands beside an
operator only if the grammar allows it there, which is all that precedence is. Operands that hold
together by themselves leave no choice. Calls, accesses and lists of template parameters are left
out: no text that is read here has their symbols.
-/

namespace ShaderKit.Text

/-! ## The grammar -/

inductive Tree where
  | name (chars : List Char)
  | number (chars : List Char)
  | group (inner : Tree)
  | unary (operator : UnaryOperator) (operand : Tree)
  | address (operand : Tree)
  | indirection (operand : Tree)
  | binary (operator : BinaryOperator) (left right : Tree)
deriving DecidableEq, Repr

inductive Category where
  | unary
  | multiplicative
  | additive
  | shift
  | relational
  | shortCircuitAnd
  | shortCircuitOr
  | binaryAnd
  | binaryXor
  | binaryOr
  | expression
deriving DecidableEq, Repr

def Category.within : Category → List Category
  | .unary => [.unary]
  | .multiplicative => [.multiplicative, .unary]
  | .additive => [.additive, .multiplicative, .unary]
  | .shift => [.shift, .additive, .multiplicative, .unary]
  | .relational => [.relational, .shift, .additive, .multiplicative, .unary]
  | .shortCircuitAnd =>
      [.shortCircuitAnd, .relational, .shift, .additive, .multiplicative, .unary]
  | .shortCircuitOr =>
      [.shortCircuitOr, .relational, .shift, .additive, .multiplicative, .unary]
  | .binaryAnd => [.binaryAnd, .unary]
  | .binaryXor => [.binaryXor, .unary]
  | .binaryOr => [.binaryOr, .unary]
  | .expression =>
      [.expression, .shortCircuitAnd, .shortCircuitOr, .binaryAnd, .binaryXor, .binaryOr,
        .relational, .shift, .additive, .multiplicative, .unary]

structure Production where
  result : Category
  left : Category
  right : Category

def production : BinaryOperator → Production
  | .mul | .div | .rem => ⟨.multiplicative, .multiplicative, .unary⟩
  | .add | .sub => ⟨.additive, .additive, .multiplicative⟩
  | .shiftLeft | .shiftRight => ⟨.shift, .unary, .unary⟩
  | .equal | .notEqual | .less | .lessEqual | .greater | .greaterEqual =>
      ⟨.relational, .shift, .shift⟩
  | .logicalAnd => ⟨.shortCircuitAnd, .shortCircuitAnd, .relational⟩
  | .logicalOr => ⟨.shortCircuitOr, .shortCircuitOr, .relational⟩
  | .bitAnd => ⟨.binaryAnd, .binaryAnd, .unary⟩
  | .bitXor => ⟨.binaryXor, .binaryXor, .unary⟩
  | .bitOr => ⟨.binaryOr, .binaryOr, .unary⟩

namespace Tree

/-- Whether the grammar derives a tree from a category. -/
def fits : Category → Tree → Bool
  | _, .name _ => true
  | _, .number _ => true
  | _, .group inner => inner.fits .expression
  | _, .unary _ operand => operand.fits .unary
  | _, .address operand => operand.fits .unary
  | _, .indirection operand => operand.fits .unary
  | category, .binary operator left right =>
      category.within.contains (production operator).result &&
        left.fits (production operator).left && right.fits (production operator).right

def tokens : Tree → List Token
  | .name chars => [.word chars]
  | .number chars => [.number chars]
  | .group inner => .symbol ['('] :: (inner.tokens ++ [.symbol [')']])
  | .unary operator operand => .symbol operator.token.toList :: operand.tokens
  | .address operand => .symbol ['&'] :: operand.tokens
  | .indirection operand => .symbol ['*'] :: operand.tokens
  | .binary operator left right =>
      left.tokens ++ .symbol operator.token.toList :: right.tokens

end Tree

/-- A text is read as an expression. -/
def Reads (text : String) (tree : Tree) : Prop :=
  Lexes text.toList tree.tokens ∧ tree.fits .expression = true

/-- A text is read as an expression and as no other. -/
def ReadsOnly (text : String) (tree : Tree) : Prop :=
  ∀ other, Reads text other ↔ other = tree

section

variable (a b c : List Char)

/-- A product stands in a sum without parentheses, a sum in no product. -/
example : Tree.fits .expression (.binary .add (.name a) (.binary .mul (.name b) (.name c))) =
    true := rfl

example : Tree.fits .expression (.binary .mul (.binary .add (.name a) (.name b)) (.name c)) =
    false := rfl

/-- Bitwise operators of two kinds need parentheses in either order. -/
example : Tree.fits .expression (.binary .bitOr (.binary .bitAnd (.name a) (.name b)) (.name c)) =
    false := rfl

example : Tree.fits .expression (.binary .bitAnd (.name a) (.binary .bitOr (.name b) (.name c))) =
    false := rfl

end

/-! ## Parentheses -/

def Token.isOperator : Token → Bool
  | .symbol chars => chars != ['('] && chars != [')']
  | _ => false

def Token.weight : Token → Int
  | .symbol chars => if chars = ['('] then 1 else if chars = [')'] then -1 else 0
  | _ => 0

def depth : List Token → Int
  | [] => 0
  | token :: rest => token.weight + depth rest

@[simp] theorem depth_nil : depth [] = 0 := rfl

@[simp] theorem depth_cons (token : Token) (rest : List Token) :
    depth (token :: rest) = token.weight + depth rest := rfl

@[simp] theorem depth_append (front back : List Token) :
    depth (front ++ back) = depth front + depth back := by
  induction front with
  | nil => simp
  | cons token rest induction =>
      rw [List.cons_append, depth_cons, depth_cons, induction, Int.add_assoc]

theorem weight_operator {token : Token} (operator : token.isOperator = true) :
    token.weight = 0 := by
  cases token with
  | word | number => rfl
  | symbol chars => simp_all [Token.isOperator, Token.weight]

theorem isOperator_unary (operator : UnaryOperator) :
    (Token.symbol operator.token.toList).isOperator = true := by
  cases operator <;> decide

theorem isOperator_binary (operator : BinaryOperator) :
    (Token.symbol operator.token.toList).isOperator = true := by
  cases operator <;> decide

theorem unary_injective {first second : UnaryOperator}
    (same : Token.symbol first.token.toList = .symbol second.token.toList) : first = second := by
  have written := congrArg UnaryOperator.ofToken? (String.toList_inj.mp (Token.symbol.inj same))
  rw [UnaryOperator.ofToken?_token, UnaryOperator.ofToken?_token] at written
  exact Option.some.inj written

theorem binary_injective {first second : BinaryOperator}
    (same : Token.symbol first.token.toList = .symbol second.token.toList) : first = second := by
  have written := congrArg BinaryOperator.ofToken? (String.toList_inj.mp (Token.symbol.inj same))
  rw [BinaryOperator.ofToken?_token, BinaryOperator.ofToken?_token] at written
  exact Option.some.inj written

theorem prefix_append_cases {α : Type} {front left right : List α}
    (begins : front <+: left ++ right) :
    front <+: left ∨ ∃ more, front = left ++ more ∧ more <+: right := by
  rcases begins with ⟨back, same⟩
  rcases List.append_eq_append_iff.mp same with ⟨rest, rfl, _⟩ | ⟨more, rfl, rfl⟩
  · exact .inl (List.prefix_append _ _)
  · exact .inr ⟨more, rfl, List.prefix_append _ _⟩

structure Complete (tokens : List Token) : Prop where
  closed : depth tokens = 0
  filled : tokens ≠ []
  ends : ∀ others operator, operator.isOperator = true → tokens ≠ others ++ [operator]

theorem Complete.behind {operator : Token} {rest : List Token}
    (complete : Complete (operator :: rest)) (known : operator.isOperator = true) :
    Complete rest where
  closed := by simpa [weight_operator known] using complete.closed
  filled := by
    rintro rfl
    exact complete.ends [] operator known rfl
  ends := by
    rintro others last lastKnown rfl
    exact complete.ends (operator :: others) last lastKnown rfl

namespace Tree

/-- Parentheses are opened before they are closed. -/
theorem depth_prefix (tree : Tree) :
    depth tree.tokens = 0 ∧ ∀ front, front <+: tree.tokens → 0 ≤ depth front := by
  -- An operator in front of a tree opens nothing.
  have prefixed {operator : Token} {operand : Tree} (known : operator.isOperator = true)
      (inside : depth operand.tokens = 0 ∧ ∀ front, front <+: operand.tokens → 0 ≤ depth front) :
      depth (operator :: operand.tokens) = 0 ∧
        ∀ front, front <+: operator :: operand.tokens → 0 ≤ depth front := by
    refine ⟨by simp [weight_operator known, inside.1], fun front begins => ?_⟩
    rcases List.prefix_cons_iff.mp begins with rfl | ⟨rest, rfl, within⟩
    · simp
    · simpa [weight_operator known] using inside.2 rest within
  have single {token : Token} (flat : token.weight = 0) :
      depth [token] = 0 ∧ ∀ front, front <+: [token] → 0 ≤ depth front := by
    refine ⟨by simp [flat], fun front begins => ?_⟩
    rcases List.prefix_cons_iff.mp begins with rfl | ⟨rest, rfl, within⟩
    · simp
    · simp [List.prefix_nil.mp within, flat]
  induction tree with
  | name chars => exact @single (.word chars) rfl
  | number chars => exact @single (.number chars) rfl
  | group inner induction =>
      refine ⟨by simp [tokens, induction.1, Token.weight], fun front begins => ?_⟩
      rcases List.prefix_cons_iff.mp begins with rfl | ⟨rest, rfl, within⟩
      · simp
      · rcases List.prefix_concat_iff.mp within with rfl | within
        · simp [induction.1, Token.weight]
        · have inside := induction.2 rest within
          simp only [depth_cons, Token.weight, if_true]
          omega
  | unary operator operand induction => exact prefixed (isOperator_unary operator) induction
  | address operand induction => exact @prefixed (.symbol ['&']) _ (by decide) induction
  | indirection operand induction => exact @prefixed (.symbol ['*']) _ (by decide) induction
  | binary operator left right first second =>
      have known := weight_operator (isOperator_binary operator)
      refine ⟨by simp [tokens, first.1, second.1, known], fun front begins => ?_⟩
      rcases prefix_append_cases begins with within | ⟨more, rfl, within⟩
      · exact first.2 front within
      · rcases List.prefix_cons_iff.mp within with rfl | ⟨rest, rfl, inside⟩
        · simp [first.1]
        · simpa [first.1, known] using second.2 rest inside

theorem tokens_ne_nil (tree : Tree) : tree.tokens ≠ [] := by
  cases tree <;> simp [tokens]

theorem ends (tree : Tree) :
    ∃ front last, tree.tokens = front ++ [last] ∧ last.isOperator = false := by
  have behind (first : Token) {operand : Tree}
      (last : ∃ front last, operand.tokens = front ++ [last] ∧ last.isOperator = false) :
      ∃ front last, first :: operand.tokens = front ++ [last] ∧ last.isOperator = false := by
    rcases last with ⟨front, last, same, flat⟩
    exact ⟨first :: front, last, by rw [same, List.cons_append], flat⟩
  induction tree with
  | name chars | number chars => exact ⟨[], _, rfl, rfl⟩
  | group inner => exact ⟨_ :: inner.tokens, _, rfl, by decide⟩
  | unary _ _ induction | address _ induction | indirection _ induction => exact behind _ induction
  | binary operator left right _ second =>
      rcases second with ⟨front, last, same, flat⟩
      refine ⟨left.tokens ++ .symbol operator.token.toList :: front, last, ?_, flat⟩
      rw [tokens, same, List.append_assoc, List.cons_append]

theorem complete (tree : Tree) : Complete tree.tokens where
  closed := tree.depth_prefix.1
  filled := tree.tokens_ne_nil
  ends := by
    intro others operator known stops
    rcases tree.ends with ⟨front, last, same, flat⟩
    rw [same] at stops
    rw [(List.append_singleton_inj.mp stops).2, known] at flat
    cases flat

/-- The trees that hold together beside any operator. -/
inductive Atom : Tree → Prop where
  | name (chars : List Char) : Atom (.name chars)
  | number (chars : List Char) : Atom (.number chars)
  | group (inner : Tree) : Atom (.group inner)

namespace Atom

variable {tree left right : Tree}

theorem begins (atom : tree.Atom) :
    ∃ first rest, tree.tokens = first :: rest ∧ first.isOperator = false := by
  cases atom with
  | name | number => exact ⟨_, _, rfl, rfl⟩
  | group => exact ⟨_, _, rfl, by decide⟩

/-- Inside of an atom some parenthesis is open. -/
theorem eq_of_prefix (atom : tree.Atom) {front : List Token} (begins : front <+: tree.tokens)
    (closed : depth front = 0) : front = [] ∨ front = tree.tokens := by
  rcases List.prefix_cons_iff.mp
    (show front <+: tree.tokens.head tree.tokens_ne_nil :: tree.tokens.tail by simpa) with
    rfl | ⟨rest, rfl, within⟩
  · exact .inl rfl
  · right
    cases atom with
    | name | number =>
        rw [List.prefix_nil.mp within]
        rfl
    | group inner =>
        rcases List.prefix_concat_iff.mp within with rfl | within
        · rfl
        · have inside := inner.depth_prefix.2 rest within
          have weight : Token.weight (.symbol ['(']) = 1 := by decide
          simp only [tokens, List.head_cons, depth_cons, weight] at closed
          omega

theorem not_front (atom : tree.Atom) {front rest : List Token} {next : Token}
    (complete : Complete front) : front ++ next :: rest ≠ tree.tokens := by
  intro same
  rcases atom.eq_of_prefix (same ▸ List.prefix_append _ _) complete.closed with none | all
  · exact complete.filled none
  · rw [all, List.append_right_eq_self] at same
    cases same

theorem split (first : left.Atom) (second : right.Atom) {operator next : Token}
    (known : operator.isOperator = true) {front rest : List Token} (complete : Complete front)
    (same : front ++ next :: rest = left.tokens ++ operator :: right.tokens) :
    front = left.tokens ∧ next = operator ∧ rest = right.tokens := by
  rcases List.append_eq_append_iff.mp same with ⟨more, written, behind⟩ | ⟨more, written, behind⟩
  · cases more with
    | nil =>
        rw [List.append_nil] at written
        exact ⟨written.symm, List.cons.inj behind⟩
    | cons => exact absurd written.symm (first.not_front complete)
  · cases more with
    | nil =>
        rw [List.append_nil] at written
        exact ⟨written, (List.cons.inj behind).1.symm, (List.cons.inj behind).2.symm⟩
    | cons _ more =>
        rcases List.cons.inj behind with ⟨rfl, reached⟩
        have closed : depth more = 0 := by
          have flat := complete.closed
          rw [written] at flat
          simpa [left.complete.closed, weight_operator known] using flat
        rcases second.eq_of_prefix ⟨next :: rest, reached.symm⟩ closed with rfl | all
        · exact absurd written (complete.ends _ _ known)
        · rw [all] at reached
          cases List.self_eq_append_right.mp reached

theorem binary_of_tokens (first : left.Atom) (second : right.Atom) {operator : Token}
    (known : operator.isOperator = true) {other : Tree}
    (same : other.tokens = left.tokens ++ operator :: right.tokens) :
    ∃ between leftSide rightSide, other = .binary between leftSide rightSide ∧
      .symbol between.token.toList = operator ∧ leftSide.tokens = left.tokens ∧
      rightSide.tokens = right.tokens := by
  have unlikely (token : Token) : [token] ≠ left.tokens ++ operator :: right.tokens := by
    simp [List.cons_eq_append_iff, left.tokens_ne_nil]
  have opens {token : Token} {rest : List Token} (known : token.isOperator = true) :
      token :: rest ≠ left.tokens ++ operator :: right.tokens := by
    rcases first.begins with ⟨first, others, written, flat⟩
    rw [written, List.cons_append]
    intro same
    rw [(List.cons.inj same).1, flat] at known
    cases known
  cases other with
  | name | number => exact absurd same (unlikely _)
  | unary between => exact absurd same (opens (isOperator_unary between))
  | address | indirection => exact absurd same (opens (by decide))
  | group inner =>
      -- The left operand would end inside of the parentheses.
      exact absurd same.symm ((Atom.group inner).not_front left.complete)
  | binary between leftSide rightSide =>
      rcases first.split second known leftSide.complete same with ⟨leftSame, rfl, rightSame⟩
      exact ⟨between, leftSide, rightSide, rfl, rfl, leftSame, rightSame⟩

/-- A tree that begins with an operator is an operation on what follows, or one with two
operands of which the left begins with it. -/
theorem prefixed {operator : UnaryOperator} {rest : List Token} {other : Tree}
    (same : other.tokens = .symbol operator.token.toList :: rest) :
    (∃ operand, other = .unary operator operand ∧ operand.tokens = rest) ∨
    ∃ between leftSide rightSide front, other = .binary between leftSide rightSide ∧
      leftSide.tokens = .symbol operator.token.toList :: front ∧ Complete front ∧
      front ++ .symbol between.token.toList :: rightSide.tokens = rest := by
  cases other with
  | name | number => cases same
  | group inner =>
      have known := isOperator_unary operator
      rw [← (List.cons.inj same).1] at known
      exact absurd known (by decide)
  | unary another operand =>
      rcases List.cons.inj same with ⟨first, behind⟩
      rw [unary_injective first]
      exact .inl ⟨operand, rfl, behind⟩
  | address | indirection =>
      have first := (List.cons.inj same).1
      cases operator <;> exact absurd first (by decide)
  | binary between leftSide rightSide =>
      rcases List.append_eq_cons_iff.mp same with ⟨none, _⟩ | ⟨front, written, behind⟩
      · exact absurd none leftSide.tokens_ne_nil
      · have complete := (written ▸ leftSide.complete).behind (isOperator_unary operator)
        exact .inr ⟨between, leftSide, rightSide, front, rfl, written, complete, behind.symm⟩

theorem unary_of_tokens (atom : tree.Atom) {operator : UnaryOperator} {other : Tree}
    (same : other.tokens = .symbol operator.token.toList :: tree.tokens) :
    ∃ operand, other = .unary operator operand ∧ operand.tokens = tree.tokens := by
  rcases prefixed same with found | ⟨_, _, _, _, _, _, complete, behind⟩
  · exact found
  · exact absurd behind (atom.not_front complete)

end Atom

theorem single_of_tokens {token : Token} {tree : Tree} (same : tree.tokens = [token]) :
    (∃ chars, tree = .name chars) ∨ ∃ chars, tree = .number chars := by
  cases tree with
  | name chars => exact .inl ⟨chars, rfl⟩
  | number chars => exact .inr ⟨chars, rfl⟩
  | group => simp [tokens] at same
  | unary _ operand | address operand | indirection operand =>
      exact absurd (List.cons.inj same).2 operand.tokens_ne_nil
  | binary operator left right =>
      simp [tokens, List.append_eq_cons_iff, left.tokens_ne_nil] at same

theorem fits_expression {category : Category} {tree : Tree} (fits : tree.fits category = true) :
    tree.fits .expression = true := by
  cases tree with
  | binary operator =>
      rw [Tree.fits, Bool.and_eq_true, Bool.and_eq_true] at fits ⊢
      refine ⟨⟨?_, fits.1.2⟩, fits.2⟩
      cases operator <;> decide
  | _ => exact fits

theorem Atom.fits_of_expression {tree : Tree} (atom : tree.Atom) (category : Category)
    (fits : tree.fits .expression = true) : tree.fits category = true := by
  cases atom <;> exact fits

structure Determined (tree : Tree) : Prop where
  fits : tree.fits .expression = true
  only : ∀ other : Tree, other.fits .expression = true → other.tokens = tree.tokens → other = tree

namespace Determined

variable {tree left right : Tree}

theorem name (chars : List Char) : Determined (.name chars) where
  fits := rfl
  only := by
    intro other _ same
    rcases single_of_tokens same with ⟨_, rfl⟩ | ⟨_, rfl⟩ <;> cases same
    rfl

theorem number (chars : List Char) : Determined (.number chars) where
  fits := rfl
  only := by
    intro other _ same
    rcases single_of_tokens same with ⟨_, rfl⟩ | ⟨_, rfl⟩ <;> cases same
    rfl

theorem group (inner : Determined tree) : Determined (.group tree) where
  fits := inner.fits
  only := by
    intro other fits same
    cases other with
    | name | number => simp [tokens] at same
    | group another =>
        rw [inner.only another fits (List.append_cancel_right (List.cons.inj same).2)]
    | unary operator =>
        have known := isOperator_unary operator
        rw [(List.cons.inj same).1] at known
        exact absurd known (by decide)
    | address | indirection => exact absurd (List.cons.inj same).1 (by decide)
    | binary operator leftSide rightSide =>
        exact absurd same ((Atom.group tree).not_front leftSide.complete)

theorem unary (operand : Determined tree) (atom : tree.Atom) (operator : UnaryOperator) :
    Determined (.unary operator tree) where
  fits := atom.fits_of_expression .unary operand.fits
  only := by
    intro other fits same
    rcases atom.unary_of_tokens same with ⟨another, rfl, behind⟩
    rw [operand.only another (fits_expression fits) behind]

theorem fits_binary {operator : BinaryOperator}
    (leftFits : left.fits (production operator).left = true)
    (rightFits : right.fits (production operator).right = true) :
    (Tree.binary operator left right).fits .expression = true := by
  rw [Tree.fits, leftFits, rightFits, Bool.and_true, Bool.and_true]
  cases operator <;> decide

/-- An operation is given by its operator and the tokens of its operands. -/
theorem binary_eq (leftSide : Determined left) (rightSide : Determined right)
    {category : Category} {operator between : BinaryOperator} {leftOther rightOther : Tree}
    (fits : (Tree.binary between leftOther rightOther).fits category = true)
    (operatorSame : Token.symbol between.token.toList = .symbol operator.token.toList)
    (leftSame : leftOther.tokens = left.tokens) (rightSame : rightOther.tokens = right.tokens) :
    Tree.binary between leftOther rightOther = .binary operator left right := by
  rw [Tree.fits, Bool.and_eq_true, Bool.and_eq_true] at fits
  rw [binary_injective operatorSame, leftSide.only leftOther (fits_expression fits.1.2) leftSame,
    rightSide.only rightOther (fits_expression fits.2) rightSame]

theorem binary (first : left.Atom) (second : right.Atom) (leftSide : Determined left)
    (rightSide : Determined right) (operator : BinaryOperator) :
    Determined (.binary operator left right) where
  fits := fits_binary (first.fits_of_expression _ leftSide.fits)
    (second.fits_of_expression _ rightSide.fits)
  only := by
    intro other fits same
    rcases first.binary_of_tokens second (isOperator_binary operator) same with
      ⟨between, leftOther, rightOther, rfl, operatorSame, leftSame, rightSame⟩
    exact leftSide.binary_eq rightSide fits operatorSame leftSame rightSame

/-- An operator in front takes the first operand only, since no category of its operand has
operations on two operands. -/
theorem binary_unary (first : left.Atom) (second : right.Atom) (leftSide : Determined left)
    (rightSide : Determined right) (sign : UnaryOperator) (operator : BinaryOperator) :
    Determined (.binary operator (.unary sign left) right) where
  fits := fits_binary (first.fits_of_expression .unary leftSide.fits)
    (second.fits_of_expression _ rightSide.fits)
  only := by
    intro other fits same
    have known := isOperator_binary operator
    rcases Atom.prefixed same with ⟨operand, rfl, behind⟩ |
      ⟨between, leftOther, rightOther, front, rfl, written, complete, behind⟩
    · rcases first.binary_of_tokens second known behind with ⟨between, _, _, rfl, _⟩
      have loose : (Category.within .unary).contains (production between).result = false := by
        cases between <;> decide
      rw [Tree.fits, Tree.fits, loose] at fits
      cases fits
    · rcases first.split second known complete behind with ⟨rfl, operatorSame, rightSame⟩
      exact (leftSide.unary first sign).binary_eq rightSide fits operatorSame written rightSame

theorem readsOnly {text : String} (determined : Determined tree)
    (divided : Lexes text.toList tree.tokens) : ReadsOnly text tree := by
  intro other
  constructor
  · rintro ⟨lexes, fits⟩
    exact determined.only other fits (lexes.unique divided)
  · rintro rfl
    exact ⟨divided, determined.fits⟩

end Determined

end Tree

end ShaderKit.Text
