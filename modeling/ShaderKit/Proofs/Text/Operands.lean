import ShaderKit.Proofs.Text.Literals
import ShaderKit.Proofs.Text.Precedence

/-!
# Operands that hold together

An identifier, a literal and an expression of literals in parentheses are read in one way wherever
they stand, also beside an operator without parentheses.
-/

namespace ShaderKit.Text

/-- A single identifier, a literal without a minus in front, or an expression of literals in
parentheses. -/
def AtomicText (text : String) : Prop :=
  Identifier.isValid text = true ∨ LiteralText text

abbrev Ends (text : List Char) : Prop :=
  ∀ char ∈ text.head?, char ∈ [' ', ')']

theorem stops_cons {stops : Char → Bool} {char : Char} (stop : stops char = false)
    (text : List Char) : ∀ next ∈ (char :: text).head?, stops next = false := by
  rintro _ ⟨⟩
  exact stop

theorem exists_startChar {name : List Char} (shape : Identifier.hasIdentifierShape name = true) :
    ∃ first rest, name = first :: rest ∧ Identifier.isStartChar first = true := by
  cases name with
  | nil => cases shape
  | cons first rest =>
      exact ⟨first, rest, rfl, (Identifier.hasIdentifierShape_cons.mp shape).1⟩

namespace Lexes

variable {text : List Char} {tokens : List Token}

theorem word {name : List Char} (shape : Identifier.hasIdentifierShape name = true)
    (stops : ∀ char ∈ text.head?, Identifier.isBodyChar char = false)
    (follows : Lexes text tokens) : Lexes (name ++ text) (.word name :: tokens) := by
  cases name with
  | nil => cases shape
  | cons first rest =>
      rcases Identifier.hasIdentifierShape_cons.mp shape with ⟨begins, continues, _⟩
      refine @Lexes.token (.word (first :: rest)) _ _ (.word begins continues) ?_ follows
      refine Token.Lexeme.longest_of_stops rfl fun char next => ?_
      rw [Token.mayFollow, if_pos begins]
      exact stops char next

theorem number {literal : List Char} (numeric : NumericLiteral literal)
    (stops : ∀ char ∈ text.head?, isLiteralChar char = false) (follows : Lexes text tokens) :
    Lexes (literal ++ text) (.number literal :: tokens) := by
  rcases numeric.begins with ⟨first, rest, same, _⟩
  have digit := Token.Lexeme.number_begins numeric same
  refine @Lexes.token (.number literal) _ _ (.number numeric) ?_ follows
  refine Token.Lexeme.longest_of_stops same fun char next => ?_
  rw [Token.mayFollow, if_neg (by simp [Token.isStartChar_of_beginsNumber digit]), if_pos digit]
  exact stops char next

theorem symbol {first : Char} {rest : List Char} (known : first :: rest ∈ symbols)
    (stops : ∀ char ∈ text.head?, Token.mayFollow first char = false)
    (follows : Lexes text tokens) :
    Lexes (first :: rest ++ text) (.symbol (first :: rest) :: tokens) :=
  @Lexes.token (.symbol (first :: rest)) _ _ (.symbol known)
    (Token.Lexeme.longest_of_stops rfl stops) follows

theorem delimiter {first : Char} (known : first ∈ ['(', ')', ',']) (follows : Lexes text tokens) :
    Lexes (first :: text) (.symbol [first] :: tokens) := by
  have all : ∀ first ∈ ['(', ')', ','], [first] ∈ symbols ∧
      Identifier.isStartChar first = false ∧ Token.beginsNumber first = false ∧
      ∀ symbol ∈ symbols, symbol.head? = some first → symbol.tail = [] := by decide
  rcases all first known with ⟨symbolic, noStart, noNumber, alone⟩
  refine symbol symbolic (fun char _ => Token.mayFollow_symbol noStart noNumber ?_) follows
  intro other member same
  rw [alone other member same]
  exact List.not_mem_nil

abbrev BeginsOperand (char : Char) : Prop :=
  Identifier.isStartChar char = true ∨ Token.beginsNumber char = true ∨ char = '('

theorem unary (operator : UnaryOperator) {first : Char} {rest : List Char}
    (begins : BeginsOperand first) (follows : Lexes (first :: rest) tokens) :
    Lexes (operator.token.toList ++ first :: rest)
      (.symbol operator.token.toList :: tokens) := by
  have parts : ∃ letter, operator.token.toList = [letter] ∧ [letter] ∈ symbols ∧
      Identifier.isStartChar letter = false ∧ Token.beginsNumber letter = false ∧
      ∀ symbol ∈ symbols, symbol.head? = some letter →
        ∀ char ∈ symbol.tail, ¬ BeginsOperand char := by
    cases operator <;> exact ⟨_, rfl, by decide⟩
  rcases parts with ⟨letter, same, known, noStart, noNumber, apart⟩
  rw [same]
  refine symbol known (stops_cons (Token.mayFollow_symbol noStart noNumber ?_) rest) follows
  exact fun other member begun inside => apart other member begun first inside begins

theorem binary (operator : BinaryOperator) (follows : Lexes text tokens) :
    Lexes (operator.token.toList ++ ' ' :: text) (.symbol operator.token.toList :: tokens) := by
  have parts : ∃ first rest, operator.token.toList = first :: rest ∧ first :: rest ∈ symbols ∧
      Token.mayFollow first ' ' = false := by
    cases operator <;> exact ⟨_, _, rfl, by decide, by decide⟩
  rcases parts with ⟨first, rest, same, known, stops⟩
  rw [same]
  exact symbol known (stops_cons stops text) follows.blank

end Lexes

/-- How an operand is read wherever it stands in a text. -/
structure Operand (text : List Char) (tree : Tree) : Prop where
  atom : tree.Atom
  determined : tree.Determined
  begins : ∃ first rest, text = first :: rest ∧ Lexes.BeginsOperand first
  lexes : ∀ {rest tokens}, Ends rest → Lexes rest tokens →
    Lexes (text ++ rest) (tree.tokens ++ tokens)

namespace Operand

theorem lexes_alone {text : List Char} {tree : Tree} (operand : Operand text tree) :
    Lexes text tree.tokens := by
  have lexes := @operand.lexes [] [] nofun .done
  rw [List.append_nil, List.append_nil] at lexes
  exact lexes

theorem name {name : List Char} (shape : Identifier.hasIdentifierShape name = true) :
    Operand name (.name name) where
  atom := .name name
  determined := .name name
  begins := by
    rcases exists_startChar shape with ⟨first, rest, same, begins⟩
    exact ⟨first, rest, same, .inl begins⟩
  lexes := fun ends follows =>
    Lexes.word shape (fun char next => (by decide : ∀ char ∈ [' ', ')'],
      Identifier.isBodyChar char = false) char (ends char next)) follows

theorem number {literal : List Char} (numeric : NumericLiteral literal) :
    Operand literal (.number literal) where
  atom := .number literal
  determined := .number literal
  begins := by
    rcases numeric.begins with ⟨first, rest, same, _⟩
    exact ⟨first, rest, same, .inr (.inl (Token.Lexeme.number_begins numeric same))⟩
  lexes := fun ends follows =>
    Lexes.number numeric (fun char next => (by decide : ∀ char ∈ [' ', ')'],
      isLiteralChar char = false) char (ends char next)) follows

theorem group {inside : List Char} {tree : Tree} (determined : tree.Determined)
    (lexes : ∀ {rest tokens}, Lexes (')' :: rest) tokens →
      Lexes (inside ++ ')' :: rest) (tree.tokens ++ tokens)) :
    Operand ('(' :: (inside ++ [')'])) (.group tree) where
  atom := .group tree
  determined := determined.group
  begins := ⟨_, _, rfl, .inr (.inr rfl)⟩
  lexes := by
    intro rest tokens _ follows
    have inner := lexes (Lexes.delimiter (by decide) follows)
    simpa [Tree.tokens] using @Lexes.delimiter _ _ '(' (by decide) inner

theorem negative {literal rest : List Char} {tokens : List Token}
    (numeric : NumericLiteral literal) (stops : ∀ char ∈ rest.head?, isLiteralChar char = false)
    (follows : Lexes rest tokens) :
    Lexes ('-' :: (literal ++ rest)) (.symbol ['-'] :: .number literal :: tokens) := by
  rcases numeric.begins with ⟨first, others, same, _⟩
  have begins : Lexes.BeginsOperand first :=
    .inr (.inl (Token.Lexeme.number_begins numeric same))
  have number := Lexes.number numeric stops follows
  rw [same, List.cons_append] at number ⊢
  exact Lexes.unary .neg begins number

theorem of_literalText {text : String} (literal : LiteralText text) :
    ∃ tree, Operand text.toList tree := by
  cases literal with
  | truth value =>
      cases value
      · exact ⟨_, name (by decide)⟩
      · exact ⟨_, name (by decide)⟩
  | number numeric => exact ⟨_, number numeric⟩
  | @negative literal numeric =>
      have determined := (Tree.Determined.number literal.toList).unary (.number _) .neg
      have operand := @group ('-' :: literal.toList) _ determined fun follows =>
        negative numeric (stops_cons (by decide) _) follows
      rw [String.toList_append, String.toList_append]
      exact ⟨_, operand⟩
  | @difference first second firstNumeric secondNumeric =>
      have determined := Tree.Determined.binary_unary (.number first.toList)
        (.number second.toList) (.number _) (.number _) .neg .sub
      have operand := @group ('-' :: (first ++ " - " ++ second).toList) _ determined
        fun follows => by
          have number := Lexes.number secondNumeric (stops_cons (by decide) _) follows
          have lexes := negative firstNumeric (stops_cons (by decide) _)
            (Lexes.binary .sub number).blank
          have sign : UnaryOperator.neg.token.toList = ['-'] := rfl
          have minus : BinaryOperator.sub.token.toList = ['-'] := rfl
          simpa [Tree.tokens, sign, minus] using lexes
      exact ⟨_, by simpa using operand⟩

theorem of_atomicText {text : String} (atomic : AtomicText text) :
    ∃ tree, Operand text.toList tree := by
  rcases atomic with valid | literal
  · exact ⟨_, name (Identifier.isValid_iff.mp valid).1⟩
  · exact of_literalText literal

end Operand

/-- An operand is read in one way. -/
theorem Operand.readsOnly {text : String} {tree : Tree} (operand : Operand text.toList tree) :
    ReadsOnly text tree :=
  operand.determined.readsOnly operand.lexes_alone

theorem AtomicText.readsOnly_unary {text : String} (atomic : AtomicText text)
    (operator : UnaryOperator) :
    ∃ tree, ReadsOnly text tree ∧
      ReadsOnly (operator.token ++ "(" ++ text ++ ")") (.unary operator (.group tree)) := by
  rcases Operand.of_atomicText atomic with ⟨tree, operand⟩
  have grouped := Operand.group operand.determined
    fun follows => operand.lexes (by simp [Ends]) follows
  refine ⟨tree, operand.readsOnly, (grouped.determined.unary grouped.atom operator).readsOnly ?_⟩
  simpa [Tree.tokens] using Lexes.unary operator (.inr (.inr rfl)) grouped.lexes_alone

/-- Two operands with an operator between them are read as the operation on them, without
parentheses. -/
theorem AtomicText.readsOnly_binary {left right : String} (leftAtomic : AtomicText left)
    (rightAtomic : AtomicText right) (operator : BinaryOperator) :
    ∃ leftTree rightTree, ReadsOnly left leftTree ∧ ReadsOnly right rightTree ∧
      ReadsOnly (left ++ " " ++ operator.token ++ " " ++ right)
        (.binary operator leftTree rightTree) := by
  rcases Operand.of_atomicText leftAtomic with ⟨leftTree, leftOperand⟩
  rcases Operand.of_atomicText rightAtomic with ⟨rightTree, rightOperand⟩
  refine ⟨leftTree, rightTree, leftOperand.readsOnly, rightOperand.readsOnly, ?_⟩
  refine (Tree.Determined.binary leftOperand.atom rightOperand.atom leftOperand.determined
    rightOperand.determined operator).readsOnly ?_
  have lexes := leftOperand.lexes (by simp [Ends])
    (Lexes.binary operator rightOperand.lexes_alone).blank
  simpa [Tree.tokens] using lexes

end ShaderKit.Text
