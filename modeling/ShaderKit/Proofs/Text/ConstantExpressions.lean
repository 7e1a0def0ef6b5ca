import Mathlib.Data.List.Forall2
import ShaderKit.Host.Compose
import ShaderKit.Proofs.Text.Operands
import ShaderKit.Recording.Recorder

/-!
# Constant expressions

What a text of constructor calls, literals with a suffix, signs, differences and parentheses
denotes in WGSL. Nothing wraps around in a constant expression: a literal or a result out of range
is an error, and so is a constructor with arguments that do not make up its type.
-/

namespace ShaderKit.Text

/-! ## Constants -/

structure Constant where
  type : TypeDescriptor
  value : HostValue
deriving Repr

abbrev Scope := String → Option TypeDescriptor

def integerOf? (kind : ScalarKind) (number : Int) : Option Scalar :=
  match kind with
  | .i32 =>
      if -2147483648 ≤ number ∧ number ≤ 2147483647 then some (.i32 (.ofInt number)) else none
  | .u32 =>
      if 0 ≤ number ∧ number ≤ 4294967295 then some (.u32 (.ofNat number.toNat)) else none
  | _ => none

def number? : Scalar → Option Int
  | .i32 value => some value.toInt
  | .u32 value => some value.toNat
  | _ => none

namespace Constant

def ofScalar (value : Scalar) : Constant := ⟨.scalar value.kind, .scalar value⟩

/-- Only signed numbers are negated. -/
def negated? (constant : Constant) : Option Constant := do
  match constant.value with
  | .scalar (.i32 value) => some (ofScalar (← integerOf? .i32 (-value.toInt)))
  | _ => none

/-- Only numbers of one type are subtracted. -/
def difference? (left right : Constant) : Option Constant := do
  match left.value, right.value with
  | .scalar first, .scalar second =>
      if first.kind = second.kind then
        some (ofScalar (← integerOf? first.kind ((← number? first) - (← number? second))))
      else none
  | _, _ => none

/-- What a constructor makes of its arguments. Without arguments it makes the zero value. -/
def made? (type : TypeDescriptor) (arguments : List Constant) : Option Constant :=
  if type.isConstructible = false then none
  else if arguments.isEmpty then some ⟨type, type.zero⟩
  else if Recording.constructs type (arguments.map Constant.type) then
    (type.compose (arguments.map Constant.value)).map (Constant.mk type)
  else none

end Constant

/-! ## Words and numbers -/

def truths : List (String × Bool) := [("true", true), ("false", false)]

def predeclared : List (String × TypeDescriptor) :=
  [("bool", .bool), ("i32", .i32), ("u32", .u32),
    ("vec2i", .vector .i32 .two), ("vec3i", .vector .i32 .three), ("vec4i", .vector .i32 .four),
    ("vec2u", .vector .u32 .two), ("vec3u", .vector .u32 .three), ("vec4u", .vector .u32 .four)]

def generators : List (String × VectorWidth) := [("vec2", .two), ("vec3", .three), ("vec4", .four)]

def named? (scope : Scope) (name : String) : Option TypeDescriptor :=
  if Identifier.isReserved name then predeclared.lookup name else scope name

def literal? (literal : List Char) : Option Scalar :=
  let number := Nat.ofDigitChars 10 (literal.takeWhile Char.isDigit) 0
  match literal.dropWhile Char.isDigit with
  | ['i'] => integerOf? .i32 number
  | ['u'] => integerOf? .u32 number
  | _ => none

example : literal? "2147483648i".toList = none := by decide

/-- How many elements an array has. There is at least one. -/
def count? (literal : List Char) : Option Nat :=
  let number := Nat.ofDigitChars 10 literal 0
  if literal.all Char.isDigit ∧ 0 < number then some number else none

/-! ## Reading -/

def type? (scope : Scope) : List Token → Option (TypeDescriptor × List Token)
  | .word name :: rest =>
      match named? scope (String.ofList name) with
      | some type => some (type, rest)
      | none =>
          match rest with
          | .symbol ['<'] :: inner =>
              match type? scope inner with
              | some (element, .symbol [','] :: .number literal :: .symbol ['>'] :: rest) =>
                  if String.ofList name = "array" then do
                    some (.array element (.fixed (← count? literal)), rest)
                  else none
              | some (.scalar kind, .symbol ['>'] :: rest) => do
                  some (.vector kind (← generators.lookup (String.ofList name)), rest)
              | _ => none
          | _ => none
  | _ => none

def behind? (symbol : List Char) : List Token → Option (List Token)
  | .symbol chars :: rest => if chars = symbol then some rest else none
  | _ => none

-- The fuel bounds how deep these functions call each other. Two calls for every token are enough.
mutual
/-- The operand in front of other tokens: a literal, a sign with its operand, an expression in
parentheses, or a constructor with its arguments. -/
def operand? (scope : Scope) : Nat → List Token → Option (Constant × List Token)
  | fuel + 1, .symbol ['-'] :: rest => do
      let (operand, rest) ← operand? scope fuel rest
      some (← operand.negated?, rest)
  | fuel + 1, .symbol ['('] :: rest => do
      let (inner, rest) ← expression? scope fuel rest
      some (inner, ← behind? [')'] rest)
  | _ + 1, .number literal :: rest => do
      some (.ofScalar (← literal? literal), rest)
  | fuel + 1, .word name :: rest =>
      match truths.lookup (String.ofList name) with
      | some value => some (.ofScalar (.bool value), rest)
      | none => do
          let (type, rest) ← type? scope (.word name :: rest)
          let (arguments, rest) ← arguments? scope fuel (← behind? ['('] rest)
          some (← Constant.made? type arguments, rest)
  | _, _ => none

def expression? (scope : Scope) : Nat → List Token → Option (Constant × List Token)
  | 0, _ => none
  | fuel + 1, tokens => do
      let (first, rest) ← operand? scope fuel tokens
      differences? scope fuel first rest

def differences? (scope : Scope) :
    Nat → Constant → List Token → Option (Constant × List Token)
  | 0, _, _ => none
  | fuel + 1, left, tokens =>
      match behind? ['-'] tokens with
      | some rest => do
          let (right, rest) ← operand? scope fuel rest
          differences? scope fuel (← left.difference? right) rest
      | none => some (left, tokens)

/-- The arguments of a call up to the parenthesis that closes it. A comma may stand behind the
last one. -/
def arguments? (scope : Scope) : Nat → List Token → Option (List Constant × List Token)
  | 0, _ => none
  | fuel + 1, tokens =>
      match behind? [')'] tokens with
      | some rest => some ([], rest)
      | none => do
          let (first, rest) ← expression? scope fuel tokens
          match behind? [','] rest with
          | some rest => do
              let (others, rest) ← arguments? scope fuel rest
              some (first :: others, rest)
          | none => some ([first], ← behind? [')'] rest)
end

def constant? (scope : Scope) (tokens : List Token) : Option Constant :=
  match expression? scope (2 * tokens.length + 2) tokens with
  | some (constant, []) => some constant
  | _ => none

/-- A text denotes a constant. -/
def Denotes (scope : Scope) (text : String) (constant : Constant) : Prop :=
  ∃ tokens, Lexes text.toList tokens ∧ constant? scope tokens = some constant

/-- A text denotes at most one constant. -/
theorem Denotes.unique {scope : Scope} {text : String} {constant other : Constant}
    (first : Denotes scope text constant) (second : Denotes scope text other) :
    constant = other := by
  rcases first with ⟨tokens, lexes, reads⟩
  rcases second with ⟨others, lexesToo, readsToo⟩
  rw [lexes.unique lexesToo, readsToo] at reads
  exact Option.some.inj reads.symm

/-! ## Numbers -/

theorem integerOf?_i32 (value : Int32) : integerOf? .i32 value.toInt = some (.i32 value) := by
  have atLeast : -2147483648 ≤ value.toInt := value.le_toInt
  have atMost : value.toInt < 2147483648 := value.toInt_lt
  rw [integerOf?, if_pos ⟨atLeast, by omega⟩, Int32.ofInt_toInt]

theorem integerOf?_u32 (value : UInt32) : integerOf? .u32 value.toNat = some (.u32 value) := by
  have below : value.toNat < 4294967296 := value.toNat_lt
  rw [integerOf?, if_pos ⟨by omega, by omega⟩, Int.toNat_natCast, UInt32.ofNat_toNat]

inductive Suffix : ScalarKind → Char → Prop where
  | i32 : Suffix .i32 'i'
  | u32 : Suffix .u32 'u'

theorem literal?_toDigits {kind : ScalarKind} {letter : Char} (number : Nat)
    (suffix : Suffix kind letter) :
    literal? (Nat.toDigits 10 number ++ [letter]) = integerOf? kind number := by
  have digital := digits_toDigits number
  have taken : (Nat.toDigits 10 number ++ [letter]).takeWhile Char.isDigit =
      Nat.toDigits 10 number ++ [letter].takeWhile Char.isDigit :=
    List.takeWhile_append_of_pos digital
  have dropped : (Nat.toDigits 10 number ++ [letter]).dropWhile Char.isDigit =
      [letter].dropWhile Char.isDigit := List.dropWhile_append_of_pos digital
  rw [literal?, taken, dropped]
  cases suffix <;> simp [Nat.ofDigitChars_toDigits]

theorem count?_toDigits (number : Nat) :
    count? (Nat.toDigits 10 number) = if 0 < number then some number else none := by
  have digital := List.all_eq_true.mpr (digits_toDigits number)
  simp [count?, Nat.ofDigitChars_toDigits, digital]

/-- The numbers that may stand in a text: literals in the range of their type, and how many
elements the given array types have. -/
inductive InRange (types : List TypeDescriptor) : List Char → Prop where
  | signed {number : Nat} (fits : number ≤ 2147483647) :
      InRange types (Nat.toDigits 10 number ++ ['i'])
  | unsigned {number : Nat} (fits : number ≤ 4294967295) :
      InRange types (Nat.toDigits 10 number ++ ['u'])
  | count {element : TypeDescriptor} {number : Nat}
      (counted : .array element (.fixed number) ∈ types) : InRange types (Nat.toDigits 10 number)

/-! ## Reading in front of other tokens -/

abbrev Delimited (text : List Char) : Prop :=
  ∀ char ∈ text.head?, char ∈ ['(', ')', ',']

/-- How the text of a constant is read wherever it stands. -/
structure Spells (scope : Scope) (types : List TypeDescriptor) (text : List Char)
    (tokens : List Token) (constant : Constant) : Prop where
  lexes : ∀ {rest others}, Delimited rest → Lexes rest others →
    Lexes (text ++ rest) (tokens ++ others)
  reads : ∀ {fuel rest}, 2 * tokens.length ≤ fuel →
    operand? scope fuel (tokens ++ rest) = some (constant, rest)
  inRange : ∀ literal, .number literal ∈ tokens → InRange types literal

structure SpellsType (scope : Scope) (types : List TypeDescriptor) (text : List Char)
    (tokens : List Token) (type : TypeDescriptor) : Prop where
  begins : ∃ name rest, tokens = .word name :: rest ∧ truths.lookup (String.ofList name) = none
  letter : ∃ first rest, text = first :: rest ∧ Identifier.isStartChar first = true
  lexes : ∀ {rest others}, Delimited rest → Lexes rest others →
    Lexes (text ++ rest) (tokens ++ others)
  reads : ∀ rest, type? scope (tokens ++ rest) = some (type, rest)
  inRange : ∀ literal, .number literal ∈ tokens → InRange types literal

section

variable {scope : Scope} {types : List TypeDescriptor}

theorem expression?_of_operand {fuel : Nat} {tokens rest : List Token} {constant : Constant}
    (reads : operand? scope (fuel + 1) tokens = some (constant, rest))
    (ends : behind? ['-'] rest = none) :
    expression? scope (fuel + 2) tokens = some (constant, rest) := by
  rw [expression?, reads]
  simp [differences?, ends]

theorem behind?_of_operand {fuel : Nat} {tokens : List Token} {result : Constant × List Token}
    (reads : operand? scope fuel tokens = some result) : behind? [')'] tokens = none := by
  unfold operand? at reads
  split at reads <;> simp_all [behind?]

theorem Spells.lexes_alone {text : List Char} {tokens : List Token} {constant : Constant}
    (spells : Spells scope types text tokens constant) : Lexes text tokens := by
  have lexes := @spells.lexes [] [] nofun .done
  rw [List.append_nil, List.append_nil] at lexes
  exact lexes

theorem Spells.denotes {text : String} {tokens : List Token} {constant : Constant}
    (spells : Spells scope types text.toList tokens constant) : Denotes scope text constant := by
  have reads := @spells.reads (2 * tokens.length + 1) [] (by omega)
  rw [List.append_nil] at reads
  refine ⟨tokens, spells.lexes_alone, ?_⟩
  rw [constant?, expression?_of_operand reads rfl]

/-! ## Literals -/

theorem Delimited.endsWord {text : List Char} (ends : Delimited text) :
    ∀ char ∈ text.head?, Identifier.isBodyChar char = false :=
  fun char next => (by decide : ∀ char ∈ ['(', ')', ','], Identifier.isBodyChar char = false)
    char (ends char next)

theorem Delimited.endsNumber {text : List Char} (ends : Delimited text) :
    ∀ char ∈ text.head?, isLiteralChar char = false :=
  fun char next => (by decide : ∀ char ∈ ['(', ')', ','], isLiteralChar char = false)
    char (ends char next)

namespace Spells

theorem truth (value : Bool) :
    ∃ tokens, Spells scope types (if value then "true" else "false").toList tokens
      (.ofScalar (.bool value)) := by
  refine ⟨[.word (if value then "true" else "false").toList], ?_, ?_, by simp⟩
  · intro rest others ends follows
    exact Lexes.word (by cases value <;> decide) ends.endsWord follows
  · intro fuel rest enough
    rcases Nat.exists_eq_add_of_le' (Nat.le_trans (by simp) enough : 1 ≤ fuel) with ⟨fuel, rfl⟩
    cases value <;> rfl

variable {kind : ScalarKind} {letter : Char} {number : Nat} {value : Scalar}

theorem literal (suffix : Suffix kind letter)
    (fits : integerOf? kind number = some value) :
    NumericLiteral (Nat.toDigits 10 number ++ [letter]) ∧
      literal? (Nat.toDigits 10 number ++ [letter]) = some value ∧
      InRange types (Nat.toDigits 10 number ++ [letter]) := by
  refine ⟨numericLiteral_toDigits number ?_, (literal?_toDigits number suffix).trans fits, ?_⟩
  · cases suffix <;> decide
  · rw [integerOf?.eq_def] at fits
    cases suffix with
    | i32 =>
        rw [Option.ite_none_right_eq_some] at fits
        exact .signed (by omega)
    | u32 =>
        rw [Option.ite_none_right_eq_some] at fits
        exact .unsigned (by omega)

theorem positive (suffix : Suffix kind letter)
    (fits : integerOf? kind number = some value) :
    ∃ tokens, Spells scope types (Nat.toDigits 10 number ++ [letter]) tokens (.ofScalar value) := by
  rcases @literal types _ _ _ _ suffix fits with ⟨numeric, reads, inRange⟩
  refine ⟨[.number (Nat.toDigits 10 number ++ [letter])], ?_, ?_, ?_⟩
  · intro rest others ends follows
    exact Lexes.number numeric ends.endsNumber follows
  · intro fuel rest enough
    rcases Nat.exists_eq_add_of_le' (Nat.le_trans (by simp) enough : 1 ≤ fuel) with ⟨fuel, rfl⟩
    simp [operand?, reads]
  · simpa using inRange

theorem negative (fits : number ≤ 2147483647) :
    ∃ tokens, Spells scope types ('(' :: '-' :: (Nat.toDigits 10 number ++ ['i', ')'])) tokens
      (.ofScalar (.i32 (.ofInt (-number)))) := by
  have magnitude : integerOf? .i32 number = some (.i32 (.ofInt number)) :=
    if_pos ⟨by omega, by omega⟩
  have inside : (Int32.ofInt number).toInt = number :=
    Int32.toInt_ofInt_of_le (by omega) (by omega)
  have negated : integerOf? .i32 (-(number : Int)) = some (.i32 (.ofInt (-number))) :=
    if_pos ⟨by omega, by omega⟩
  rcases @literal types _ _ _ _ .i32 magnitude with ⟨numeric, reads, inRange⟩
  refine ⟨[.symbol ['('], .symbol ['-'], .number (Nat.toDigits 10 number ++ ['i']),
    .symbol [')']], ?_, ?_, ?_⟩
  · intro rest others ends follows
    have closed := @Lexes.delimiter _ _ ')' (by decide) follows
    have lexes := Operand.negative numeric (stops_cons (by decide) _) closed
    simpa using @Lexes.delimiter _ _ '(' (by decide) lexes
  · intro fuel rest enough
    rcases Nat.exists_eq_add_of_le' (Nat.le_trans (by simp) enough : 4 ≤ fuel) with ⟨fuel, rfl⟩
    simp [operand?, expression?, differences?, behind?, reads, Constant.negated?,
      Constant.ofScalar, inside, negated]
  · simpa using inRange

/-- The least integer is a difference, since its magnitude is out of range. -/
theorem least :
    ∃ tokens, Spells scope types "(-2147483647i - 1i)".toList tokens
      (.ofScalar (.i32 (.ofInt (-2147483648)))) := by
  have first := @literal types _ _ 2147483647 _ .i32 rfl
  have second := @literal types _ _ 1 _ .i32 rfl
  refine ⟨[.symbol ['('], .symbol ['-'], .number (Nat.toDigits 10 2147483647 ++ ['i']),
    .symbol ['-'], .number (Nat.toDigits 10 1 ++ ['i']), .symbol [')']], ?_, ?_, ?_⟩
  · intro rest others ends follows
    have closed := @Lexes.delimiter _ _ ')' (by decide) follows
    have one := Lexes.number second.1 (stops_cons (by decide) _) closed
    have lexes := Operand.negative first.1 (stops_cons (by decide) _)
      (Lexes.binary .sub one).blank
    exact @Lexes.delimiter _ _ '(' (by decide) lexes
  · intro fuel rest enough
    rcases Nat.exists_eq_add_of_le' (Nat.le_trans (by simp) enough : 4 ≤ fuel) with ⟨fuel, rfl⟩
    simp [operand?, expression?, differences?, behind?, first.2.1, second.2.1, Constant.negated?,
      Constant.ofScalar, Constant.difference?, number?, integerOf?, Scalar.kind]
  · simpa using And.intro first.2.2 second.2.2

end Spells

/-! ## Types -/

namespace Lexes

variable {text : List Char} {tokens : List Token}

theorem less {first : Char} (begins : Identifier.isStartChar first = true)
    (follows : Lexes (first :: text) tokens) :
    Lexes ('<' :: first :: text) (.symbol ['<'] :: tokens) := by
  have apart : ∀ symbol ∈ symbols, symbol.head? = some '<' →
      ∀ char ∈ symbol.tail, Identifier.isStartChar char = false := by decide
  have stops : Token.mayFollow '<' first = false := by
    refine Token.mayFollow_symbol (by decide) (by decide) fun other member begun inside => ?_
    rw [apart other member begun first inside] at begins
    cases begins
  exact @symbol _ _ '<' [] (by decide) (stops_cons stops text) follows

theorem greater (ends : Delimited text) (follows : Lexes text tokens) :
    Lexes ('>' :: text) (.symbol ['>'] :: tokens) := by
  refine @symbol _ _ '>' [] (by decide) (fun char next => ?_) follows
  exact (by decide : ∀ char ∈ ['(', ')', ','], Token.mayFollow '>' char = false) char
    (ends char next)

end Lexes

namespace SpellsType

theorem lookup_truths {name : String} (valid : Identifier.isReserved name = false) :
    truths.lookup name = none := by
  rw [List.lookup_eq_none_iff]
  intro entry member
  rw [bne_iff_ne]
  rintro rfl
  have all : ∀ entry ∈ truths, Identifier.isReserved entry.1 = true := by decide +kernel
  rw [all entry member] at valid
  cases valid

theorem word {name : String} {type : TypeDescriptor}
    (shape : Identifier.hasIdentifierShape name.toList = true)
    (noTruth : truths.lookup name = none) (known : named? scope name = some type) :
    SpellsType scope types name.toList [.word name.toList] type where
  begins := ⟨name.toList, [], rfl, by rw [String.ofList_toList, noTruth]⟩
  letter := exists_startChar shape
  lexes := fun ends follows => Lexes.word shape ends.endsWord follows
  reads := by
    intro rest
    unfold type?
    simp only [List.singleton_append, String.ofList_toList, known]
  inRange := by simp

theorem declared {name : String} {type : TypeDescriptor} (valid : Identifier.isValid name = true)
    (known : scope name = some type) :
    SpellsType scope types name.toList [.word name.toList] type := by
  rcases Identifier.isValid_iff.mp valid with ⟨shape, unreserved⟩
  refine word shape (lookup_truths unreserved) ?_
  rw [named?, if_neg (by simp [unreserved]), known]

theorem predeclared {entry : String × TypeDescriptor} (member : entry ∈ predeclared) :
    SpellsType scope types entry.1.toList [.word entry.1.toList] entry.2 := by
  have all : ∀ entry ∈ Text.predeclared, Identifier.hasIdentifierShape entry.1.toList = true ∧
      truths.lookup entry.1 = none ∧ Identifier.isReserved entry.1 = true ∧
        Text.predeclared.lookup entry.1 = some entry.2 := by decide +kernel
  rcases all entry member with ⟨shape, noTruth, reserved, known⟩
  refine word shape noTruth ?_
  rw [named?, if_pos reserved, known]

theorem generated {entry : String × VectorWidth} (member : entry ∈ generators) :
    ∃ tokens, SpellsType scope types (entry.1.toList ++ ['<', 'b', 'o', 'o', 'l', '>']) tokens
      (.vector .bool entry.2) := by
  have all : ∀ entry ∈ generators, Identifier.hasIdentifierShape entry.1.toList = true ∧
      truths.lookup entry.1 = none ∧ Identifier.isReserved entry.1 = true ∧
        Text.predeclared.lookup entry.1 = none ∧ generators.lookup entry.1 = some entry.2 := by
    decide +kernel
  rcases all entry member with ⟨shape, noTruth, reserved, notPlain, known⟩
  have notNamed : named? scope entry.1 = none := by
    rw [named?, if_pos reserved, notPlain]
  have component := (@predeclared scope types ("bool", .bool) (by decide)).reads
  refine ⟨.word entry.1.toList :: .symbol ['<'] :: .word ['b', 'o', 'o', 'l'] :: [.symbol ['>']],
    ⟨_, _, rfl, by rw [String.ofList_toList, noTruth]⟩, ?_, ?_, ?_, by simp⟩
  · rcases exists_startChar shape with ⟨first, rest, same, begins⟩
    exact ⟨first, _, by rw [same, List.cons_append], begins⟩
  · intro rest others ends follows
    have inner := Lexes.less (by decide) (@Lexes.word _ _ ['b', 'o', 'o', 'l'] (by decide)
      (stops_cons (by decide) _) (Lexes.greater ends follows))
    simpa using Lexes.word shape (stops_cons (by decide) _) inner
  · intro rest
    have inner : type? scope (.word ['b', 'o', 'o', 'l'] :: .symbol ['>'] :: rest) =
        some (.bool, .symbol ['>'] :: rest) := component _
    simp only [List.cons_append, List.nil_append]
    rw [type?]
    simp [notNamed, known, inner]

def arrayTokens (tokens : List Token) (count : Nat) : List Token :=
  .word "array".toList :: .symbol ['<'] :: (tokens ++ [.symbol [','],
    .number (Nat.toDigits 10 count), .symbol ['>']])

theorem named?_array : named? scope "array" = none := by
  rw [named?, if_pos (by decide +kernel)]
  rfl

section

variable {text : List Char} {tokens : List Token} {element : TypeDescriptor}

theorem lexes_array (spelled : SpellsType scope types text tokens element) (count : Nat)
    {rest : List Char} {others : List Token} (ends : Delimited rest) (follows : Lexes rest others) :
    Lexes ("array<".toList ++ text ++ ", ".toList ++ Nat.toDigits 10 count ++ ['>'] ++ rest)
      (arrayTokens tokens count ++ others) := by
  have numeric := @numericLiteral_toDigits count [] (by decide)
  rw [List.append_nil] at numeric
  have number := Lexes.number numeric (stops_cons (by decide) _) (Lexes.greater ends follows)
  have inner := spelled.lexes (by simp [Delimited])
    (@Lexes.delimiter _ _ ',' (by decide) number.blank)
  rcases spelled.letter with ⟨first, more, rfl, begins⟩
  have lexes := @Lexes.word _ _ "array".toList (by decide) (stops_cons (by decide) _)
    (Lexes.less begins inner)
  simpa [arrayTokens] using lexes

theorem type?_array (spelled : SpellsType scope types text tokens element) (count : Nat)
    (rest : List Token) :
    type? scope (arrayTokens tokens count ++ rest) =
      if 0 < count then some (.array element (.fixed count), rest) else none := by
  have inner := spelled.reads
    (.symbol [','] :: .number (Nat.toDigits 10 count) :: .symbol ['>'] :: rest)
  simp only [arrayTokens, List.cons_append, List.nil_append, List.append_assoc]
  rw [type?]
  simp only [String.ofList_toList, named?_array, inner, if_true]
  by_cases positive : 0 < count
  · simp [count?_toDigits, positive]
  · simp [count?_toDigits, positive]

theorem array {count : Nat} (spelled : SpellsType scope types text tokens element)
    (positive : 0 < count) (counted : .array element (.fixed count) ∈ types) :
    ∃ tokens, SpellsType scope types
      ("array<".toList ++ text ++ ", ".toList ++ Nat.toDigits 10 count ++ ['>']) tokens
      (.array element (.fixed count)) := by
  refine ⟨arrayTokens tokens count, ⟨_, _, rfl, rfl⟩, ⟨'a', _, rfl, by decide⟩,
    spelled.lexes_array count, ?_, ?_⟩
  · intro rest
    rw [spelled.type?_array, if_pos positive]
  · intro literal member
    simp only [arrayTokens, List.mem_cons, List.mem_append, reduceCtorEq, false_or, or_false,
      List.not_mem_nil, Token.number.injEq] at member
    rcases member with member | rfl
    · exact spelled.inRange literal member
    · exact .count counted

/-- An array without elements is no type, so no text that constructs one denotes anything. -/
theorem not_denotes_array (spelled : SpellsType scope types text tokens element)
    {whole : String} {rest : List Char} {others : List Token} (ends : Delimited rest)
    (follows : Lexes rest others)
    (begins : whole.toList =
      "array<".toList ++ text ++ ", ".toList ++ Nat.toDigits 10 0 ++ ['>'] ++ rest)
    (constant : Constant) : ¬ Denotes scope whole constant := by
  have noType := spelled.type?_array 0 others
  rw [if_neg (Nat.lt_irrefl 0)] at noType
  have nothing : ∀ fuel, operand? scope fuel (arrayTokens tokens 0 ++ others) = none := by
    intro fuel
    have noTruth : truths.lookup "array" = none := rfl
    cases fuel with
    | zero => rfl
    | succ fuel =>
        simp only [arrayTokens, List.cons_append] at noType ⊢
        rw [operand?]
        simp only [String.ofList_toList, noTruth, noType]
        rfl
  rintro ⟨found, lexes, reads⟩
  rw [begins] at lexes
  rw [lexes.unique (spelled.lexes_array 0 ends follows), constant?, expression?, nothing] at reads
  cases reads

end

end SpellsType

/-! ## Calls -/

structure SpellsArguments (scope : Scope) (types : List TypeDescriptor) (texts : List String)
    (tokens : List Token) (constants : List Constant) : Prop where
  lexes : ∀ {rest others}, Lexes (')' :: rest) others →
    Lexes ((", ".intercalate texts).toList ++ ')' :: rest) (tokens ++ others)
  reads : ∀ {fuel rest}, 2 * tokens.length + 3 ≤ fuel →
    arguments? scope fuel (tokens ++ .symbol [')'] :: rest) = some (constants, rest)
  inRange : ∀ literal, .number literal ∈ tokens → InRange types literal

def Spelled (scope : Scope) (types : List TypeDescriptor) (text : String)
    (constant : Constant) : Prop :=
  ∃ tokens, Spells scope types text.toList tokens constant

namespace SpellsArguments

theorem none : SpellsArguments scope types [] [] [] where
  lexes := fun follows => follows
  reads := by
    intro fuel rest enough
    rcases Nat.exists_eq_add_of_le' (Nat.le_trans (by simp) enough : 1 ≤ fuel) with ⟨fuel, rfl⟩
    rfl
  inRange := by simp

variable {text : String} {tokens : List Token} {constant : Constant}

theorem one (first : Spells scope types text.toList tokens constant) :
    SpellsArguments scope types [text] tokens [constant] where
  lexes := by
    intro rest others follows
    rw [String.toList_intercalate, List.map_singleton, List.intercalate_singleton]
    exact first.lexes (by simp [Delimited]) follows
  reads := by
    intro fuel rest enough
    rcases Nat.exists_eq_add_of_le' (Nat.le_trans (by simp) enough : 3 ≤ fuel) with ⟨fuel, rfl⟩
    have operand := @first.reads (fuel + 1) (.symbol [')'] :: rest) (by omega)
    rw [arguments?, behind?_of_operand operand]
    simp [expression?_of_operand operand rfl, behind?]
  inRange := first.inRange

theorem cons {next : String} {texts : List String} {moreTokens : List Token}
    {constants : List Constant} (first : Spells scope types text.toList tokens constant)
    (others : SpellsArguments scope types (next :: texts) moreTokens constants) :
    SpellsArguments scope types (text :: next :: texts) (tokens ++ .symbol [','] :: moreTokens)
      (constant :: constants) where
  lexes := by
    intro rest behind follows
    have inner := first.lexes (by simp [Delimited])
      (@Lexes.delimiter _ _ ',' (by decide) (others.lexes follows).blank)
    simpa [String.toList_intercalate, List.intercalate_cons_cons] using inner
  reads := by
    intro fuel rest enough
    simp only [List.length_append, List.length_cons] at enough
    rcases Nat.exists_eq_add_of_le' (Nat.le_trans (by omega) enough : 3 ≤ fuel) with ⟨fuel, rfl⟩
    have operand := @first.reads (fuel + 1)
      (.symbol [','] :: (moreTokens ++ .symbol [')'] :: rest)) (by omega)
    have more := @others.reads (fuel + 2) rest (by omega)
    rw [List.append_assoc, List.cons_append, arguments?, behind?_of_operand operand]
    simp [expression?_of_operand operand rfl, behind?, more]
  inRange := by
    intro literal member
    rw [List.mem_append, List.mem_cons] at member
    rcases member with member | impossible | member
    · exact first.inRange literal member
    · cases impossible
    · exact others.inRange literal member

end SpellsArguments

theorem spellsArguments {texts : List String} {constants : List Constant}
    (spelled : List.Forall₂ (Spelled scope types) texts constants) :
    ∃ tokens, SpellsArguments scope types texts tokens constants := by
  induction spelled with
  | nil => exact ⟨_, .none⟩
  | @cons text constant texts constants first rest induction =>
      rcases first with ⟨tokens, first⟩
      cases rest with
      | nil => exact ⟨_, .one first⟩
      | cons =>
          rcases induction with ⟨others, induction⟩
          exact ⟨_, .cons first induction⟩

theorem spelled_call {name : String} {tokens : List Token} {type : TypeDescriptor}
    {texts : List String} {constants : List Constant} {constant : Constant}
    (spelledType : SpellsType scope types name.toList tokens type)
    (spelled : List.Forall₂ (Spelled scope types) texts constants)
    (made : Constant.made? type constants = some constant) :
    Spelled scope types (name ++ "(" ++ ", ".intercalate texts ++ ")") constant := by
  rcases spellsArguments spelled with ⟨inner, arguments⟩
  refine ⟨tokens ++ .symbol ['('] :: (inner ++ [.symbol [')']]), ?_, ?_, ?_⟩
  · intro rest others ends follows
    have lexes := arguments.lexes (@Lexes.delimiter _ _ ')' (by decide) follows)
    have call := spelledType.lexes (by simp [Delimited])
      (@Lexes.delimiter _ _ '(' (by decide) lexes)
    simpa using call
  · intro fuel rest enough
    rcases spelledType.begins with ⟨word, more, rfl, noTruth⟩
    simp only [List.length_append, List.length_cons, List.length_nil] at enough
    rcases Nat.exists_eq_add_of_le' (Nat.le_trans (by omega) enough : 1 ≤ fuel) with ⟨fuel, rfl⟩
    have named := spelledType.reads (.symbol ['('] :: (inner ++ .symbol [')'] :: rest))
    have read := @arguments.reads fuel rest (by omega)
    simp only [List.cons_append, List.append_assoc, List.nil_append] at named ⊢
    rw [operand?, noTruth]
    simp [named, behind?, read, made]
  · intro literal member
    simp only [List.mem_append, List.mem_cons, reduceCtorEq, false_or, or_false,
      List.not_mem_nil] at member
    rcases member with member | member
    · exact spelledType.inRange literal member
    · exact arguments.inRange literal member

end

end ShaderKit.Text
