import ShaderKit.Descriptor

/-!
# Operators and their types
-/

namespace ShaderKit

inductive UnaryOperator where
  | neg
  | not
  | bitNot
deriving DecidableEq, Repr

inductive BinaryOperator where
  | add
  | sub
  | mul
  | div
  | rem
  | equal
  | notEqual
  | less
  | lessEqual
  | greater
  | greaterEqual
  | logicalAnd
  | logicalOr
  | bitAnd
  | bitOr
  | bitXor
  | shiftLeft
  | shiftRight
deriving DecidableEq, Repr

namespace UnaryOperator

def all : List UnaryOperator := [.neg, .not, .bitNot]

def token : UnaryOperator → String
  | .neg => "-"
  | .not => "!"
  | .bitNot => "~"

def ofToken? (text : String) : Option UnaryOperator :=
  all.find? fun operator => operator.token == text

@[simp] theorem ofToken?_token (operator : UnaryOperator) :
    ofToken? operator.token = some operator := by
  cases operator <;> decide

def accepts : UnaryOperator → ScalarKind → Bool
  | .neg, kind => kind.isSigned
  | .not, kind => kind == .bool
  | .bitNot, kind => kind.isInteger

def resultType (operator : UnaryOperator) (operand : TypeDescriptor) :
    Option TypeDescriptor :=
  if operand.isValueOf operator.accepts then some operand else none

end UnaryOperator

def TypeDescriptor.comparison? : TypeDescriptor → Option TypeDescriptor
  | .scalar _ => some .bool
  | .vector _ width => some (.vector .bool width)
  | _ => none

/-- Arithmetic on two operands of one numeric type, or on a vector and a scalar of its
component kind. -/
def numericBroadcast (left right : TypeDescriptor) : Option TypeDescriptor :=
  match left, right with
  | .scalar leftKind, .scalar rightKind =>
      if leftKind = rightKind ∧ leftKind.isNumeric then some left else none
  | .vector leftKind leftWidth, .vector rightKind rightWidth =>
      if leftKind = rightKind ∧ leftWidth = rightWidth ∧ leftKind.isNumeric then some left
      else none
  | .vector kind _, .scalar scalarKind =>
      if kind = scalarKind ∧ scalarKind.isNumeric then some left else none
  | .scalar scalarKind, .vector kind _ =>
      if kind = scalarKind ∧ scalarKind.isNumeric then some right else none
  | _, _ => none

def additiveType (left right : TypeDescriptor) : Option TypeDescriptor :=
  if left.isMatrix && right.isMatrix then if left = right then some left else none
  else numericBroadcast left right

def quotientType (left right : TypeDescriptor) : Option TypeDescriptor :=
  if left.isMatrix && right.isMatrix then none else numericBroadcast left right

def productType (left right : TypeDescriptor) : Option TypeDescriptor :=
  match left, right with
  | .matrix kind columns rows, .matrix rightKind rightColumns rightRows =>
      if kind = rightKind ∧ columns = rightRows then
        some (.matrix kind rightColumns rows)
      else none
  | .matrix kind columns rows, .vector vectorKind width =>
      if kind = vectorKind ∧ columns = width then some (.vector kind rows) else none
  | .vector vectorKind width, .matrix kind columns rows =>
      if kind = vectorKind ∧ rows = width then some (.vector kind columns) else none
  | .matrix kind _ _, .scalar scalarKind => if kind = scalarKind then some left else none
  | .scalar scalarKind, .matrix kind _ _ => if kind = scalarKind then some right else none
  | _, _ => numericBroadcast left right

def equalityType (left right : TypeDescriptor) : Option TypeDescriptor :=
  if left = right then left.comparison? else none

def orderType (left right : TypeDescriptor) : Option TypeDescriptor :=
  if left = right ∧ left.scalarKind?.any ScalarKind.isNumeric then left.comparison?
  else none

/-- Bitwise operators work on integers, and, where `onBool` holds, on truth values. -/
def bitwiseType (onBool : Bool) (left right : TypeDescriptor) : Option TypeDescriptor :=
  if left = right ∧
      left.isValueOf (fun kind => kind.isInteger || (onBool && kind == .bool)) then
    some left
  else none

def shiftType (left right : TypeDescriptor) : Option TypeDescriptor :=
  match left, right with
  | .scalar kind, .scalar .u32 => if kind.isInteger then some left else none
  | .vector kind width, .vector .u32 amounts =>
      if kind.isInteger ∧ width = amounts then some left else none
  | _, _ => none

namespace BinaryOperator

def all : List BinaryOperator :=
  [.add, .sub, .mul, .div, .rem, .equal, .notEqual, .less, .lessEqual, .greater,
    .greaterEqual, .logicalAnd, .logicalOr, .bitAnd, .bitOr, .bitXor, .shiftLeft,
    .shiftRight]

def token : BinaryOperator → String
  | .add => "+"
  | .sub => "-"
  | .mul => "*"
  | .div => "/"
  | .rem => "%"
  | .equal => "=="
  | .notEqual => "!="
  | .less => "<"
  | .lessEqual => "<="
  | .greater => ">"
  | .greaterEqual => ">="
  | .logicalAnd => "&&"
  | .logicalOr => "||"
  | .bitAnd => "&"
  | .bitOr => "|"
  | .bitXor => "^"
  | .shiftLeft => "<<"
  | .shiftRight => ">>"

def ofToken? (text : String) : Option BinaryOperator :=
  all.find? fun operator => operator.token == text

@[simp] theorem ofToken?_token (operator : BinaryOperator) :
    ofToken? operator.token = some operator := by
  cases operator <;> decide

/-- The type of the operator's result, if it accepts operands of the given types. -/
def resultType (operator : BinaryOperator) (left right : TypeDescriptor) :
    Option TypeDescriptor :=
  match operator with
  | .add | .sub => additiveType left right
  | .div | .rem => quotientType left right
  | .mul => productType left right
  | .equal | .notEqual => equalityType left right
  | .less | .lessEqual | .greater | .greaterEqual => orderType left right
  | .logicalAnd | .logicalOr =>
      if left = .bool ∧ right = .bool then some .bool else none
  | .bitAnd | .bitOr => bitwiseType true left right
  | .bitXor => bitwiseType false left right
  | .shiftLeft | .shiftRight => shiftType left right

end BinaryOperator

end ShaderKit
