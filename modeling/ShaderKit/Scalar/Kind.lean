/-!
# Scalar kinds and component counts
-/

namespace ShaderKit

inductive ScalarKind where
  | bool
  | f16
  | f32
  | i32
  | u32
deriving DecidableEq, Repr

namespace ScalarKind

def all : List ScalarKind := [.bool, .f16, .f32, .i32, .u32]

def name : ScalarKind → String
  | .bool => "bool"
  | .f16 => "f16"
  | .f32 => "f32"
  | .i32 => "i32"
  | .u32 => "u32"

def ofName? (text : String) : Option ScalarKind :=
  all.find? fun kind => kind.name == text

@[simp] theorem ofName?_name (kind : ScalarKind) : ofName? kind.name = some kind := by
  cases kind <;> decide

def isFloat : ScalarKind → Bool
  | .f16 | .f32 => true
  | _ => false

def isInteger : ScalarKind → Bool
  | .i32 | .u32 => true
  | _ => false

def isNumeric : ScalarKind → Bool
  | .bool => false
  | _ => true

def isSigned : ScalarKind → Bool
  | .f16 | .f32 | .i32 => true
  | _ => false

def aliasSuffix : ScalarKind → Option Char
  | .bool => none
  | .f16 => some 'h'
  | .f32 => some 'f'
  | .i32 => some 'i'
  | .u32 => some 'u'

/-- Bytes that one value takes in memory. A `bool` is stored as a word. -/
def size : ScalarKind → Nat
  | .f16 => 2
  | _ => 4

end ScalarKind

/-- The number of components of a vector, or of columns or rows of a matrix. -/
inductive VectorWidth where
  | two
  | three
  | four
deriving DecidableEq, Repr

namespace VectorWidth

def count : VectorWidth → Nat
  | .two => 2
  | .three => 3
  | .four => 4

def ofCount? : Nat → Option VectorWidth
  | 2 => some .two
  | 3 => some .three
  | 4 => some .four
  | _ => none

@[simp] theorem ofCount?_count (width : VectorWidth) : ofCount? width.count = some width := by
  cases width <;> rfl

end VectorWidth

end ShaderKit
