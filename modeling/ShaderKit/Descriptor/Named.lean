import ShaderKit.Descriptor

/-!
# Names of simple types

Scalars, vectors, matrices and integer atomics have short names in capital letters, such as
`VEC3F` and `MAT4X4H`. The last letter stands for the component kind.
-/

namespace ShaderKit

def ScalarKind.ofLetter? : Char → Option ScalarKind
  | 'B' => some .bool
  | 'H' => some .f16
  | 'F' => some .f32
  | 'I' => some .i32
  | 'U' => some .u32
  | _ => none

def VectorWidth.ofDigit? : Char → Option VectorWidth
  | '2' => some .two
  | '3' => some .three
  | '4' => some .four
  | _ => none

namespace TypeDescriptor

def ofLetters? : List Char → Option TypeDescriptor
  | ['V', 'E', 'C', width, kind] => do
      some (.vector (← ScalarKind.ofLetter? kind) (← VectorWidth.ofDigit? width))
  | ['M', 'A', 'T', columns, 'X', rows, kind] => do
      let kind ← ScalarKind.ofLetter? kind
      if kind.isFloat then
        some (.matrix kind (← VectorWidth.ofDigit? columns) (← VectorWidth.ofDigit? rows))
      else none
  | _ => none

def ofName? (name : String) : Option TypeDescriptor :=
  match name with
  | "BOOL" => some .bool
  | "F16" => some .f16
  | "F32" => some .f32
  | "I32" => some .i32
  | "U32" => some .u32
  | "ATOMIC_I32" => some (.atomic .i32)
  | "ATOMIC_U32" => some (.atomic .u32)
  | other => ofLetters? other.toList

example : ofLetters? ['M', 'A', 'T', '2', 'X', '4', 'H'] =
    some (.matrix .f16 .two .four) := by decide

end TypeDescriptor

end ShaderKit
