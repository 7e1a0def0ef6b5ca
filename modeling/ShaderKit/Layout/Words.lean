import ShaderKit.Layout

/-!
# Layouts in machine words

The computation of a layout in unsigned words of sixty-four bits. Numbers are rounded up by
adding a mask of low bits and clearing them. Sums and products of offsets, sizes and counts are
checked and reported. The remaining operations are not checked: where one of them would leave
the words, the computation has gone wrong and gives no layout at all.
-/

namespace ShaderKit

/-- Why a computation on words stops: it reports an error, or an operation that nothing checks
wraps around. -/
inductive WordFailure where
  | reported (error : LayoutError)
  | wrapped
deriving DecidableEq, Repr

/-! ## Operations on words -/

namespace Word

def sum? (left right : UInt64) : Option UInt64 :=
  if left.toNat + right.toNat < addressLimit then some (left + right) else none

def product? (left right : UInt64) : Option UInt64 :=
  if left.toNat * right.toNat < addressLimit then some (left * right) else none

def difference? (left right : UInt64) : Option UInt64 :=
  if right ≤ left then some (left - right) else none

def orFail (failure : WordFailure) : Option UInt64 → Except WordFailure UInt64
  | some result => .ok result
  | none => .error failure

def times (left right : UInt64) : Except WordFailure UInt64 :=
  orFail .wrapped (product? left right)

/-- Round up to a multiple of an alignment, a power of two. The failure says what happens where
the sum with the mask leaves the words. -/
def roundUp (failure : WordFailure) (alignment number : UInt64) : Except WordFailure UInt64 := do
  let mask ← orFail .wrapped (difference? alignment 1)
  let sum ← orFail failure (sum? number mask)
  .ok (sum &&& ~~~mask)

end Word

/-! ## Layouts -/

mutual
inductive WordLayout where
  | leaf (size alignment : UInt64)
  | matrix (size alignment columnStride : UInt64)
  | array (size : Option UInt64) (alignment stride : UInt64) (element : WordLayout)
  | struct (size : Option UInt64) (alignment : UInt64) (members : WordMemberLayouts)

inductive WordMemberLayouts where
  | nil
  | cons (name : String) (offset : UInt64) (span : Option UInt64) (layout : WordLayout)
      (rest : WordMemberLayouts)
end

mutual
def WordLayout.toLayout : WordLayout → Layout
  | .leaf size alignment => .leaf size.toNat alignment.toNat
  | .matrix size alignment stride => .matrix size.toNat alignment.toNat stride.toNat
  | .array size alignment stride element =>
      .array (size.map UInt64.toNat) alignment.toNat stride.toNat element.toLayout
  | .struct size alignment members =>
      .struct (size.map UInt64.toNat) alignment.toNat members.toLayouts

def WordMemberLayouts.toLayouts : WordMemberLayouts → MemberLayouts
  | .nil => .nil
  | .cons name offset span layout rest =>
      .cons name offset.toNat (span.map UInt64.toNat) layout.toLayout rest.toLayouts
end

namespace WordLayout

def size : WordLayout → Option UInt64
  | .leaf size _ | .matrix size _ _ => some size
  | .array size _ _ _ | .struct size _ _ => size

def alignment : WordLayout → UInt64
  | .leaf _ alignment | .matrix _ alignment _ | .array _ alignment _ _
  | .struct _ alignment _ => alignment

/-- The distance between consecutive values in an array. Rounding is not checked here. -/
def stride (layout : WordLayout) : Except WordFailure (Option UInt64) :=
  match layout.size with
  | none => .ok none
  | some size => (Word.roundUp .wrapped layout.alignment size).map some

def ofVector (kind : ScalarKind) (width : VectorWidth) : Except WordFailure WordLayout := do
  let size ← Word.times (.ofNat width.count) (.ofNat kind.size)
  let alignment ← Word.times (.ofNat width.alignFactor) (.ofNat kind.size)
  .ok (.leaf size alignment)

def ofMatrix (kind : ScalarKind) (columns rows : VectorWidth) :
    Except WordFailure WordLayout := do
  let columnSize ← Word.times (.ofNat rows.count) (.ofNat kind.size)
  let alignment ← Word.times (.ofNat rows.alignFactor) (.ofNat kind.size)
  let stride ← Word.roundUp .wrapped alignment columnSize
  let size ← Word.times (.ofNat columns.count) stride
  .ok (.matrix size alignment stride)

end WordLayout

/-! ## Computing a layout -/

namespace Word

def memberAlignment (path : LayoutPath) (natural : UInt64) :
    Option UInt32 → Except WordFailure UInt64
  | none => .ok natural
  | some asked =>
      let align := asked.toUInt64
      if isPowerOfTwo align.toNat && natural ≤ align then .ok align
      else .error (.reported (.invalidAttribute path (.align align.toNat natural.toNat)))

def memberSpan (path : LayoutPath) (natural : Option UInt64) :
    Option UInt32 → Except WordFailure (Option UInt64)
  | none => .ok natural
  | some asked =>
      let size := asked.toUInt64
      match natural with
      | some least =>
          if least ≤ size then .ok (some size)
          else .error (.reported (.invalidAttribute path (.size size.toNat least.toNat)))
      | none => .error (.reported (.invalidAttribute path (.sizeOfRuntime size.toNat)))

end Word

structure WordRun where
  layouts : WordMemberLayouts
  finish : Option UInt64
  alignment : UInt64

mutual
def TypeDescriptor.wordLayoutAt (path : LayoutPath) :
    TypeDescriptor → Except WordFailure WordLayout
  | .scalar kind | .atomic kind => .ok (.leaf (.ofNat kind.size) (.ofNat kind.size))
  | .vector kind width => WordLayout.ofVector kind width
  | .matrix kind columns rows => WordLayout.ofMatrix kind columns rows
  | .array element length => do
      let inner ← element.wordLayoutAt (path ++ [.element])
      match ← inner.stride with
      | none => .error (.reported (.unsizedElement path))
      | some stride =>
          match length with
          | .runtime => .ok (.array none inner.alignment stride inner)
          | .fixed count => do
              let size ← Word.orFail (.reported (.sizeOverflow path))
                (Word.product? (.ofNat count) stride)
              .ok (.array (some size) inner.alignment stride inner)
  | .struct _ members => do
      if members.isEmpty then .error (.reported (.emptyStruct path))
      else
        let run ← members.wordLayoutFrom path 0 1
        match run.finish with
        | none => .ok (.struct none run.alignment run.layouts)
        | some finish => do
            let size ← Word.roundUp (.reported (.sizeOverflow path)) run.alignment finish
            .ok (.struct (some size) run.alignment run.layouts)

/-- The layouts of the members of a structure found at `path`, from the first free offset
on. -/
def MemberList.wordLayoutFrom (path : LayoutPath) (offset alignment : UInt64) :
    MemberList → Except WordFailure WordRun
  | .nil => .ok ⟨.nil, some offset, alignment⟩
  | .cons name type attributes rest => do
      let here := path ++ [.member name]
      let layout ← type.wordLayoutAt here
      if layout.size.isNone && !(rest.isEmpty && type.isRuntimeArray) then
        .error (.reported (.nonFinalRuntimeField here))
      else
        let align ← Word.memberAlignment here layout.alignment attributes.align
        let span ← Word.memberSpan here layout.size attributes.size
        let start ← Word.roundUp (.reported (.sizeOverflow here)) align offset
        match span with
        | none => .ok ⟨.cons name start none layout .nil, none, max alignment align⟩
        | some bytes => do
            let next ← Word.orFail (.reported (.sizeOverflow here)) (Word.sum? start bytes)
            let run ← rest.wordLayoutFrom path next (max alignment align)
            .ok { run with layouts := .cons name start (some bytes) layout run.layouts }
end

def TypeDescriptor.wordLayout (type : TypeDescriptor) : Except WordFailure WordLayout :=
  type.wordLayoutAt []

end ShaderKit
