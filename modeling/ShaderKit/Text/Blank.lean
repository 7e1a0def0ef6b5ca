/-!
# Blank characters

The characters with the Unicode property `White_Space`, and removing them from the ends
of a text.
-/

namespace ShaderKit.Text

def isBlank (char : Char) : Bool :=
  let code := char.toNat
  (0x9 ≤ code && code ≤ 0xd) || code == 0x20 || code == 0x85 || code == 0xa0 ||
    code == 0x1680 || (0x2000 ≤ code && code ≤ 0x200a) || code == 0x2028 ||
    code == 0x2029 || code == 0x202f || code == 0x205f || code == 0x3000

example : ['\t', '\n', '\x0b', '\x0c', '\r', ' '].all isBlank = true := by decide

def trimBlank (text : List Char) : List Char :=
  ((text.dropWhile isBlank).reverse.dropWhile isBlank).reverse

end ShaderKit.Text
