/-!
# Hexadecimal text

Numbers and bytes as lower case hexadecimal digits. Readers accept capital letters too.
-/

namespace ShaderKit.Hex

def alphabet : List Char :=
  ['0', '1', '2', '3', '4', '5', '6', '7', '8', '9', 'a', 'b', 'c', 'd', 'e', 'f']

def digits : (count : Nat) → (number : Nat) → List Char
  | 0, _ => []
  | count + 1, number => digits count (number / 16) ++ [alphabet.getD (number % 16) '0']

def write (count number : Nat) : String :=
  String.ofList (digits count number)

def writeBytes (bytes : List UInt8) : String :=
  String.ofList (bytes.flatMap fun byte => digits 2 byte.toNat)

def readFrom? (number : Nat) : List Char → Option Nat
  | [] => some number
  | digit :: rest => do
      let value ← alphabet.idxOf? digit.toLower
      readFrom? (number * 16 + value) rest

def read? (text : String) : Option Nat :=
  readFrom? 0 text.toList

def bytesOf? : List Char → Option (List UInt8)
  | [] => some []
  | high :: low :: rest => do
      let number ← readFrom? 0 [high, low]
      let others ← bytesOf? rest
      some (UInt8.ofNat number :: others)
  | _ => none

def readBytes? (text : String) : Option (List UInt8) :=
  bytesOf? text.toList

example : digits 4 0x3e0 = ['0', '3', 'e', '0'] := by decide
example : bytesOf? ['0', 'A', 'f', 'f'] = some [10, 255] := by decide

end ShaderKit.Hex
