/-!
# Remembered answers

A memo keeps the answers to keys that were asked before. Every answer that is stored gets
a ticket of its own, so that two answers with one ticket are one shared object, and a
ticket is never given out twice, not even after the memo has been cleared.
-/

namespace ShaderKit

structure Handle (α : Type) where
  ticket : Nat
  value : α
deriving DecidableEq, Repr

/-- Answers by key, newest first, and the next free ticket. -/
structure Memo (κ α : Type) where
  entries : List (κ × Handle α) := []
  nextTicket : Nat := 0
deriving DecidableEq, Repr

namespace Memo

variable {κ α ε : Type} [DecidableEq κ]

def find? (memo : Memo κ α) (key : κ) : Option (Handle α) :=
  (memo.entries.find? fun entry => entry.1 = key).map Prod.snd

def insert (memo : Memo κ α) (key : κ) (value : α) : Memo κ α × Handle α :=
  let handle := ⟨memo.nextTicket, value⟩
  (⟨(key, handle) :: memo.entries, memo.nextTicket + 1⟩, handle)

def size (memo : Memo κ α) : Nat :=
  memo.entries.length

def clear (memo : Memo κ α) : Memo κ α :=
  { memo with entries := [] }

/-- Look a key up, and compute and store its answer if it is new. A failure is not
stored. -/
def getOrCompute (memo : Memo κ α) (key : κ) (compute : κ → Except ε α) :
    Memo κ α × Except ε (Handle α) :=
  match memo.find? key with
  | some handle => (memo, .ok handle)
  | none =>
      match compute key with
      | .error error => (memo, .error error)
      | .ok value =>
          let (extended, handle) := memo.insert key value
          (extended, .ok handle)

end Memo

end ShaderKit
