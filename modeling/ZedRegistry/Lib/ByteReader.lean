import Mathlib.Algebra.Order.Ring.Int
import Mathlib.Data.List.Basic

/-!
# Reading from the front of a byte sequence

A reader takes what it reads off the front and returns it with the rest.
-/

set_option autoImplicit false

namespace ByteReader

def readBytes (size : Nat) (bytes : List UInt8) : Option (List UInt8 × List UInt8) :=
  if size ≤ bytes.length then some (bytes.take size, bytes.drop size) else none

theorem readBytes_append (front rest : List UInt8) :
    readBytes front.length (front ++ rest) = some (front, rest) := by
  simp [readBytes]

theorem readBytes_some {size : Nat} {bytes front rest : List UInt8}
    (read : readBytes size bytes = some (front, rest)) : bytes = front ++ rest := by
  unfold readBytes at read
  split at read
  · simp only [Option.some.injEq, Prod.mk.injEq] at read
    rw [← read.1, ← read.2, List.take_append_drop]
  · contradiction

section Many

variable {α : Type} (read : List UInt8 → Option (α × List UInt8))

def readMany : Nat → List UInt8 → Option (List α × List UInt8)
  | 0, bytes => some ([], bytes)
  | count + 1, bytes => do
    let (first, bytes) ← read bytes
    let (others, bytes) ← readMany count bytes
    pure (first :: others, bytes)

def readPair (bytes : List UInt8) : Option ((α × α) × List UInt8) := do
  let (key, bytes) ← read bytes
  let (value, bytes) ← read bytes
  pure ((key, value), bytes)

end Many

end ByteReader
