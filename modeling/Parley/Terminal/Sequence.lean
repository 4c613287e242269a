import Parley.Text.Basic

/-! What a control sequence has collected so far. Parameters are 16-bit numbers that stop at their
greatest value; a colon separates the subparameters of one parameter, a semicolon ends it. At most
32 numbers and two marks are kept, and what exceeds that makes the sequence overflow. -/
namespace Parley.Terminal

/-- One parameter with its subparameters. -/
abbrev Parameter := List Nat

/-- The parameters that were ended, what colons ended of the one being read, and the number being
read. -/
structure Sequence where
  params : List Parameter := []
  subs : Parameter := []
  value : Nat := 0
  marks : Bytes := []
  overflow : Bool := false
  deriving DecidableEq, Repr

namespace Sequence

def maxNumbers : Nat := 32
def maxMarks : Nat := 2
def maxValue : Nat := 65535

def count (s : Sequence) : Nat := s.params.flatten.length + s.subs.length

def isFull (s : Sequence) : Bool := maxNumbers ≤ s.count

def digit (s : Sequence) (d : Nat) : Sequence :=
  if s.isFull then { s with overflow := true }
  else { s with value := min maxValue (s.value * 10 + d) }

/-- The number being read ends its parameter. -/
def close (s : Sequence) : Sequence :=
  if s.isFull then { s with overflow := true }
  else { s with params := s.params ++ [s.subs ++ [s.value]], subs := [] }

def separate (s : Sequence) : Sequence :=
  if s.isFull then s.close else { s.close with value := 0 }

def subdivide (s : Sequence) : Sequence :=
  if s.isFull then { s with overflow := true }
  else { s with subs := s.subs ++ [s.value], value := 0 }

def mark (s : Sequence) (b : UInt8) : Sequence :=
  if s.marks.length < maxMarks then { s with marks := s.marks ++ [b] }
  else { s with overflow := true }

@[simp] theorem count_empty : ({} : Sequence).count = 0 := rfl

end Sequence
end Parley.Terminal
