import Parley.Text.Basic

/-! Readers take a value from the front of a text, or refuse it. A reader that refuses leaves the
text to the next alternative. -/
namespace Parley.Toml

abbrev Reader (α : Type) := StateT Text Option α

namespace Reader

variable {α : Type}

def one (p : Char → Bool) : Reader Char := fun text =>
  match text with
  | [] => none
  | c :: rest => if p c then some (c, rest) else none

def char (c : Char) : Reader Char := one (· = c)

def word : Text → Reader Unit
  | [] => pure ()
  | c :: rest => do
    let _ ← char c
    word rest

def run (p : Char → Bool) : Reader Text := fun text =>
  some (text.takeWhile p, text.dropWhile p)

def atEnd : Reader Unit := fun text => if text = [] then some ((), []) else none

def manyFrom (r : Reader α) (text : Text) : List α × Text :=
  match r text with
  | none => ([], text)
  | some (a, rest) =>
    if rest.length < text.length then
      (a :: (manyFrom r rest).1, (manyFrom r rest).2)
    else ([], text)
termination_by text.length

def many (r : Reader α) : Reader (List α) := fun text => some (manyFrom r text)

/-- Values with a separator between neighbours; none of them is fine too. -/
def separated (r : Reader α) (separator : Reader Unit) : Reader (List α) := do
  match ← optional r with
  | none => return []
  | some a =>
    let more ← many (do separator; r)
    return a :: more

def between (opening closing : Char) (r : Reader α) : Reader α := do
  let _ ← char opening
  let a ← r
  let _ ← char closing
  return a

def exactly (p : Char → Bool) : Nat → Reader Text
  | 0 => pure []
  | n + 1 => do
    let c ← one p
    let rest ← exactly p n
    return c :: rest

def satisfying (r : Reader α) (p : α → Bool) : Reader α := do
  let a ← r
  if p a then return a else failure

end Reader
end Parley.Toml
