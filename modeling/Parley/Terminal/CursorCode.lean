import Parley.Text.Basic

/-! A cursor code is ESC, an opening bracket, one or more decimal digits and one of `G`, `K` and
`J`: what a line editor writes to redraw its prompt. `strip` removes every one of them in a single
pass, so that what a removal brings together is left alone. -/
namespace Parley.CursorCode

def escape : Char := '\x1b'

def isFinal (c : Char) : Bool := c = 'G' || c = 'K' || c = 'J'

/-- The length of the cursor code that the text opens with; zero if there is none. -/
def lengthAt : Text → Nat
  | '\x1b' :: '[' :: rest =>
    let digits := rest.takeWhile Char.isDigit
    match digits, rest.drop digits.length with
    | _ :: _, final :: _ => if isFinal final then digits.length + 3 else 0
    | _, _ => 0
  | _ => 0

/-- Walks the text with `skip` characters still to be left out, and keeps the others, latest
first. -/
def walk : Nat → Text → Text → Text
  | _, kept, [] => kept.reverse
  | skip + 1, kept, _ :: rest => walk skip kept rest
  | 0, kept, c :: rest =>
    match lengthAt (c :: rest) with
    | 0 => walk 0 (c :: kept) rest
    | n + 1 => walk n kept rest

def strip (text : Text) : Text := walk 0 [] text

theorem walk_eq (skip : Nat) (kept text : Text) :
    walk skip kept text = kept.reverse ++ walk skip [] text := by
  induction text generalizing skip kept with
  | nil => simp [walk]
  | cons c rest ih =>
    cases skip with
    | succ n => simp only [walk]; exact ih n kept
    | zero =>
      simp only [walk]
      split
      · rw [ih 0 (c :: kept), ih 0 [c]]; simp
      · exact ih _ kept

@[simp] theorem strip_nil : strip [] = [] := rfl

end Parley.CursorCode
