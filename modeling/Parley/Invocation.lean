import Parley.Text.Blank

/-! An invocation is a program with its arguments. It is read from a line at blanks and written as
one line with single spaces. -/
namespace Parley

structure Invocation where
  program : Text
  args : List Text := []
  deriving DecidableEq, Repr

namespace Invocation

/-- The invocation of a line; a blank line gives none. -/
def read? (line : Text) : Option Invocation :=
  match line.words with
  | [] => none
  | program :: args => some ⟨program, args⟩

def line (i : Invocation) : Text := joinWith [' '] (i.program :: i.args)

@[simp] theorem read?_nil : read? [] = none := rfl
@[simp] theorem line_of_no_args (program : Text) : line ⟨program, []⟩ = program := rfl

end Invocation
end Parley
