import Parley.Invocation

/-! What the next interpreter is started with. -/
namespace Parley

structure Config where
  invocation : Invocation := ⟨"tsun".toList, []⟩
  ansiColor : Bool := true
  bufferName : Text := "*Typescript*".toList
  deriving DecidableEq, Repr

namespace Config

/-- The configuration with the invocation of a line; none if the line is blank. -/
def withLine (c : Config) (line : Text) : Option Config :=
  (Invocation.read? line).map fun invocation => { c with invocation }

@[simp] theorem withLine_nil (c : Config) : c.withLine [] = none := rfl

end Config
end Parley
