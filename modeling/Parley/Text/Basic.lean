/-! Text is a list of characters; what comes from or goes to an interpreter or a file is a list
of octets. -/
namespace Parley

abbrev Text := List Char
abbrev Bytes := List UInt8

def decimal (n : Nat) : Text := Nat.toDigits 10 n

def joinWith (separator : Text) : List Text → Text
  | [] => []
  | [part] => part
  | part :: next :: rest => part ++ separator ++ joinWith separator (next :: rest)

@[simp] theorem joinWith_nil (s : Text) : joinWith s [] = [] := rfl
@[simp] theorem joinWith_singleton (s part : Text) : joinWith s [part] = part := rfl
@[simp] theorem joinWith_cons_cons (s part next : Text) (rest : List Text) :
    joinWith s (part :: next :: rest) = part ++ s ++ joinWith s (next :: rest) := rfl

end Parley
