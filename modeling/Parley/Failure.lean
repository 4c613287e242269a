import Parley.Text.Utf8

/-! Why an operation on a session can fail, and how each cause reads. -/
namespace Parley

inductive Failure where
  | noSession
  | spawn (reason : Text)
  | io (reason : Text)
  | noExpression
  | invalidFileName (path : Bytes)
  | unresolved (path : Bytes) (reason : Text)
  deriving DecidableEq, Repr

namespace Failure

def message : Failure → Text
  | noSession => "no interpreter session; start one first".toList
  | spawn reason => "interpreter spawn failed: ".toList ++ reason
  | io reason => "interpreter I/O error: ".toList ++ reason
  | noExpression => "no expression before point".toList
  | invalidFileName path => "cannot derive a module name from ".toList ++ Utf8.lossy path
  | unresolved path reason => "cannot resolve ".toList ++ Utf8.lossy path ++ ": ".toList ++ reason

/-- What lies beneath the failure, if it wraps a cause of its own. -/
def cause : Failure → Option Text
  | io reason => some reason
  | unresolved _ reason => some reason
  | _ => none

def chain (f : Failure) : Text :=
  match f.cause with
  | some reason => f.message ++ ": ".toList ++ reason
  | none => f.message

end Failure
end Parley
