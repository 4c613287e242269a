import Parley.Files
import Parley.Shell.Command

/-! What can go wrong in the shell. Trouble is reported with its causes, each behind a colon. -/
namespace Parley

inductive Trouble where
  | failure (f : Failure)
  | command (e : CommandError)
  | outputClosed
  | unreadable (path : Text) (reason : ReadError)
  | undecodableLine
  | nothingToShow
  deriving DecidableEq, Repr

def Trouble.chain : Trouble → Text
  | failure f => f.chain
  | command e => e.chain
  | outputClosed => "output closed".toList
  | unreadable path reason =>
    "failed to read ".toList ++ path ++ ": ".toList ++ reason.message
  | undecodableLine => "failed to read command: ".toList ++ ReadError.message .notUtf8
  | nothingToShow => "no interpreter session".toList

end Parley
