import Parley.Path
import Parley.Session.Desk

/-! Excerpts are what can be sent to a session: some text, a region of the current buffer, the
expression before the cursor, the whole buffer, or the statement that imports a file. An excerpt is
found before anything else happens; its trailing blanks give way to one newline; and the session is
started if need be. -/
namespace Parley

inductive Excerpt where
  | text (t : Text)
  | region (a b : Nat)
  | expression
  | buffer
  | file (path : Bytes)
  deriving DecidableEq, Repr

def importStatement (path : Bytes) : Except Failure Text :=
  match (Path.fileStem? path).bind Utf8.decode? with
  | none => .error (.invalidFileName path)
  | some base =>
    .ok ("import * as ".toList ++ base ++ " from \x22".toList ++ base ++ "\x22\n".toList)

def importFrom (directory path : Bytes) : Except Failure Text :=
  match Path.absolute? directory path with
  | none => .error (.unresolved path "cannot make an empty path absolute".toList)
  | some path => importStatement path

def inputLine (text : Text) : Text := text.trimEnd ++ ['\n']

namespace Desk

/-- From the start of the line where the expression before the cursor begins, to the cursor. -/
def expressionSpan (d : Desk) : Except Failure (Nat × Nat) :=
  let point := d.editor.point
  match d.editor.backwardExpression d.outputs point with
  | none => .error .noExpression
  | some start => .ok (d.editor.lineStart d.outputs start, point)

def excerpt (d : Desk) : Excerpt → Except Failure Text
  | .text t => .ok t
  | .region a b => .ok (d.editor.regionText d.outputs a b)
  | .expression =>
    d.expressionSpan.map fun (a, b) => d.editor.regionText d.outputs a b
  | .buffer => .ok (d.editor.regionText d.outputs 0 (d.editor.endPosition d.outputs))
  | .file path => importFrom d.directory path

def sendText (d : Desk) (text : Text) : Outcome Unit :=
  match d.ensure none true with
  | (.error f, d) => (.error f, d)
  | (.ok handle, d) => d.writeInput handle (Utf8.encode (inputLine text))

/-- Sends an excerpt; with `focus` the session is switched to afterwards. -/
def send (d : Desk) (e : Excerpt) (focus : Bool) : Outcome Unit :=
  match d.excerpt e with
  | .error f => (.error f, d)
  | .ok text =>
    match d.sendText text with
    | (.error f, d) => (.error f, d)
    | (.ok (), d) => if focus then d.switch true else (.ok (), d)

end Desk
end Parley
