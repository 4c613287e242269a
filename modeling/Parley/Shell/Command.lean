import Parley.Session.Excerpt
import Parley.Text.Numeral
import Parley.Text.Quoted

/-! The commands of the shell, and how a line gives one: a command word, with an exclamation mark
if the session is to be focused afterwards, a blank, and an argument. -/
namespace Parley

inductive Command where
  | run (line : Option Text)
  | send (text : Text) (focus : Bool)
  | openFile (path : Text)
  | goto (pos : Nat)
  | region (a b : Nat) (focus : Bool)
  | last (focus : Bool)
  | buffer (focus : Bool)
  | load (path : Text) (focus : Bool)
  | switch
  | present
  | help
  | quit
  deriving DecidableEq, Repr

inductive CommandError where
  | unknown (word : Text)
  | noFile (word : Text)
  | invalidPosition (argument : Text) (reason : NumeralError)
  | notTwoPositions
  deriving DecidableEq, Repr

def CommandError.message : CommandError → Text
  | unknown word => "unknown command: ".toList ++ word ++ " (try \x60help\x60)".toList
  | noFile word => word ++ ": expected a file name".toList
  | invalidPosition argument _ => "goto: invalid position ".toList ++ Quoted.quote argument
  | notTwoPositions => "region: expected two positions".toList

def CommandError.chain (e : CommandError) : Text :=
  match e with
  | invalidPosition _ reason => e.message ++ ": ".toList ++ reason.message
  | _ => e.message

namespace Command

/-- Whether the interpreter may answer to the command. -/
def writesInput : Command → Bool
  | run _ | send _ _ | region _ _ _ | last _ | buffer _ | load _ _ => true
  | _ => false

def fileArgument (word argument : Text) : Except CommandError Text :=
  if argument = [] then .error (.noFile word) else .ok argument

def regionArgument (argument : Text) : Except CommandError (Nat × Nat) :=
  match argument.words.map readPosition with
  | [.ok a, .ok b] => .ok (a, b)
  | _ => .error .notTwoPositions

/-- The command of a word without its exclamation mark, and of what follows the word. -/
def ofWord (word name : Text) (focus : Bool) (rest : Text) : Except CommandError Command :=
  let argument := rest.trim
  if name = "send".toList then .ok (send rest.trimStart focus)
  else if name = "region".toList then (regionArgument argument).map fun (a, b) => region a b focus
  else if name = "last".toList then .ok (last focus)
  else if name = "buffer".toList then .ok (buffer focus)
  else if name = "load".toList then (fileArgument name argument).map (load · focus)
  else if focus then .error (.unknown word)
  else if name = "run".toList then .ok (run (if argument = [] then none else some argument))
  else if name = "open".toList then (fileArgument name argument).map openFile
  else if name = "goto".toList then
    match readPosition argument with
    | .ok pos => .ok (goto pos)
    | .error reason => .error (.invalidPosition argument reason)
  else if name = "switch".toList then .ok switch
  else if name = "show".toList then .ok present
  else if name = "help".toList then .ok help
  else if name = "quit".toList || name = "exit".toList then .ok quit
  else .error (.unknown word)

/-- A word without the exclamation mark that it may end in, and whether it does. -/
def splitBang (word : Text) : Text × Bool :=
  if word.getLast? = some '!' then (word.dropLast, true) else (word, false)

/-- The command that a line gives; a blank line gives none. -/
def parse (line : Text) : Except CommandError (Option Command) :=
  if line.allBlank then .ok none
  else
    let (word, rest) := line.trimStart.breakAtBlank
    let (name, focus) := splitBang word
    (ofWord word name focus rest).map some

end Command
end Parley
