import Parley.Failure
import Parley.Interpreter.Pump
import Parley.Invocation

/-! An interpreter process seen from outside. It is launched on request, prints when it likes,
answers what is written to it, and exits; its output may go on after that. `Behaviour` says what a
process will do on each occasion; the rest is the state that a session can observe: whether the
process has exited, and the transcript that its pump fills. -/
namespace Parley.Interpreter

structure Request where
  invocation : Invocation
  environment : List (Text × Text)
  buffer : Text
  deriving DecidableEq, Repr

inductive LaunchFailure where
  | spawn (reason : Text)
  | io (reason : Text)
  deriving DecidableEq, Repr

def LaunchFailure.failure : LaunchFailure → Failure
  | spawn reason => .spawn reason
  | io reason => .io reason

inductive Event where
  | data (bytes : Bytes)
  | endOfOutput
  | readError (reason : Text)
  | exit (code : Nat)
  deriving DecidableEq, Repr

inductive Reaction where
  | refuse (reason : Text)
  | respond (events : List Event)
  deriving DecidableEq, Repr

/-- Without an opening the output cannot be read. There is a reaction to each of the first writes,
and none to the others. What is late ends the read that is under way when the session lets go; if
nothing is, that read is left to the events that come later. -/
structure Behaviour where
  exitCode : Option Nat := none
  opening : Option (List Event) := none
  reactions : List Reaction := []
  late : Option Reading := none
  deriving DecidableEq, Repr

structure Process where
  pump : Pump
  exitCode : Option Nat := none
  reactions : List Reaction := []
  late : Option Reading := none
  deriving DecidableEq, Repr

namespace Process

def ofBehaviour (program : Text) (mode : Terminal.Display) (b : Behaviour) : Process where
  pump :=
    { program, filter := .ofMode mode, status := if b.opening.isSome then .running else .done }
  exitCode := b.exitCode
  reactions := b.reactions
  late := b.late

def isAlive (p : Process) : Bool := p.exitCode.isNone

def transcript (p : Process) : Transcript := p.pump.transcript

def read (p : Process) (readings : List Reading) : Process :=
  { p with pump := readings.foldl Pump.read p.pump }

/-- An exit is not the end of the output: what the process printed may still be on its way. -/
def play (p : Process) : Event → Process
  | .data bytes => p.read ((readsOf bytes).map .data)
  | .endOfOutput => p.read [.ended]
  | .readError reason => p.read [.failed reason]
  | .exit code => { p with exitCode := some code }

def playAll (p : Process) (events : List Event) : Process := events.foldl play p

def write (p : Process) : Process × Option Text :=
  match p.reactions with
  | [] => (p, none)
  | .refuse reason :: rest => ({ p with reactions := rest }, some reason)
  | .respond events :: rest => ({ p with reactions := rest }.playAll events, none)

def signal (p : Process) : Process := { p with pump := p.pump.signal }

def release (p : Process) : Process := p.signal.read p.late.toList

def annotate (p : Process) (spans : Spans) : Process :=
  { p with pump := { p.pump with transcript := p.transcript.append spans } }

@[simp] theorem playAll_nil (p : Process) : p.playAll [] = p := rfl
@[simp] theorem playAll_cons (p : Process) (e : Event) (events : List Event) :
    p.playAll (e :: events) = (p.play e).playAll events := rfl
@[simp] theorem read_nil (p : Process) : p.read [] = p := rfl
@[simp] theorem read_cons (p : Process) (r : Reading) (readings : List Reading) :
    p.read (r :: readings) = (p.read [r]).read readings := rfl

end Process
end Parley.Interpreter
