import Parley.Interpreter.Process

/-! The interpreters launched so far. A process is known by its place in the order of successful
launches. The pool records every launch attempt and every write that a process took. -/
namespace Parley.Interpreter

/-- What becomes of each launch attempt, by its number. -/
abbrev Launcher := Nat → Request → Except LaunchFailure Behaviour

structure Pool where
  launcher : Launcher
  requests : List Request := []
  processes : List Process := []
  writes : List (Nat × Bytes) := []

namespace Pool

def process? (pool : Pool) (n : Nat) : Option Process := pool.processes[n]?

def isAlive (pool : Pool) (n : Nat) : Bool := (pool.process? n).any Process.isAlive

def exitCode (pool : Pool) (n : Nat) : Option Nat := (pool.process? n).bind Process.exitCode

def transcript (pool : Pool) (n : Nat) : Transcript :=
  ((pool.process? n).map Process.transcript).getD {}

def update (pool : Pool) (n : Nat) (f : Process → Process) : Pool :=
  { pool with processes := pool.processes.modify n f }

def play (pool : Pool) (n : Nat) (events : List Event) : Pool :=
  pool.update n (·.playAll events)

/-- One launch attempt; on success the number of the new process and what it prints at first. -/
def launch (pool : Pool) (request : Request) (mode : Terminal.Display) :
    Except LaunchFailure (Nat × List Event) × Pool :=
  let recorded := { pool with requests := pool.requests ++ [request] }
  match pool.launcher pool.requests.length request with
  | .error e => (.error e, recorded)
  | .ok b =>
    (.ok (pool.processes.length, b.opening.getD []),
      { recorded with
        processes := pool.processes ++ [.ofBehaviour request.invocation.program mode b] })

/-- One write; it is recorded before the process reacts to it, and not at all if it fails. -/
def write (pool : Pool) (n : Nat) (data : Bytes) : Except Text Unit × Pool :=
  match pool.process? n with
  | none => (.ok (), pool)
  | some p =>
    let written := pool.update n fun _ => p.write.1
    match p.write.2 with
    | some reason => (.error reason, written)
    | none => (.ok (), { written with writes := pool.writes ++ [(n, data)] })

def annotate (pool : Pool) (n : Nat) (spans : Spans) : Pool :=
  pool.update n (·.annotate spans)

def release (pool : Pool) (n : Nat) : Pool := pool.update n Process.release

end Pool
end Parley.Interpreter
