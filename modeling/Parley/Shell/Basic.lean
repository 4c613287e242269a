import Parley.Shell.Printed
import Parley.Shell.Trouble

/-! The shell carries out commands at a desk and echoes what the recorded session prints. It knows
how much of which session it has echoed; another session is echoed from its beginning. After a
command that the interpreter may answer to, the shell settles: it goes on echoing until the output
has been quiet for a while, the interpreter exits, or a limit is reached. -/
namespace Parley

/-- Something that happens to a process while the shell waits; to the newest if none is named. -/
structure Happening where
  process : Option Nat := none
  events : List Interpreter.Event
  deriving DecidableEq, Repr

def Desk.happen (d : Desk) (h : Happening) : Desk :=
  { d with pool := d.pool.play (h.process.getD (d.pool.processes.length - 1)) h.events }

/-- How long the shell waits, counted in pauses between two looks at the output: at most, after a
write and at the end of the input; for silence, after which the output is complete; and for the last
output of an interpreter that exited. -/
structure Patience where
  afterWrite : Nat := 25
  atEnd : Nat := 150
  silence : Nat := 8
  afterExit : Nat := 10
  deriving DecidableEq, Repr

/-- Of the session echoed last it knows how many characters were echoed, and how long none were, if
any were since the last command. `arrivals` tells what happens during each of the pauses to come. -/
structure Shell where
  desk : Desk
  files : Files
  patience : Patience := {}
  echoed : Option (Nat × Nat) := none
  silence : Option Nat := none
  printed : List Piece := []
  closed : Bool := false
  arrivals : List (List Happening) := []

inductive Flow where
  | goOn
  | quit
  deriving DecidableEq, Repr

abbrev Progress (α : Type) := Except Trouble α × Shell

namespace Shell

def print (s : Shell) (piece : Piece) : Progress Unit :=
  if s.closed then (.error .outputClosed, s)
  else (.ok (), { s with printed := s.printed ++ [piece] })

def happen (s : Shell) (h : Happening) : Shell := { s with desk := s.desk.happen h }

def sessionBuffer? (s : Shell) : Option (Handle × SessionBuffer) :=
  s.desk.handle?.bind fun h => (s.desk.editor.sessions.get? h.buffer).map (h, ·)

/-- How many characters of a session were echoed. -/
def seen (s : Shell) (id : Nat) : Nat :=
  match s.echoed with
  | some (echoed, n) => if echoed = id then n else 0
  | none => 0

/-- Prints what the recorded session has added to its buffer since the last time. -/
def echo (s : Shell) : Progress Unit :=
  match s.sessionBuffer? with
  | none => (.ok (), s)
  | some (h, b) =>
    let fresh := (b.source.transcript s.desk.outputs).since (s.seen h.id)
    let count := fresh.text.length
    let told := { s with echoed := some (h.id, s.seen h.id + count) }
    if count = 0 then (.ok (), told)
    else
      match s.print (.echo h.id fresh) with
      | (.error t, _) => (.error t, s)
      | (.ok (), _) =>
        (.ok (), { told with printed := s.printed ++ [.echo h.id fresh], silence := some 0 })

def pause (s : Shell) (length : Nat) : Shell :=
  let s := { s with silence := s.silence.map (· + length) }
  match s.arrivals with
  | [] => s
  | now :: later => now.foldl happen { s with arrivals := later }

/-- Echoes output until it is quiet, for at most `limit` pauses of one. Quiet only counts once some
output was echoed. -/
def settle (s : Shell) (limit : Nat) : Progress Unit :=
  wait limit limit s
where
  wait (limit : Nat) : Nat → Shell → Progress Unit
    | left, s =>
      match s.echo with
      | (.error t, s) => (.error t, s)
      | (.ok (), s) =>
        if s.desk.handle?.isNone then (.ok (), s)
        else if !s.desk.isAlive then (s.pause (min s.patience.afterExit limit)).echo
        else if s.silence.any (s.patience.silence ≤ ·) then (.ok (), s)
        else
          match left with
          | 0 => (.ok (), s)
          | left + 1 => wait limit left (s.pause 1)

def atDesk {α : Type} (s : Shell) (outcome : Outcome α) : Progress α :=
  (outcome.1.mapError .failure, { s with desk := outcome.2 })

def goOn (p : Progress Unit) : Progress Flow := (p.1.map fun () => .goOn, p.2)

def send (s : Shell) (e : Excerpt) (focus : Bool) : Progress Flow :=
  goOn (s.atDesk (s.desk.send e focus))

def edit (s : Shell) (f : Editor → Editor) : Shell :=
  { s with desk := { s.desk with editor := f s.desk.editor } }

def run (s : Shell) (line : Option Text) : Progress Flow :=
  match s.atDesk (s.desk.ensure line false) with
  | (.error t, s) => (.error t, s)
  | (.ok handle, s) => goOn (s.print (.ready handle))

def present (s : Shell) : Progress Flow :=
  match s.desk.handle?, s.sessionBuffer? with
  | none, _ => (.error .nothingToShow, s)
  | some _, none => (.ok .goOn, s)
  | some _, some (_, b) =>
    goOn (s.print (.transcript ((b.source.transcript s.desk.outputs).since 0)))

def execute (s : Shell) : Command → Progress Flow
  | .run line => s.run line
  | .send text focus => s.send (.text text) focus
  | .openFile path =>
    match s.files.readText (Utf8.encode path) with
    | .error reason => (.error (.unreadable path reason), s)
    | .ok text => (.ok .goOn, s.edit (·.openText path text))
  | .goto pos => (.ok .goOn, s.edit (·.setPoint s.desk.outputs pos))
  | .region a b focus => s.send (.region a b) focus
  | .last focus => s.send .expression focus
  | .buffer focus => s.send .buffer focus
  | .load path focus => s.send (.file (Utf8.encode path)) focus
  | .switch => goOn (s.atDesk (s.desk.switch true))
  | .present => s.present
  | .help => goOn (s.print .help)
  | .quit => (.ok .quit, s)

end Shell
end Parley
