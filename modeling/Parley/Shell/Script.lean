import Parley.Shell.Basic

/-! A script is what the shell reads: lines of octets, and in between what happens to the processes
while the shell waits for the next line. A line may arrive in pieces. The shell carries out the
command of each line in turn, reports what goes wrong, and goes on until it is told to quit or the
input ends. -/
namespace Parley

inductive Supply where
  | octets (b : Bytes)
  | happening (h : Happening)
  deriving DecidableEq, Repr

inductive Entry where
  | line (b : Bytes)
  | happening (h : Happening)
  deriving DecidableEq, Repr

namespace Script

def newline : UInt8 := 0x0A
def carriageReturn : UInt8 := 0x0D

/-- A line, given latest octet first, without the carriage return that may precede its newline. -/
def endLine (held : Bytes) : Bytes :=
  match held with
  | b :: rest => if b = carriageReturn then rest.reverse else held.reverse
  | [] => []

/-- The lines that some octets complete, and what is held of the next, latest octet first. -/
def splitLines (held : Bytes) : Bytes → List Bytes × Bytes
  | [] => ([], held)
  | b :: rest =>
    if b = newline then (endLine held :: (splitLines [] rest).1, (splitLines [] rest).2)
    else splitLines (b :: held) rest

/-- The entries of an input; its last line need not be ended. -/
def entriesFrom (held : Bytes) : List Supply → List Entry
  | [] => if held = [] then [] else [.line held.reverse]
  | .happening h :: rest => .happening h :: entriesFrom held rest
  | .octets b :: rest =>
    (splitLines held b).1.map .line ++ entriesFrom (splitLines held b).2 rest

def entries (input : List Supply) : List Entry := entriesFrom [] input

end Script

namespace Shell

def reportError (s : Shell) (message : Text) : Progress Flow := goOn (s.print (.error message))

def obey (s : Shell) (c : Command) : Progress Flow :=
  match s.execute c with
  | (.error t, s) => s.reportError t.chain
  | (.ok .quit, s) => (.ok .quit, s)
  | (.ok .goOn, s) =>
    if c.writesInput then goOn ({ s with silence := none }.settle s.patience.afterWrite)
    else goOn s.echo

def readLine (s : Shell) (line : Bytes) : Progress Flow :=
  match Utf8.decode? line with
  | none => (.error .undecodableLine, s)
  | some line =>
    match Command.parse line with
    | .error e => s.reportError e.message
    | .ok none => (.ok .goOn, s)
    | .ok (some c) => s.obey c

def fileWanted? : Entry → Option Bytes
  | .happening _ => none
  | .line line =>
    match (Utf8.decode? line).map Command.parse with
    | some (.ok (some (.openFile path))) => some (Utf8.encode path)
    | _ => none

/-- Reads entries until the input ends, one of them says to quit, or the shell cannot go on. -/
def runEntries (s : Shell) : List Entry → Progress Unit
  | [] => s.settle s.patience.atEnd
  | .happening h :: rest => (s.happen h).runEntries rest
  | .line line :: rest =>
    match s.readLine line with
    | (.error t, s) => (.error t, s)
    | (.ok .quit, s) => (.ok (), s)
    | (.ok .goOn, s) => s.runEntries rest

def runScript (s : Shell) (input : List Supply) : Progress Unit :=
  s.runEntries (Script.entries input)

/-- Carries out the command of one line and nothing more; a blank line has none. -/
def executeLine (s : Shell) (line : Text) : Progress (Option Flow) :=
  match Command.parse line with
  | .error e => (.error (.command e), s)
  | .ok none => (.ok none, s)
  | .ok (some c) => ((s.execute c).1.map some, (s.execute c).2)

end Shell
end Parley
