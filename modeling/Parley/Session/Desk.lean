import Parley.Editor
import Parley.Interpreter.Pool
import Parley.Session.Registry

/-! The desk is the whole of what a user works with: the editor, the recorded session, and the
interpreters. To ensure a session is to reuse the recorded one if its process is alive, else to
launch a new one and record it; the session buffer is focused afterwards unless the focus is to be
kept. An operation that fails still returns the desk as it left it. -/
namespace Parley

open Interpreter (Request)
open Terminal (Display)

/-- The working directory is an absolute path. -/
structure Desk where
  editor : Editor := {}
  registry : Registry := {}
  pool : Interpreter.Pool
  directory : Bytes

abbrev Outcome (α : Type) := Except Failure α × Desk

namespace Desk

def outputs (d : Desk) : Outputs := d.pool.transcript

def config (d : Desk) : Config := d.registry.config

def handle? (d : Desk) : Option Handle := d.registry.handle?

/-- The recorded session, if its process is alive. -/
def liveSession? (d : Desk) : Option Session :=
  d.registry.recorded.filter fun s => d.pool.isAlive s.process

def isAlive (d : Desk) : Bool := d.liveSession?.isSome

def focus (d : Desk) (name : Text) : Desk := { d with editor := d.editor.focus name }

/-- Records a session; the process of the one before is let go. -/
def install (d : Desk) (s : Session) : Desk :=
  { d with
    registry := d.registry.install s
    pool := match d.registry.recorded with
      | some old => d.pool.release old.process
      | none => d.pool }

def request (c : Config) : Request where
  invocation := c.invocation
  environment := (Display.ofColor c.ansiColor).environment
  buffer := c.bufferName

/-- Launches an interpreter, shows its session in the buffer asked for, and records it. -/
def start (d : Desk) (request : Request) (mode : Display) : Outcome Handle :=
  match d.pool.launch request mode with
  | (.error e, pool) => (.error e.failure, { d with pool })
  | (.ok (n, opening), pool) =>
    let (id, registry) := d.registry.takeId
    let handle : Handle := ⟨id, request.buffer⟩
    let editor := d.editor.attach pool.transcript request.buffer id mode (.process n)
    let d := { d with pool, registry, editor }.install ⟨handle, n⟩
    (.ok handle, { d with pool := d.pool.play n opening })

def spawn (d : Desk) : Outcome Handle :=
  d.start (request d.config) (.ofColor d.config.ansiColor)

/-- Makes sure that a session is alive. A configuration given replaces the one before, be it that
only the next session heeds it. -/
def ensureWith (d : Desk) (override : Option Config) (keepFocus : Bool) : Outcome Handle :=
  let d := { d with registry := d.registry.configure override }
  match d.liveSession? with
  | some s => (.ok s.handle, if keepFocus then d else d.focus s.handle.buffer)
  | none =>
    match d.spawn with
    | (.error f, d) => (.error f, d)
    | (.ok handle, d) => (.ok handle, if keepFocus then d else d.focus handle.buffer)

/-- Likewise, with the invocation of a line; a blank one changes nothing. -/
def ensure (d : Desk) (line : Option Text) (keepFocus : Bool) : Outcome Handle :=
  d.ensureWith (line.bind d.config.withLine) keepFocus

/-- Focuses the buffer of the recorded session; `toEnd` marks the place there and moves on to the
end. -/
def switch (d : Desk) (toEnd : Bool) : Outcome Unit :=
  match d.handle? with
  | none => (.error .noSession, d)
  | some handle =>
    if !d.editor.isBuffer handle.buffer then (.error .noSession, d)
    else
      let d := d.focus handle.buffer
      (.ok (), if toEnd then { d with editor := d.editor.pushMark.gotoEnd d.outputs } else d)

/-- Writes to the recorded session, if it has the handle's buffer. -/
def writeInput (d : Desk) (handle : Handle) (data : Bytes) : Outcome Unit :=
  match d.registry.session? handle.buffer with
  | none => (.error .noSession, d)
  | some s =>
    match d.pool.write s.process data with
    | (.error reason, pool) => (.error (.io reason), { d with pool })
    | (.ok (), pool) => (.ok (), { d with pool })

def annotate (d : Desk) (name : Text) (spans : Spans) : Desk :=
  match d.editor.sessions.get? name with
  | none => d
  | some { source := .process n, .. } => { d with pool := d.pool.annotate n spans }
  | some { source := .detached t, .. } =>
    { d with editor := d.editor.redirect name (.detached (t.append spans)) }

end Desk
end Parley
