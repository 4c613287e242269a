import Parley.Expression.Backward
import Parley.Named
import Parley.Terminal.Display
import Parley.Transcript

/-! An editor kept in memory: text buffers, session buffers that show a transcript, the current
buffer, and the marks pushed so far. Positions count the characters before them. A name can be that
of a buffer of both kinds; the text buffer is then the one that counts.

A session buffer of a process shows whatever its transcript holds by now, so what a buffer says is
read with the outputs of the processes at hand. -/
namespace Parley

/-- Where the transcript of a session buffer is. -/
inductive Source where
  | process (n : Nat)
  | detached (transcript : Transcript)
  deriving DecidableEq, Repr

abbrev Outputs := Nat → Transcript

def Source.transcript (outputs : Outputs) : Source → Transcript
  | process n => outputs n
  | detached t => t

structure TextBuffer where
  text : Text
  point : Nat
  deriving DecidableEq, Repr

structure SessionBuffer where
  sessionId : Nat
  mode : Terminal.Display
  source : Source
  point : Nat
  deriving DecidableEq, Repr

/-- The marks are the places that were left behind, oldest first. -/
structure Editor where
  texts : Named TextBuffer := {}
  sessions : Named SessionBuffer := {}
  current : Option Text := none
  marks : List (Text × Nat) := []
  deriving Repr

namespace Editor

def isBuffer (e : Editor) (name : Text) : Bool := e.texts.contains name || e.sessions.contains name

/-- Opens a text buffer in place of one of that name, with the cursor at its end. -/
def openText (e : Editor) (name text : Text) : Editor :=
  { e with texts := e.texts.insert name ⟨text, text.length⟩, current := some name }

/-- Removes the buffers of a name, of either kind. -/
def kill (e : Editor) (name : Text) : Editor :=
  { e with
    texts := e.texts.erase name
    sessions := e.sessions.erase name
    current := if e.current = some name then none else e.current }

def focus (e : Editor) (name : Text) : Editor :=
  if e.isBuffer name then { e with current := some name } else e

/-- Shows a session in a buffer of its own, in place of any buffer of that name. -/
def attach (e : Editor) (outputs : Outputs) (name : Text) (sessionId : Nat)
    (mode : Terminal.Display) (source : Source) : Editor :=
  { e with
    texts := e.texts.erase name
    sessions := e.sessions.insert name
      { sessionId, mode, source, point := (source.transcript outputs).length } }

def redirect (e : Editor) (name : Text) (source : Source) : Editor :=
  { e with sessions := e.sessions.modify name ({ · with source }) }

def textOf (e : Editor) (outputs : Outputs) (name : Text) : Text :=
  match e.texts.get? name, e.sessions.get? name with
  | some b, _ => b.text
  | none, some s => (s.source.transcript outputs).text
  | none, none => []

def pointOf (e : Editor) (name : Text) : Nat :=
  match e.texts.get? name, e.sessions.get? name with
  | some b, _ => b.point
  | none, some s => s.point
  | none, none => 0

def place (e : Editor) (name : Text) (pos : Nat) : Editor :=
  if e.texts.contains name then { e with texts := e.texts.modify name ({ · with point := pos }) }
  else { e with sessions := e.sessions.modify name ({ · with point := pos }) }

def currentText (e : Editor) (outputs : Outputs) : Text :=
  match e.current with
  | some name => e.textOf outputs name
  | none => []

def point (e : Editor) : Nat :=
  match e.current with
  | some name => e.pointOf name
  | none => 0

def endPosition (e : Editor) (outputs : Outputs) : Nat := (e.currentText outputs).length

/-- Moves the cursor of the current buffer, at most to its end. -/
def setPoint (e : Editor) (outputs : Outputs) (pos : Nat) : Editor :=
  match e.current with
  | some name => e.place name (min pos (e.endPosition outputs))
  | none => e

def gotoEnd (e : Editor) (outputs : Outputs) : Editor := e.setPoint outputs (e.endPosition outputs)

def pushMark (e : Editor) : Editor :=
  match e.current with
  | some name => { e with marks := e.marks ++ [(name, e.point)] }
  | none => e

/-- The text between two positions of the current buffer, given in either order. -/
def regionText (e : Editor) (outputs : Outputs) (a b : Nat) : Text :=
  ((e.currentText outputs).drop (min a b)).take (max a b - min a b)

/-- The start of the line of a position: after the last newline before it. -/
def lineStart (e : Editor) (outputs : Outputs) (pos : Nat) : Nat :=
  ((((e.currentText outputs).take pos).reverse).dropWhile (· ≠ '\n')).length

def backwardExpression (e : Editor) (outputs : Outputs) (pos : Nat) : Option Nat :=
  Expression.start? (e.currentText outputs) pos

@[simp] theorem current_openText (e : Editor) (name text : Text) :
    (e.openText name text).current = some name := rfl
@[simp] theorem marks_openText (e : Editor) (name text : Text) :
    (e.openText name text).marks = e.marks := rfl
@[simp] theorem marks_kill (e : Editor) (name : Text) : (e.kill name).marks = e.marks := rfl
@[simp] theorem marks_focus (e : Editor) (name : Text) : (e.focus name).marks = e.marks := by
  unfold focus; split <;> rfl
@[simp] theorem current_attach (e : Editor) (outputs : Outputs) (name : Text) (id : Nat)
    (mode : Terminal.Display) (source : Source) :
    (e.attach outputs name id mode source).current = e.current := rfl
@[simp] theorem marks_attach (e : Editor) (outputs : Outputs) (name : Text) (id : Nat)
    (mode : Terminal.Display) (source : Source) :
    (e.attach outputs name id mode source).marks = e.marks := rfl
@[simp] theorem current_place (e : Editor) (name : Text) (pos : Nat) :
    (e.place name pos).current = e.current := by
  unfold place; split <;> rfl
@[simp] theorem marks_place (e : Editor) (name : Text) (pos : Nat) :
    (e.place name pos).marks = e.marks := by
  unfold place; split <;> rfl

end Editor
end Parley
