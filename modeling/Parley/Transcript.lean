import Parley.Style.Span

/-! A transcript is the contents of a session buffer: spans that grow at the end only, and their
length in characters. -/
namespace Parley

structure Transcript where
  spans : Spans := []
  length : Nat := 0
  deriving DecidableEq, Repr

namespace Transcript

def push (t : Transcript) (s : Span) : Transcript :=
  { spans := t.spans.push s, length := t.length + s.text.length }

def append (t : Transcript) (spans : Spans) : Transcript := spans.foldl push t

def appendPlain (t : Transcript) (text : Text) : Transcript := t.append [⟨text, .plain⟩]

def text (t : Transcript) : Text := t.spans.text

def isEmpty (t : Transcript) : Bool := t.length = 0

def since (t : Transcript) (start : Nat) : Spans := t.spans.since start

@[simp] theorem append_nil (t : Transcript) : t.append [] = t := rfl
@[simp] theorem append_cons (t : Transcript) (s : Span) (spans : Spans) :
    t.append (s :: spans) = (t.push s).append spans := rfl
theorem append_append (t : Transcript) (a b : Spans) :
    t.append (a ++ b) = (t.append a).append b := by simp [append]

@[simp] theorem spans_append (t : Transcript) (spans : Spans) :
    (t.append spans).spans = t.spans.pushAll spans := by
  induction spans generalizing t with
  | nil => rfl
  | cons s spans ih => simp [ih, push]

@[simp] theorem length_append (t : Transcript) (spans : Spans) :
    (t.append spans).length = t.length + spans.text.length := by
  induction spans generalizing t with
  | nil => simp
  | cons s spans ih => simp [ih, push]; omega

end Transcript
end Parley
