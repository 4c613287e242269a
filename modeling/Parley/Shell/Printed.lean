import Parley.Session.Registry
import Parley.Terminal.Paint

/-! What the shell prints, piece by piece. Spans are painted if the output is to show colours, else
their text is printed bare. -/
namespace Parley

inductive Piece where
  | ready (handle : Handle)
  | echo (sessionId : Nat) (spans : Spans)
  | transcript (spans : Spans)
  | help
  | error (message : Text)
  deriving DecidableEq, Repr

def helpText : Text :=
  ("commands (append ! to send/region/last/buffer/load to also focus the session):\n" ++
    "  run [command line]    start the interpreter, or reuse the live one\n" ++
    "  send <text>           send text\n" ++
    "  open <file>           open a file as the current buffer\n" ++
    "  goto <pos>            move the cursor in the current buffer\n" ++
    "  region <start> <end>  send part of the current buffer\n" ++
    "  last                  send the expression before the cursor\n" ++
    "  buffer                send the whole current buffer\n" ++
    "  load <file>           import a file as a module\n" ++
    "  switch                focus the session buffer\n" ++
    "  show                  print the session buffer\n" ++
    "  help                  this text\n" ++
    "  quit                  leave").toList

def printSpans (depth : Option Terminal.Depth) (spans : Spans) : Text :=
  match depth with
  | some depth => Terminal.paint depth spans
  | none => spans.text

def Piece.text (depth : Option Terminal.Depth) : Piece → Text
  | ready h => "session ".toList ++ decimal h.id ++ " in ".toList ++ h.buffer ++ ['\n']
  | echo _ spans => printSpans depth spans
  | transcript spans => printSpans depth spans ++ ['\n']
  | help => helpText ++ ['\n']
  | error message => "error: ".toList ++ message ++ ['\n']

def printedText (depth : Option Terminal.Depth) (pieces : List Piece) : Text :=
  pieces.flatMap (·.text depth)

@[simp] theorem printSpans_none (spans : Spans) : printSpans none spans = spans.text :=
  rfl
@[simp] theorem printedText_append (depth : Option Terminal.Depth) (a b : List Piece) :
    printedText depth (a ++ b) = printedText depth a ++ printedText depth b := by
  simp [printedText]

end Parley
