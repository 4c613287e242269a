import Parley.Terminal.CursorCode
import Parley.Terminal.Renderer

/-! How a session's output is prepared for display, fixed when the interpreter starts. In `ansi`
mode cursor codes are stripped and the rest is rendered; in `plain` mode the text is shown as it is,
and the interpreter is asked not to edit lines itself. -/
namespace Parley.Terminal

inductive Display where
  | ansi
  | plain
  deriving DecidableEq, Repr

namespace Display

def ofColor (color : Bool) : Display := if color then ansi else plain

@[simp] theorem ofColor_true : ofColor true = ansi := rfl
@[simp] theorem ofColor_false : ofColor false = plain := rfl

def environment : Display → List (Text × Text)
  | ansi => []
  | plain => [("NODE_NO_READLINE".toList, ['1'])]

end Display

/-- What stands between an interpreter's output and its transcript. -/
inductive Filter where
  | ansi (renderer : Renderer)
  | plain
  deriving DecidableEq, Repr

namespace Filter

def ofMode : Display → Filter
  | .ansi => ansi {}
  | .plain => plain

def apply (f : Filter) (chunk : Text) : Filter × Spans :=
  match f with
  | ansi r =>
    let (r, spans) := r.render (Utf8.encode (CursorCode.strip chunk))
    (ansi r, spans)
  | plain => (plain, if chunk = [] then [] else [⟨chunk, .plain⟩])

@[simp] theorem apply_plain (chunk : Text) :
    plain.apply chunk = (plain, if chunk = [] then [] else [⟨chunk, .plain⟩]) := rfl

end Filter
end Parley.Terminal
