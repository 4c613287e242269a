import Parley.Style.Span
import Parley.Terminal.Machine
import Parley.Terminal.Rendition

/-! Rendering of interpreter output for a scrollback buffer. Printed characters, newlines and tabs
gather as pending text in the current style, a backspace takes the last pending character back, and
a graphic rendition closes the pending text; everything else a terminal would do is dropped. The
machine and the style carry over from chunk to chunk. -/
namespace Parley.Terminal

/-- The pending characters are those since the last span was closed, latest first. -/
structure Canvas where
  style : Style := .plain
  pending : Text := []
  spans : Spans := []
  deriving DecidableEq, Repr

namespace Canvas

def flush (c : Canvas) : Canvas :=
  { c with pending := [], spans := c.spans.push ⟨c.pending.reverse, c.style⟩ }

def isRendition (s : Sequence) (final : UInt8) : Bool :=
  final = 0x6D && !s.overflow && s.marks.isEmpty

def perform (c : Canvas) : Action → Canvas
  | .print ch => { c with pending := ch :: c.pending }
  | .execute b =>
    if b = 0x0A then { c with pending := '\n' :: c.pending }
    else if b = 0x09 then { c with pending := '\t' :: c.pending }
    else if b = 0x08 then { c with pending := c.pending.tail }
    else c
  | .dispatch s final =>
    if isRendition s final then { c.flush with style := applyRendition c.style s.params } else c

end Canvas

structure Renderer where
  machine : Machine := {}
  style : Style := .plain
  deriving DecidableEq, Repr

namespace Renderer

def draw (r : Renderer) (chunk : Bytes) : Machine × Canvas :=
  r.machine.run Canvas.perform { style := r.style } (r.machine.intake chunk)

def render (r : Renderer) (chunk : Bytes) : Renderer × Spans :=
  let (machine, canvas) := r.draw chunk
  ({ machine := machine.endChunk, style := canvas.style }, canvas.flush.spans)

end Renderer
end Parley.Terminal
