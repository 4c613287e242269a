import Parley.Style.Span

/-! Painting spans for a terminal: the control sequence that selects a style from any state, and
spans wrapped in their sequence and a reset. -/
namespace Parley.Terminal

/-- Which colours a terminal understands: palette entries, or only components. -/
inductive Depth where
  | palette
  | trueColor
  deriving DecidableEq, Repr

def renditionText (params : List Text) : Text :=
  '\x1b' :: '[' :: joinWith [';'] params ++ ['m']

def resetText : Text := renditionText [['0']]

/-- The attributes with the numbers that turn them on. -/
def attributeNumbers : List (Attribute × Nat) :=
  [(.bold, 1), (.dim, 2), (.italic, 3), (.underline, 4), (.blink, 5), (.inverse, 7), (.hidden, 8),
   (.strikethrough, 9)]

/-- The numbers that select a colour; `base` is 30 for the foreground and 40 for the background. -/
def colorNumbers (depth : Depth) (base : Nat) (c : Color) : List Nat :=
  match depth, c with
  | .palette, .indexed n =>
    if n < 8 then [base + n.toNat]
    else if n < 16 then [base + 60 + (n.toNat - 8)]
    else [base + 8, 5, n.toNat]
  | _, _ => [base + 8, 2, c.toRgb.r.toNat, c.toRgb.g.toNat, c.toRgb.b.toNat]

def styleNumbers (depth : Depth) (s : Style) : List Nat :=
  0 :: (attributeNumbers.filter fun a => s.attributes.has a.1).map Prod.snd
    ++ (s.fg.map (colorNumbers depth 30)).getD []
    ++ (s.bg.map (colorNumbers depth 40)).getD []

/-- The control sequence that selects a style from any state. -/
def styleText (depth : Depth) (s : Style) : Text :=
  renditionText ((styleNumbers depth s).map decimal)

/-- A styled span between its sequence and a reset; a plain one bare. -/
def paintSpan (depth : Depth) (s : Span) : Text :=
  if s.style.isPlain then s.text else styleText depth s.style ++ s.text ++ resetText

def paint (depth : Depth) (spans : Spans) : Text := spans.flatMap (paintSpan depth)

@[simp] theorem paint_nil (depth : Depth) : paint depth [] = [] := rfl
@[simp] theorem paint_append (depth : Depth) (a b : Spans) :
    paint depth (a ++ b) = paint depth a ++ paint depth b := by simp [paint]

end Parley.Terminal
