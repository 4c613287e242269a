import Parley.Style.Basic
import Parley.Terminal.Sequence

/-! Selecting a graphic rendition: how the parameters of a control sequence ending in `m` change a
style. Each parameter is an attribute, a colour, or the head of an extended colour, which comes
with its values as subparameters or takes them from the parameters that follow. -/
namespace Parley.Terminal

def Parameter.head (p : Parameter) : Nat := p.headD 0

/-- The colour that `5;n` or `2;r;g;b` selects; each value counts modulo 256. A form with five
values carries the number of a colour space after the 2. -/
def colorOfParts : List Nat → Option Color
  | 5 :: n :: _ => some (.indexed (UInt8.ofNat n))
  | [2, _, r, g, b] => some (.direct ⟨UInt8.ofNat r, UInt8.ofNat g, UInt8.ofNat b⟩)
  | 2 :: r :: g :: b :: _ => some (.direct ⟨UInt8.ofNat r, UInt8.ofNat g, UInt8.ofNat b⟩)
  | _ => none

/-- The colour that an extended selection gives, and how many of the parameters that follow its
head it takes. -/
def extendedColor (head : Parameter) (following : List Parameter) : Option Color × Nat :=
  match head with
  | _ :: part :: parts => (colorOfParts (part :: parts), 0)
  | _ =>
    let values := following.map Parameter.head
    match values with
    | 5 :: _ => (colorOfParts (values.take 2), (values.take 2).length)
    | 2 :: _ => (colorOfParts (values.take 4), (values.take 4).length)
    | _ => (none, 0)

def attributeOn : Nat → Option Attribute
  | 1 => some .bold
  | 2 => some .dim
  | 3 => some .italic
  | 4 => some .underline
  | 5 => some .blink
  | 6 => some .blink
  | 7 => some .inverse
  | 8 => some .hidden
  | 9 => some .strikethrough
  | _ => none

def attributesOff : Nat → List Attribute
  | 21 => [.bold, .dim]
  | 22 => [.bold, .dim]
  | 23 => [.italic]
  | 24 => [.underline]
  | 25 => [.blink]
  | 27 => [.inverse]
  | 28 => [.hidden]
  | 29 => [.strikethrough]
  | _ => []

/-- A palette colour that a number selects, counted from `base`. -/
def paletteColor (base n : Nat) : Color := .indexed (UInt8.ofNat (n - base))

/-- A style after one parameter, and how many of the parameters that follow it were used up. -/
def applyParameter (s : Style) (p : Parameter) (following : List Parameter) : Style × Nat :=
  let n := p.head
  if n = 0 then (.plain, 0)
  else if n = 38 then
    let (color, taken) := extendedColor p following
    ({ s with fg := color.or s.fg }, taken)
  else if n = 48 then
    let (color, taken) := extendedColor p following
    ({ s with bg := color.or s.bg }, taken)
  else if n = 39 then ({ s with fg := none }, 0)
  else if n = 49 then ({ s with bg := none }, 0)
  else if 30 ≤ n && n ≤ 37 then ({ s with fg := some (paletteColor 30 n) }, 0)
  else if 40 ≤ n && n ≤ 47 then ({ s with bg := some (paletteColor 40 n) }, 0)
  else if 90 ≤ n && n ≤ 97 then ({ s with fg := some (paletteColor 82 n) }, 0)
  else if 100 ≤ n && n ≤ 107 then ({ s with bg := some (paletteColor 92 n) }, 0)
  else match attributeOn n with
    | some a => ({ s with attributes := s.attributes.set a true }, 0)
    | none =>
      ({ s with attributes := (attributesOff n).foldl (fun t a => t.set a false) s.attributes }, 0)

/-- Applies the parameters in order, leaving out the first `skip`. -/
def applyFrom : Nat → Style → List Parameter → Style
  | _, s, [] => s
  | skip + 1, s, _ :: following => applyFrom skip s following
  | 0, s, p :: following =>
    applyFrom (applyParameter s p following).2 (applyParameter s p following).1 following

def applyRendition (s : Style) (params : List Parameter) : Style := applyFrom 0 s params

@[simp] theorem applyRendition_nil (s : Style) : applyRendition s [] = s := rfl

theorem applyFrom_eq_drop (skip : Nat) (s : Style) (params : List Parameter) :
    applyFrom skip s params = applyRendition s (params.drop skip) := by
  induction skip generalizing params with
  | zero => rfl
  | succ n ih =>
    cases params with
    | nil => rfl
    | cons p following => exact ih following

end Parley.Terminal
