import Parley.Text.Basic

/-! Colours as an interpreter asks for them: one of 256 palette entries, or an RGB value. The
palette resolves to the usual terminal defaults: sixteen named colours, a cube with six levels a
channel, and twenty-four greys. -/
namespace Parley

structure Rgb where
  r : UInt8
  g : UInt8
  b : UInt8
  deriving DecidableEq, Repr

inductive Color where
  | indexed (n : UInt8)
  | direct (rgb : Rgb)
  deriving DecidableEq, Repr

namespace Color

/-- The first sixteen palette entries. -/
def named : List Rgb :=
  [⟨0, 0, 0⟩, ⟨205, 0, 0⟩, ⟨0, 205, 0⟩, ⟨205, 205, 0⟩,
   ⟨0, 0, 238⟩, ⟨205, 0, 205⟩, ⟨0, 205, 205⟩, ⟨229, 229, 229⟩,
   ⟨127, 127, 127⟩, ⟨255, 0, 0⟩, ⟨0, 255, 0⟩, ⟨255, 255, 0⟩,
   ⟨92, 92, 255⟩, ⟨255, 0, 255⟩, ⟨0, 255, 255⟩, ⟨255, 255, 255⟩]

/-- A level of the cube: none, or one of five evenly spaced shades. -/
def cubeLevel (n : Nat) : UInt8 := if n = 0 then 0 else UInt8.ofNat (55 + 40 * n)

def palette (n : UInt8) : Rgb :=
  let i := n.toNat
  match named[i]? with
  | some rgb => rgb
  | none =>
    if i < 232 then
      ⟨cubeLevel ((i - 16) / 36 % 6), cubeLevel ((i - 16) / 6 % 6), cubeLevel ((i - 16) % 6)⟩
    else
      let grey := UInt8.ofNat (8 + 10 * (i - 232))
      ⟨grey, grey, grey⟩

def toRgb : Color → Rgb
  | indexed n => palette n
  | direct rgb => rgb

@[simp] theorem toRgb_indexed (n : UInt8) : (indexed n).toRgb = palette n := rfl
@[simp] theorem toRgb_direct (rgb : Rgb) : (direct rgb).toRgb = rgb := rfl

def resolve (c : Color) : Color := direct c.toRgb

@[simp] theorem toRgb_resolve (c : Color) : c.resolve.toRgb = c.toRgb := rfl
@[simp] theorem resolve_resolve (c : Color) : c.resolve.resolve = c.resolve := rfl

end Color
end Parley
