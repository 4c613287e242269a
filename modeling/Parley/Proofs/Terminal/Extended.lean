import Parley.Proofs.Terminal.Composition

/-! Extended colours: an index into the palette, or three components, behind a 38 or a 48.
Whichever way it is written, an extended colour that is not itself taken for the value of another
is selected with every number modulo 256 (`style_of_extended`). So it is the colour that was
written exactly where its numbers are less than 256; where one is not, another colour is selected
(`index_wraps`). -/
namespace Parley

def Color.numbers : Color → List Nat
  | indexed n => [n.toNat]
  | direct c => [c.r.toNat, c.g.toNat, c.b.toNat]

namespace Terminal

/-- An extended colour as it is asked for, its numbers not bounded by what a colour can hold. -/
inductive Extended where
  | index (n : Nat)
  | components (r g b : Nat)
  deriving DecidableEq, Repr

/-- How an extended colour is written: its numbers as parameters of their own, or as subparameters
of the one that opens it. In the latter form a colour space may stand before the components. -/
inductive Writing where
  | semicolons
  | colons
  | colonsBehind (space : Nat)
  deriving DecidableEq, Repr

namespace Extended

def numbers : Extended → List Nat
  | index n => [n]
  | components r g b => [r, g, b]

def parameters (channel : Channel) : Writing → Extended → List Parameter
  | .semicolons, index n => [[channel.base + 8], [5], [n]]
  | .semicolons, components r g b => [[channel.base + 8], [2], [r], [g], [b]]
  | .colons, index n => [[channel.base + 8, 5, n]]
  | .colons, components r g b => [[channel.base + 8, 2, r, g, b]]
  | .colonsBehind _, index n => [[channel.base + 8, 5, n]]
  | .colonsBehind space, components r g b => [[channel.base + 8, 2, space, r, g, b]]

/-- The colour whose numbers are those asked for, modulo 256. -/
def wrapped : Extended → Color
  | index n => .indexed (UInt8.ofNat n)
  | components r g b => .direct ⟨UInt8.ofNat r, UInt8.ofNat g, UInt8.ofNat b⟩

theorem numbers_wrapped (e : Extended) : e.wrapped.numbers = e.numbers.map (· % 256) := by
  cases e <;> simp [wrapped, numbers, Color.numbers]

theorem numbers_wrapped_eq_iff (e : Extended) :
    e.wrapped.numbers = e.numbers ↔ ∀ n ∈ e.numbers, n < 256 := by
  rw [numbers_wrapped]
  constructor
  · intro h n hn
    rw [← h] at hn
    obtain ⟨m, -, rfl⟩ := List.mem_map.mp hn
    exact Nat.mod_lt m (by decide)
  · intro h
    calc e.numbers.map (· % 256) = e.numbers.map id :=
          List.map_congr_left fun n hn => Nat.mod_eq_of_lt (h n hn)
      _ = e.numbers := List.map_id e.numbers

/-- An extended colour takes its own numbers, and leaves the parameters that follow it alone. -/
theorem applyRendition_parameters (channel : Channel) (w : Writing) (e : Extended) (s : Style)
    (following : List Parameter) :
    applyRendition s (e.parameters channel w ++ following) =
      applyRendition (channel.set s (some e.wrapped)) following := by
  cases w with
  | semicolons =>
    cases e with
    | index n =>
      simp only [parameters, List.cons_append, List.nil_append]
      rw [applyRendition_opens]
      simp [extendedColor, Parameter.head, colorOfParts, wrapped]
    | components r g b =>
      simp only [parameters, List.cons_append, List.nil_append]
      rw [applyRendition_opens]
      simp [extendedColor, Parameter.head, colorOfParts, wrapped]
  | colons | colonsBehind =>
    cases e <;>
    · simp only [parameters, List.cons_append, List.nil_append]
      rw [applyRendition_cons]
      cases channel <;> rfl

end Extended

namespace Renderer

/-- An extended colour anywhere in a selection, behind parameters that do not end within another
one: in any state that a renderer can be in, and in any style, its channel takes the numbers modulo
256, and they are those that were written exactly where each is less than 256. -/
theorem style_of_extended (chunks : List Bytes) (s : Style) (channel : Channel) (w : Writing)
    (e : Extended) {before after : List Parameter} (hwhole : Whole before)
    (hfits : Fits (before ++ (e.parameters channel w ++ after))) :
    let r : Renderer := { (({} : Renderer).renderEach chunks).1 with style := s }
    let selection := selectionText (before ++ (e.parameters channel w ++ after))
    (r.render (Utf8.encode selection)).1.style =
        applyRendition (channel.set (applyRendition s before) (some e.wrapped)) after ∧
      (e.wrapped.numbers = e.numbers ↔ ∀ n ∈ e.numbers, n < 256) := by
  intro r selection
  have hr : r.machine.Tidy := tidy_rendered chunks
  refine ⟨?_, e.numbers_wrapped_eq_iff⟩
  calc (r.render (Utf8.encode selection)).1.style
      = applyRendition s (before ++ (e.parameters channel w ++ after)) := style_selection hr hfits
    _ = applyRendition (applyRendition s before) (e.parameters channel w ++ after) :=
        hwhole.applyRendition_append s _
    _ = applyRendition (channel.set (applyRendition s before) (some e.wrapped)) after :=
        e.applyRendition_parameters channel w _ after

/-- The index after the last of the palette selects the first, and a component that is too great for
a colour another shade; neither leaves the colour that was there. -/
theorem index_wraps :
    (({} : Renderer).render (Utf8.encode "\x1b[38;5;256mx".toList)).2 =
        [⟨['x'], { fg := some (.indexed 0) }⟩] ∧
      (({} : Renderer).render (Utf8.encode "\x1b[41;48:2::300:0:65535mx".toList)).2 =
        [⟨['x'], { bg := some (.direct ⟨44, 0, 255⟩) }⟩] := by
  decide +kernel

end Renderer
end Terminal
end Parley
