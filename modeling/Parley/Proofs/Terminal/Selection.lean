import Mathlib.Tactic.IntervalCases
import Parley.Terminal.Paint
import Parley.Terminal.Rendition
import Parley.Terminal.Sequence

/-! The numbers that select a style. They begin with a reset, so read as the parameters of a
rendition they give the style whatever style was there before (`applyRendition_styleNumbers`);
colours are treated alike on the foreground and the background. A sequence has room for all of
them, and none is too great for it. -/
namespace Parley.Terminal

inductive Channel where
  | foreground
  | background
  deriving DecidableEq

namespace Channel

def base : Channel → Nat
  | foreground => 30
  | background => 40

def get (channel : Channel) (s : Style) : Option Color :=
  match channel with
  | foreground => s.fg
  | background => s.bg

def set (channel : Channel) (s : Style) (c : Option Color) : Style :=
  match channel with
  | foreground => { s with fg := c }
  | background => { s with bg := c }

@[simp] theorem set_get (channel : Channel) (s : Style) : channel.set s (channel.get s) = s := by
  cases channel <;> rfl

@[simp] theorem get_set (channel : Channel) (s : Style) (c : Option Color) :
    channel.get (channel.set s c) = c := by
  cases channel <;> rfl

end Channel

def Depth.color : Depth → Color → Color
  | .palette, c => c
  | .trueColor, c => c.resolve

def Depth.style : Depth → Style → Style
  | .palette => id
  | .trueColor => Style.resolve

theorem applyRendition_cons (s : Style) (p : Parameter) (following : List Parameter) :
    applyRendition s (p :: following) =
      applyRendition (applyParameter s p following).1
        (following.drop (applyParameter s p following).2) :=
  applyFrom_eq_drop (applyParameter s p following).2 (applyParameter s p following).1 following

theorem applyRendition_reset (s : Style) (following : List Parameter) :
    applyRendition s ([0] :: following) = applyRendition .plain following := by
  rw [applyRendition_cons]
  rfl

theorem applyRendition_attribute (s : Style) (following : List Parameter) {a : Attribute × Nat}
    (h : a ∈ attributeNumbers) :
    applyRendition s ([a.2] :: following) =
      applyRendition { s with attributes := s.attributes.set a.1 true } following := by
  rw [applyRendition_cons]
  simp only [attributeNumbers, List.mem_cons, List.not_mem_nil, or_false] at h
  rcases h with rfl | rfl | rfl | rfl | rfl | rfl | rfl | rfl <;> rfl

theorem applyRendition_attributes (s : Style) (following : List Parameter)
    {chosen : List (Attribute × Nat)} (h : ∀ a ∈ chosen, a ∈ attributeNumbers) :
    applyRendition s (chosen.map (fun a => [a.2]) ++ following) =
      applyRendition
        { s with attributes := chosen.foldl (fun t a => t.set a.1 true) s.attributes }
        following := by
  induction chosen generalizing s with
  | nil => rfl
  | cons a chosen ih =>
    rw [List.forall_mem_cons] at h
    rw [List.map_cons, List.cons_append, applyRendition_attribute s _ h.1, ih _ h.2]
    rfl

theorem has_foldl_set (chosen : List (Attribute × Nat)) (s : Attributes) (b : Attribute) :
    (chosen.foldl (fun t a => t.set a.1 true) s).has b =
      (decide (b ∈ chosen.map Prod.fst) || s.has b) := by
  induction chosen generalizing s with
  | nil => simp
  | cons a chosen ih =>
    rw [List.foldl_cons, ih, Attributes.has_set, List.map_cons]
    by_cases h : b = a.1
    · simp [h]
    · simp [h, beq_eq_false_iff_ne.mpr h]

/-- The attributes of a style, turned on one after another, are all of them. -/
theorem foldl_attributeNumbers (s : Attributes) :
    (attributeNumbers.filter fun a => s.has a.1).foldl (fun t a => t.set a.1 true) {} = s := by
  apply Attributes.ext_has
  intro b
  rw [has_foldl_set, Attributes.has_empty, Bool.or_false]
  cases b <;> simp [attributeNumbers]

/-- The first eight colours of a channel, and the eight bright ones. -/
theorem applyParameter_low (channel : Channel) (s : Style) (following : List Parameter) {k : Nat}
    (h : k < 8) :
    applyParameter s [channel.base + k] following =
      (channel.set s (some (.indexed (UInt8.ofNat k))), 0) := by
  cases channel <;> interval_cases k <;> rfl

theorem applyParameter_bright (channel : Channel) (s : Style) (following : List Parameter)
    {k : Nat} (h : k < 8) :
    applyParameter s [channel.base + 60 + k] following =
      (channel.set s (some (.indexed (UInt8.ofNat (k + 8)))), 0) := by
  cases channel <;> interval_cases k <;> rfl

theorem applyRendition_indexed (channel : Channel) (s : Style) (following : List Parameter)
    (n : UInt8) :
    applyRendition s ([channel.base + 8] :: [5] :: [n.toNat] :: following) =
      applyRendition (channel.set s (some (.indexed n))) following := by
  have hn : UInt8.ofNat n.toNat = n := UInt8.ofNat_toNat
  rw [applyRendition_cons]
  cases channel <;>
    simp [applyParameter, Parameter.head, Channel.base, Channel.set, extendedColor, colorOfParts]

theorem applyRendition_direct (channel : Channel) (s : Style) (following : List Parameter)
    (c : Rgb) :
    applyRendition s
        ([channel.base + 8] :: [2] :: [c.r.toNat] :: [c.g.toNat] :: [c.b.toNat] :: following) =
      applyRendition (channel.set s (some (.direct c))) following := by
  rw [applyRendition_cons]
  cases channel <;>
    simp [applyParameter, Parameter.head, Channel.base, Channel.set, extendedColor, colorOfParts]

theorem applyRendition_color (channel : Channel) (depth : Depth) (c : Color) (s : Style)
    (following : List Parameter) :
    applyRendition s ((colorNumbers depth channel.base c).map ([·]) ++ following) =
      applyRendition (channel.set s (some (depth.color c))) following := by
  cases depth with
  | palette =>
    cases c with
    | indexed n =>
      simp only [colorNumbers]
      split_ifs with h h'
      · rw [List.map_singleton, List.singleton_append, applyRendition_cons,
          applyParameter_low channel s following (UInt8.lt_iff_toNat_lt.mp h), UInt8.ofNat_toNat]
        rfl
      · have h8 : 8 ≤ n.toNat := by simpa [UInt8.lt_iff_toNat_lt] using h
        have h16 : n.toNat < 16 := UInt8.lt_iff_toNat_lt.mp h'
        have hk : n.toNat - 8 + 8 = n.toNat := by omega
        rw [List.map_singleton, List.singleton_append, applyRendition_cons,
          applyParameter_bright channel s following (by omega), hk, UInt8.ofNat_toNat]
        rfl
      · exact applyRendition_indexed channel s following n
    | direct rgb => exact applyRendition_direct channel s following rgb
  | trueColor => exact applyRendition_direct channel s following c.toRgb

/-- The colour numbers of a channel, if it has any colour. -/
theorem applyRendition_color? (channel : Channel) (depth : Depth) (c : Option Color) (s : Style)
    (following : List Parameter) :
    applyRendition s
        (((c.map (colorNumbers depth channel.base)).getD []).map ([·]) ++ following) =
      applyRendition (if c = none then s else channel.set s (c.map depth.color)) following := by
  cases c with
  | none => rfl
  | some c => exact applyRendition_color channel depth c s following

/-- The numbers of a style select it whatever came before. -/
theorem applyRendition_styleNumbers (depth : Depth) (s before : Style) :
    applyRendition before ((styleNumbers depth s).map ([·])) = depth.style s := by
  obtain ⟨fg, bg, attributes⟩ := s
  have hchosen : ∀ a ∈ attributeNumbers.filter (fun a => attributes.has a.1),
      a ∈ attributeNumbers := fun a ha => (List.mem_filter.mp ha).1
  have hset : ({ Style.plain with
      attributes := (attributeNumbers.filter fun a => attributes.has a.1).foldl
        (fun t a => t.set a.1 true) Style.plain.attributes } : Style) =
      { attributes := attributes } := by
    rw [show Style.plain.attributes = {} from rfl, foldl_attributeNumbers]
    rfl
  calc applyRendition before ((styleNumbers depth ⟨fg, bg, attributes⟩).map ([·]))
      = applyRendition before ([0] ::
          ((attributeNumbers.filter fun a => attributes.has a.1).map (fun a => [a.2]) ++
            (((fg.map (colorNumbers depth Channel.foreground.base)).getD []).map ([·]) ++
              (((bg.map (colorNumbers depth Channel.background.base)).getD []).map ([·]) ++
                [])))) := by
        simp [styleNumbers, Channel.base, Function.comp_def]
    _ = applyRendition { attributes := attributes }
          (((fg.map (colorNumbers depth Channel.foreground.base)).getD []).map ([·]) ++
            (((bg.map (colorNumbers depth Channel.background.base)).getD []).map ([·]) ++
              [])) := by
        rw [applyRendition_reset, applyRendition_attributes .plain _ hchosen, hset]
    _ = depth.style ⟨fg, bg, attributes⟩ := by
        rw [applyRendition_color? .foreground, applyRendition_color? .background]
        cases depth <;> cases fg <;> cases bg <;> rfl

theorem length_colorNumbers_le (depth : Depth) (base : Nat) (c : Option Color) :
    ((c.map (colorNumbers depth base)).getD []).length ≤ 5 := by
  cases c with
  | none => simp
  | some c =>
    cases depth <;> cases c <;> simp [colorNumbers]
    split_ifs <;> simp

/-- A sequence that selects a style has room for all its numbers. -/
theorem length_styleNumbers_le (depth : Depth) (s : Style) :
    (styleNumbers depth s).length ≤ Sequence.maxNumbers := by
  have hfg := length_colorNumbers_le depth 30 s.fg
  have hbg := length_colorNumbers_le depth 40 s.bg
  have hattributes := List.length_filter_le (fun a => s.attributes.has a.1) attributeNumbers
  have : attributeNumbers.length = 8 := rfl
  simp only [styleNumbers, List.length_append, List.length_cons, List.length_map,
    Sequence.maxNumbers]
  omega

theorem colorNumbers_le (depth : Depth) (channel : Channel) (c : Color) :
    ∀ n ∈ colorNumbers depth channel.base c, n ≤ Sequence.maxValue := by
  have hbase : channel.base ≤ 40 := by cases channel <;> decide
  have hrgb : ∀ rgb : Rgb, ∀ n ∈ [channel.base + 8, 2, rgb.r.toNat, rgb.g.toNat, rgb.b.toNat],
      n ≤ Sequence.maxValue := by
    intro rgb
    have hr := rgb.r.toNat_lt
    have hg := rgb.g.toNat_lt
    have hb := rgb.b.toNat_lt
    simp [Sequence.maxValue]
    omega
  cases depth with
  | palette =>
    cases c with
    | indexed n =>
      have hn := n.toNat_lt
      simp only [colorNumbers]
      split_ifs <;> simp [Sequence.maxValue] <;> omega
    | direct rgb => exact hrgb rgb
  | trueColor => exact hrgb c.toRgb

theorem styleNumbers_le (depth : Depth) (s : Style) :
    ∀ n ∈ styleNumbers depth s, n ≤ Sequence.maxValue := by
  have hcolor : ∀ channel : Channel, ∀ c : Option Color,
      ∀ n ∈ (c.map (colorNumbers depth channel.base)).getD [], n ≤ Sequence.maxValue := by
    intro channel c
    cases c with
    | none => simp
    | some c => exact colorNumbers_le depth channel c
  have hattributes : ∀ a ∈ attributeNumbers, a.2 ≤ Sequence.maxValue := by decide
  intro n hn
  simp only [styleNumbers, List.mem_append, List.mem_cons, List.mem_map, List.mem_filter] at hn
  rcases hn with ((rfl | ⟨a, ⟨ha, -⟩, rfl⟩) | hn) | hn
  · decide
  · exact hattributes a ha
  · exact hcolor .foreground s.fg n hn
  · exact hcolor .background s.bg n hn

end Parley.Terminal
