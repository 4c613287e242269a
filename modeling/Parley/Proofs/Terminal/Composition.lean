import Parley.Proofs.Terminal.Escapes

/-! Selections put one after the other. A parameter acts alone, except that a bare 38 or 48 takes
the values of its colour from the parameters that follow. So two lists of parameters act in one
sequence as they do in two, unless the first ends within such a colour (`Whole`); and where it does,
something could follow that tells the difference (`whole_iff`). -/
namespace Parley.Terminal

/-- A parameter that opens an extended colour and leaves its values to those that follow. -/
def OpensColor (p : Parameter) : Prop := p = [38] ∨ p = [48]

theorem OpensColor.exists_channel {p : Parameter} (h : OpensColor p) :
    ∃ channel : Channel, p = [channel.base + 8] := by
  rcases h with rfl | rfl
  · exact ⟨.foreground, rfl⟩
  · exact ⟨.background, rfl⟩

/-- Parameters that do not end within an extended colour: a parameter that opens one is not the last,
and behind it a 5 has the one value it needs, a 2 the three. -/
inductive Whole : List Parameter → Prop where
  | nil : Whole []
  | single {p : Parameter} {rest : List Parameter} (h : ¬ OpensColor p) (hrest : Whole rest) :
      Whole (p :: rest)
  | neither {p q : Parameter} {rest : List Parameter} (h : OpensColor p) (h5 : q.head ≠ 5)
      (h2 : q.head ≠ 2) (hrest : Whole (q :: rest)) : Whole (p :: q :: rest)
  | indexed {p q n : Parameter} {rest : List Parameter} (h : OpensColor p) (h5 : q.head = 5)
      (hrest : Whole rest) : Whole (p :: q :: n :: rest)
  | direct {p q r g b : Parameter} {rest : List Parameter} (h : OpensColor p) (h2 : q.head = 2)
      (hrest : Whole rest) : Whole (p :: q :: r :: g :: b :: rest)

/-! What each kind of parameter does to a style, whatever follows. -/

/-- A colour with its values as subparameters takes none of the parameters that follow. -/
theorem extendedColor_of_subs {p : Parameter} (h : ¬ OpensColor p) (hp : p.head = 38 ∨ p.head = 48)
    (following : List Parameter) :
    extendedColor p following = ((extendedColor p []).1, 0) := by
  match p with
  | [] => rcases hp with hp | hp <;> cases hp
  | [n] => exact absurd (hp.imp (congrArg ([·])) (congrArg ([·]))) h
  | _ :: _ :: _ => rfl

theorem applyParameter_single {p : Parameter} (h : ¬ OpensColor p) (s : Style)
    (following : List Parameter) :
    applyParameter s p following = ((applyParameter s p []).1, 0) := by
  by_cases hp : p.head = 38 ∨ p.head = 48
  · have hcolor := extendedColor_of_subs h hp following
    rcases hp with hp | hp <;> simp [applyParameter, hp, hcolor]
  · obtain ⟨h38, h48⟩ := not_or.mp hp
    have hsame : applyParameter s p following = applyParameter s p [] := by
      simp only [applyParameter, if_neg h38, if_neg h48]
    have htaken : (applyParameter s p []).2 = 0 := by
      simp only [applyParameter, if_neg h38, if_neg h48]
      split_ifs <;> first | rfl | cases attributeOn p.head <;> rfl
    rw [hsame]
    exact Prod.ext rfl htaken

theorem applyRendition_single {p : Parameter} (h : ¬ OpensColor p) (s : Style)
    (following : List Parameter) :
    applyRendition s (p :: following) = applyRendition (applyParameter s p []).1 following := by
  rw [applyRendition_cons, applyParameter_single h]
  rfl

/-- A parameter that opens a colour, by what its colour comes to. -/
theorem applyRendition_opens {channel : Channel} (s : Style) (following : List Parameter) :
    applyRendition s ([channel.base + 8] :: following) =
      applyRendition
        (channel.set s ((extendedColor [channel.base + 8] following).1.or (channel.get s)))
        (following.drop (extendedColor [channel.base + 8] following).2) := by
  rw [applyRendition_cons]
  cases channel <;> rfl

theorem applyRendition_neither {p q : Parameter} (h : OpensColor p) (h5 : q.head ≠ 5)
    (h2 : q.head ≠ 2) (s : Style) (following : List Parameter) :
    applyRendition s (p :: q :: following) = applyRendition s (q :: following) := by
  obtain ⟨channel, rfl⟩ := h.exists_channel
  have hnone : extendedColor [channel.base + 8] (q :: following) = (none, 0) := by
    simp [extendedColor, h5, h2]
  rw [applyRendition_opens, hnone, Option.none_or, Channel.set_get, List.drop_zero]

/-- An extended colour with all its values selects a colour and nothing else. -/
theorem exists_color_indexed {p q : Parameter} (h : OpensColor p) (h5 : q.head = 5)
    (n : Parameter) : ∃ (channel : Channel) (c : Color), ∀ s following,
      applyRendition s (p :: q :: n :: following) =
        applyRendition (channel.set s (some c)) following := by
  obtain ⟨channel, rfl⟩ := h.exists_channel
  refine ⟨channel, .indexed (UInt8.ofNat n.head), fun s following => ?_⟩
  rw [applyRendition_opens]
  simp [extendedColor, h5, colorOfParts]

theorem exists_color_direct {p q : Parameter} (h : OpensColor p) (h2 : q.head = 2)
    (r g b : Parameter) : ∃ (channel : Channel) (c : Color), ∀ s following,
      applyRendition s (p :: q :: r :: g :: b :: following) =
        applyRendition (channel.set s (some c)) following := by
  obtain ⟨channel, rfl⟩ := h.exists_channel
  refine ⟨channel, .direct ⟨UInt8.ofNat r.head, UInt8.ofNat g.head, UInt8.ofNat b.head⟩,
    fun s following => ?_⟩
  rw [applyRendition_opens]
  simp [extendedColor, h2, colorOfParts]

/-- Parameters that do not end within a colour leave nothing to those that follow but a style. -/
theorem Whole.applyRendition_append {a : List Parameter} (h : Whole a) (s : Style)
    (b : List Parameter) :
    applyRendition s (a ++ b) = applyRendition (applyRendition s a) b := by
  induction h generalizing s with
  | nil => rfl
  | single h hrest ih =>
    rw [List.cons_append, applyRendition_single h, applyRendition_single h, ih]
  | neither h h5 h2 hrest ih =>
    rw [List.cons_append, List.cons_append, applyRendition_neither h h5 h2, ← List.cons_append, ih,
      applyRendition_neither h h5 h2]
  | @indexed p q n rest h h5 hrest ih =>
    obtain ⟨channel, c, hcolor⟩ := exists_color_indexed h h5 n
    simp only [List.cons_append, hcolor, ih]
  | @direct p q r g b rest h h2 hrest ih =>
    obtain ⟨channel, c, hcolor⟩ := exists_color_direct h h2 r g b
    simp only [List.cons_append, hcolor, ih]

/-- Something could follow that tells: parameters that would end in a reset become the values of a
colour. -/
def Awaits (a : List Parameter) : Prop :=
  ∃ (missing : List Parameter) (channel : Channel) (c : Color),
    (∀ s, applyRendition s missing = .plain) ∧
      ∀ s, ∃ t, applyRendition s (a ++ missing) = channel.set t (some c)

theorem awaits_bare {p : Parameter} (h : OpensColor p) : Awaits [p] := by
  obtain ⟨channel, c, hcolor⟩ := exists_color_indexed h (q := [5]) rfl [0]
  exact ⟨[[5], [0]], channel, c, fun s => rfl, fun s => ⟨s, hcolor s []⟩⟩

theorem awaits_indexed {p q : Parameter} (h : OpensColor p) (h5 : q.head = 5) :
    Awaits [p, q] := by
  obtain ⟨channel, c, hcolor⟩ := exists_color_indexed h h5 [0]
  exact ⟨[[0]], channel, c, fun s => rfl, fun s => ⟨s, hcolor s []⟩⟩

theorem awaits_direct {p q : Parameter} (h : OpensColor p) (h2 : q.head = 2)
    {values : List Parameter} (hlt : values.length < 3) : Awaits (p :: q :: values) := by
  match values with
  | [] =>
    obtain ⟨channel, c, hcolor⟩ := exists_color_direct h h2 [0] [0] [0]
    exact ⟨[[0], [0], [0]], channel, c, fun s => rfl, fun s => ⟨s, hcolor s []⟩⟩
  | [r] =>
    obtain ⟨channel, c, hcolor⟩ := exists_color_direct h h2 r [0] [0]
    exact ⟨[[0], [0]], channel, c, fun s => rfl, fun s => ⟨s, hcolor s []⟩⟩
  | [r, g] =>
    obtain ⟨channel, c, hcolor⟩ := exists_color_direct h h2 r g [0]
    exact ⟨[[0]], channel, c, fun s => rfl, fun s => ⟨s, hcolor s []⟩⟩
  | _ :: _ :: _ :: _ =>
    simp only [List.length_cons] at hlt
    omega

/-- What awaits values does so too behind parameters that leave it nothing but a style. -/
theorem Awaits.cons {rest : List Parameter} (h : Awaits rest) {a : List Parameter}
    (hacts : ∀ s following, ∃ t,
      applyRendition s (a ++ (rest ++ following)) = applyRendition t (rest ++ following)) :
    Awaits (a ++ rest) := by
  obtain ⟨missing, channel, c, hplain, hcolor⟩ := h
  refine ⟨missing, channel, c, hplain, fun s => ?_⟩
  obtain ⟨t, ht⟩ := hacts s missing
  rw [List.append_assoc, ht]
  exact hcolor t

/-- One case for each kind of parameter, as in `Whole`. -/
theorem whole_or_awaits : ∀ a : List Parameter, Whole a ∨ Awaits a
  | [] => .inl .nil
  | p :: rest => by
    by_cases hp : OpensColor p
    · match rest with
      | [] => exact .inr (awaits_bare hp)
      | q :: rest =>
        by_cases h5 : q.head = 5
        · match rest with
          | [] => exact .inr (awaits_indexed hp h5)
          | n :: rest =>
            obtain ⟨channel, c, hcolor⟩ := exists_color_indexed hp h5 n
            exact (whole_or_awaits rest).imp (.indexed hp h5)
              (Awaits.cons (a := [p, q, n]) · fun s _ => ⟨_, hcolor s _⟩)
        · by_cases h2 : q.head = 2
          · match rest with
            | r :: g :: b :: rest =>
              obtain ⟨channel, c, hcolor⟩ := exists_color_direct hp h2 r g b
              exact (whole_or_awaits rest).imp (.direct hp h2)
                (Awaits.cons (a := [p, q, r, g, b]) · fun s _ => ⟨_, hcolor s _⟩)
            | [] | [_] | [_, _] => exact .inr (awaits_direct hp h2 (by simp))
          · exact (whole_or_awaits (q :: rest)).imp (.neither hp h5 h2)
              (Awaits.cons (a := [p]) · fun s _ => ⟨s, applyRendition_neither hp h5 h2 s _⟩)
    · exact (whole_or_awaits rest).imp (.single hp)
        (Awaits.cons (a := [p]) · fun s _ => ⟨_, applyRendition_single hp s _⟩)
termination_by a => a.length

/-- Parameters compose with all that can follow where they do not end within a colour, and nowhere
else. -/
theorem whole_iff (a : List Parameter) :
    Whole a ↔ ∀ s b, applyRendition s (a ++ b) = applyRendition (applyRendition s a) b := by
  refine ⟨fun h s b => h.applyRendition_append s b, fun hcomposes => ?_⟩
  rcases whole_or_awaits a with h | ⟨missing, channel, c, hplain, hcolor⟩
  · exact h
  · exfalso
    obtain ⟨t, ht⟩ := hcolor .plain
    rw [hcomposes, hplain] at ht
    have hget := congrArg channel.get ht
    rw [Channel.get_set] at hget
    cases channel <;> cases hget

/-! The sequences themselves. -/

theorem Fits.left {a b : List Parameter} (h : Fits (a ++ b)) (ha : a ≠ []) : Fits a where
  nonempty := ha
  numbers p hp := h.numbers p (List.mem_append_left b hp)
  room := by
    have hroom := h.room
    rw [List.flatten_append, List.length_append] at hroom
    omega

theorem Fits.right {a b : List Parameter} (h : Fits (a ++ b)) (hb : b ≠ []) : Fits b where
  nonempty := hb
  numbers p hp := h.numbers p (List.mem_append_right a hp)
  room := by
    have hroom := h.room
    rw [List.flatten_append, List.length_append] at hroom
    omega

namespace Renderer

/-- A chunk that is a selection and nothing else. -/
theorem style_selection {r : Renderer} (h : r.machine.Tidy) {params : List Parameter}
    (hp : Fits params) :
    (r.render (Utf8.encode (selectionText params))).1.style = applyRendition r.style params := by
  have hempty : (r.render []).1.style = r.style := by
    have hintake : r.machine.intake [] = [] := by simp [Machine.intake]
    rw [render, draw, hintake]
    rfl
  have hselection := (render_selection h [] hp).2
  rw [hempty] at hselection
  exact hselection

/-- Two lists of parameters of which the first does not end within an extended colour: in any state
that a renderer can be in, and in any style, a sequence with both leaves the style that a sequence
for each leaves, be they read in one chunk or in two. -/
theorem style_of_joined {a b : List Parameter} (ha : a ≠ []) (hb : b ≠ []) (hfits : Fits (a ++ b))
    (hwhole : Whole a) (chunks : List Bytes) (s : Style) :
    let r : Renderer := { (({} : Renderer).renderEach chunks).1 with style := s }
    let joined := (r.render (Utf8.encode (selectionText (a ++ b)))).1
    let first := (r.render (Utf8.encode (selectionText a))).1
    joined.style = (first.render (Utf8.encode (selectionText b))).1.style ∧
      joined.style = (r.render (Utf8.encode (selectionText a ++ selectionText b))).1.style := by
  intro r joined first
  have hr : r.machine.Tidy := tidy_rendered chunks
  have hjoined : joined.style = applyRendition (applyRendition s a) b :=
    (style_selection hr hfits).trans (hwhole.applyRendition_append s b)
  have hfirst : first.style = applyRendition s a := style_selection hr (hfits.left ha)
  have hsecond : (first.render (Utf8.encode (selectionText b))).1.style =
      applyRendition first.style b := style_selection (tidy_render hr _) (hfits.right hb)
  have hboth := (render_selection hr (Utf8.encode (selectionText a)) (hfits.right hb)).2
  rw [← Utf8.encode_append] at hboth
  rw [hjoined, ← hfirst]
  exact ⟨hsecond.symm, hboth.symm⟩

/-- A palette index that reads like the head of a colour, a colour with subparameters, and a head
that opens nothing because an attribute follows. -/
def nestedColors : List Parameter := [[38], [5], [38], [48, 2, 0, 1, 2, 3], [38], [7]]

def greatIndex : List Parameter := [[48], [5], [65535], [1000], [4]]

theorem style_of_joined_nested :
    nestedColors ≠ [] ∧ greatIndex ≠ [] ∧ Fits (nestedColors ++ greatIndex) ∧
      Whole nestedColors ∧
      let r : Renderer := { (({} : Renderer).renderEach [[0x1B, 0x5D], [0x1B, 0xE2]]).1 with
        style := { bg := some (.indexed 1) } }
      let joined := (r.render (Utf8.encode (selectionText (nestedColors ++ greatIndex)))).1
      let first := (r.render (Utf8.encode (selectionText nestedColors))).1
      joined.style = (first.render (Utf8.encode (selectionText greatIndex))).1.style ∧
        joined.style = (r.render (Utf8.encode
          (selectionText nestedColors ++ selectionText greatIndex))).1.style := by
  have hfits : Fits (nestedColors ++ greatIndex) := ⟨by decide, by decide, by decide⟩
  have hwhole : Whole nestedColors :=
    .indexed (.inl rfl) rfl (.single (by simp [OpensColor])
      (.neither (.inl rfl) (by decide) (by decide) (.single (by simp [OpensColor]) .nil)))
  exact ⟨by decide, by decide, hfits, hwhole,
    style_of_joined (by decide) (by decide) hfits hwhole _ _⟩

end Renderer
end Parley.Terminal
