import Parley.Style.Color

/-! A style is a foreground, a background and a set of attributes; an absent colour is the
display's own. -/
namespace Parley

inductive Attribute where
  | bold | dim | italic | underline | blink | inverse | hidden | strikethrough
  deriving DecidableEq, Repr

structure Attributes where
  bold : Bool := false
  dim : Bool := false
  italic : Bool := false
  underline : Bool := false
  blink : Bool := false
  inverse : Bool := false
  hidden : Bool := false
  strikethrough : Bool := false
  deriving DecidableEq, Repr

namespace Attributes

def has (s : Attributes) : Attribute → Bool
  | .bold => s.bold
  | .dim => s.dim
  | .italic => s.italic
  | .underline => s.underline
  | .blink => s.blink
  | .inverse => s.inverse
  | .hidden => s.hidden
  | .strikethrough => s.strikethrough

def set (s : Attributes) (a : Attribute) (on : Bool) : Attributes :=
  match a with
  | .bold => { s with bold := on }
  | .dim => { s with dim := on }
  | .italic => { s with italic := on }
  | .underline => { s with underline := on }
  | .blink => { s with blink := on }
  | .inverse => { s with inverse := on }
  | .hidden => { s with hidden := on }
  | .strikethrough => { s with strikethrough := on }

@[simp] theorem has_set (s : Attributes) (a b : Attribute) (on : Bool) :
    (s.set a on).has b = if b = a then on else s.has b := by
  cases a <;> cases b <;> simp [set, has]

@[simp] theorem has_empty (a : Attribute) : ({} : Attributes).has a = false := by
  cases a <;> rfl

theorem ext_has {s t : Attributes} (h : ∀ a, s.has a = t.has a) : s = t := by
  obtain ⟨_, _, _, _, _, _, _, _⟩ := s
  obtain ⟨_, _, _, _, _, _, _, _⟩ := t
  have h₁ := h .bold
  have h₂ := h .dim
  have h₃ := h .italic
  have h₄ := h .underline
  have h₅ := h .blink
  have h₆ := h .inverse
  have h₇ := h .hidden
  have h₈ := h .strikethrough
  simp only [has] at h₁ h₂ h₃ h₄ h₅ h₆ h₇ h₈
  subst h₁ h₂ h₃ h₄ h₅ h₆ h₇ h₈
  rfl

end Attributes

structure Style where
  fg : Option Color := none
  bg : Option Color := none
  attributes : Attributes := {}
  deriving DecidableEq, Repr

namespace Style

def plain : Style := {}

def isPlain (s : Style) : Bool := s = plain

@[simp] theorem isPlain_iff (s : Style) : s.isPlain = true ↔ s = plain := by simp [isPlain]

def resolve (s : Style) : Style :=
  { s with fg := s.fg.map Color.resolve, bg := s.bg.map Color.resolve }

@[simp] theorem resolve_plain : plain.resolve = plain := rfl

end Style
end Parley
