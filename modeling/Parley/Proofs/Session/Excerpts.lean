import Parley.Proofs.Text.Blanks
import Parley.Session.Excerpt

/-! What an excerpt is, said without how it is found: a part of a text is what stands between two
places of it, the line of a place starts after the last newline before, and a text is trimmed once
its last character is no blank. What is found as an excerpt is what it should be
(`names_of_excerpt`). -/
namespace Parley

/-- What stands in a text between two places, given in either order and at most its end. -/
def IsPart (text : Text) (a b : Nat) (part : Text) : Prop :=
  ∃ before after, text = before ++ part ++ after ∧
    before.length = min (min a b) text.length ∧
    (before ++ part).length = min (max a b) text.length

theorem IsPart.eq_drop {text part : Text} {a b : Nat} (h : IsPart text a b part) (hle : a ≤ b) :
    part = (text.take b).drop a := by
  obtain ⟨before, after, htext, hbefore, hpart⟩ := h
  rw [Nat.min_eq_left hle] at hbefore
  rw [Nat.max_eq_right hle] at hpart
  have htake : text.take b = before ++ part := by
    rw [List.take_eq_take_min, ← hpart, htext, List.take_left]
  rw [htake]
  rcases Nat.le_total a text.length with ha | ha
  · rw [List.drop_left' (by omega)]
  · have hnil : part.length = 0 := by
      rw [List.length_append] at hpart
      omega
    rw [List.drop_eq_nil_of_le (by omega), List.length_eq_zero_iff.mp hnil]

/-- The line of a place starts at `line`: no newline stands between, and one before, if anything
does. -/
def IsLineStart (text : Text) (place line : Nat) : Prop :=
  ∃ before rest, text.take place = before ++ rest ∧ before.length = line ∧
    (∀ c ∈ rest, c ≠ '\n') ∧ ∀ c, before.getLast? = some c → c = '\n'

theorem IsLineStart.le {text : Text} {place line : Nat} (h : IsLineStart text place line) :
    line ≤ place := by
  obtain ⟨before, rest, htext, rfl, -⟩ := h
  have hlength := congrArg List.length htext
  rw [List.length_take, List.length_append] at hlength
  omega

def IsTrimmed (text kept : Text) : Prop :=
  ∃ blanks, text = kept ++ blanks ∧ (∀ c ∈ blanks, isBlank c = true) ∧
    ∀ c, kept.getLast? = some c → isBlank c = false

theorem isTrimmed_trimEnd (text : Text) : IsTrimmed text text.trimEnd := split_ending isBlank text

theorem trimEnd_ne_nil {text : Text} {c : Char} (hc : c ∈ text) (hblank : isBlank c = false) :
    text.trimEnd ≠ [] := by
  intro hnil
  obtain ⟨blanks, htext, hblanks, -⟩ := isTrimmed_trimEnd text
  rw [hnil, List.nil_append] at htext
  rw [hblanks c (htext ▸ hc)] at hblank
  cases hblank

namespace Editor

variable (e : Editor) (outputs : Outputs)

theorem isLineStart_lineStart (place : Nat) :
    IsLineStart (e.currentText outputs) place (e.lineStart outputs place) := by
  obtain ⟨rest, htext, hrest, hlast⟩ :=
    split_ending (· ≠ '\n') ((e.currentText outputs).take place)
  refine ⟨_, rest, htext, List.length_reverse, ?_, ?_⟩
  · intro c hc
    simpa using hrest c hc
  · intro c hc
    simpa using hlast c hc

theorem isPart_regionText (a b : Nat) :
    IsPart (e.currentText outputs) a b (e.regionText outputs a b) := by
  generalize htext : e.currentText outputs = text
  refine ⟨text.take (min a b), (text.drop (min a b)).drop (max a b - min a b), ?_, ?_, ?_⟩
  · rw [regionText, htext, List.append_assoc, List.take_append_drop, List.take_append_drop]
  · exact List.length_take
  · simp only [regionText, htext, List.length_append, List.length_take, List.length_drop]
    omega

theorem regionText_all :
    e.regionText outputs 0 (e.endPosition outputs) = e.currentText outputs := by
  simp [regionText, endPosition]

end Editor

namespace Desk

inductive Names (d : Desk) : Excerpt → Text → Prop where
  | text (t : Text) : Names d (.text t) t
  | region {a b : Nat} {part : Text} (h : IsPart (d.editor.currentText d.outputs) a b part) :
      Names d (.region a b) part
  | expression {start line : Nat} {part : Text}
      (found : d.editor.backwardExpression d.outputs d.editor.point = some start)
      (within : IsLineStart (d.editor.currentText d.outputs) start line)
      (h : IsPart (d.editor.currentText d.outputs) line d.editor.point part) :
      Names d .expression part
  | buffer : Names d .buffer (d.editor.currentText d.outputs)
  | file {path whole : Bytes} {base : Text} (resolved : Path.absolute? d.directory path = some whole)
      (named : (Path.fileStem? whole).bind Utf8.decode? = some base) :
      Names d (.file path)
        ("import * as ".toList ++ base ++ " from \x22".toList ++ base ++ "\x22\n".toList)

theorem names_of_excerpt {d : Desk} {e : Excerpt} {text : Text} (h : d.excerpt e = .ok text) :
    d.Names e text := by
  cases e with
  | text t =>
    obtain rfl : t = text := Except.ok.inj h
    exact .text t
  | region a b =>
    obtain rfl : d.editor.regionText d.outputs a b = text := Except.ok.inj h
    exact .region (d.editor.isPart_regionText d.outputs a b)
  | expression =>
    simp only [excerpt, expressionSpan] at h
    cases hstart : d.editor.backwardExpression d.outputs d.editor.point with
    | none =>
      rw [hstart] at h
      cases h
    | some start =>
      rw [hstart] at h
      obtain rfl := Except.ok.inj h
      exact .expression hstart (d.editor.isLineStart_lineStart d.outputs start)
        (d.editor.isPart_regionText d.outputs _ _)
  | buffer =>
    rw [excerpt, Editor.regionText_all] at h
    obtain rfl : d.editor.currentText d.outputs = text := Except.ok.inj h
    exact .buffer
  | file path =>
    simp only [excerpt, importFrom] at h
    cases hwhole : Path.absolute? d.directory path with
    | none =>
      rw [hwhole] at h
      cases h
    | some whole =>
      rw [hwhole] at h
      simp only [importStatement] at h
      cases hbase : (Path.fileStem? whole).bind Utf8.decode? with
      | none =>
        rw [hbase] at h
        cases h
      | some base =>
        rw [hbase] at h
        obtain rfl := Except.ok.inj h
        exact .file hwhole hbase

end Desk
end Parley
