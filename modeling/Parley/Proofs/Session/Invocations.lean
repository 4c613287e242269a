import Parley.Proofs.Text.Spacing
import Parley.Session.Config

/-! Invocations and their lines. An invocation comes back from its own line exactly if its parts are
words (`read?_line_iff`), and what is read from a line is written as that line trimmed, with one
space for each run of blanks (`line_of_read?`). Hence a configuration that takes its invocation from
a line could as well take it from the line it then has itself (`withLine_line`). -/
namespace Parley

namespace Invocation

/-- The program and the arguments are words, so that blanks can divide them. -/
def OfWords (i : Invocation) : Prop := ∀ part ∈ i.program :: i.args, Text.IsWord part

instance (i : Invocation) : Decidable i.OfWords :=
  inferInstanceAs (Decidable (∀ part ∈ i.program :: i.args, Text.IsWord part))

theorem read?_eq_none_iff (line : Text) : read? line = none ↔ line.Blank := by
  rw [← Text.allBlank_iff, ← Text.words_eq_nil, read?]
  cases line.words with
  | nil => simp
  | cons program args => simp

theorem read?_eq_some_iff (line : Text) (i : Invocation) :
    read? line = some i ↔ Text.Splits line (i.program :: i.args) := by
  obtain ⟨program, args⟩ := i
  rw [Text.splits_iff, read?]
  cases line.words with
  | nil => simp
  | cons first rest => simp

theorem ofWords_of_read? {line : Text} {i : Invocation} (h : read? line = some i) : i.OfWords :=
  ((read?_eq_some_iff line i).mp h).isWord

theorem read?_line {i : Invocation} (h : i.OfWords) : read? i.line = some i :=
  (read?_eq_some_iff i.line i).mpr (Text.splits_joinWith h)

theorem read?_line_iff (i : Invocation) : read? i.line = some i ↔ i.OfWords :=
  ⟨ofWords_of_read?, read?_line⟩

theorem line_of_read? {line : Text} {i : Invocation} (h : read? line = some i) :
    i.line = line.trim.singleSpaced := by
  have hwords : line.words = i.program :: i.args := ((read?_eq_some_iff line i).mp h).words_eq
  rw [Invocation.line, ← hwords, Text.joinWith_words]

end Invocation

namespace Config

theorem withLine_of_read? (c : Config) {line : Text} {i : Invocation}
    (h : Invocation.read? line = some i) : c.withLine line = some { c with invocation := i } := by
  rw [withLine, h, Option.map_some]

theorem withLine_eq_none_iff (c : Config) (line : Text) :
    c.withLine line = none ↔ line.Blank := by
  rw [withLine, Option.map_eq_none_iff, Invocation.read?_eq_none_iff]

/-- The invocation of a configuration comes back from its line exactly if its parts are words. A
line that is not blank gives a configuration shown as before, whose own line is the given one
trimmed and with single spaces; neither line changes anything when it is given again, to the old
configuration or to the new one. A blank line gives none. -/
theorem withLine_line (c : Config) (line : Text) :
    (Invocation.read? c.invocation.line = some c.invocation ↔ c.invocation.OfWords) ∧
      (c.withLine line = none ↔ line.Blank) ∧
      (¬ line.Blank → ∃ d : Config, c.withLine line = some d ∧
        d.ansiColor = c.ansiColor ∧ d.bufferName = c.bufferName ∧
        d.invocation.line = line.trim.singleSpaced ∧
        c.withLine d.invocation.line = some d ∧
        d.withLine d.invocation.line = some d ∧ d.withLine line = some d) := by
  refine ⟨c.invocation.read?_line_iff, c.withLine_eq_none_iff line, fun hblank => ?_⟩
  have hsome : Invocation.read? line ≠ none := (Invocation.read?_eq_none_iff line).not.mpr hblank
  obtain ⟨i, hread⟩ := Option.ne_none_iff_exists'.mp hsome
  have hagain : Invocation.read? i.line = some i :=
    Invocation.read?_line (Invocation.ofWords_of_read? hread)
  refine ⟨{ c with invocation := i }, c.withLine_of_read? hread, rfl, rfl,
    Invocation.line_of_read? hread, c.withLine_of_read? hagain, ?_, ?_⟩
  · exact withLine_of_read? { c with invocation := i } hagain
  · exact withLine_of_read? { c with invocation := i } hread

/-- Tabs, a line end and an ideographic space around and between the words. -/
def wideLine : Text := "\t ts-node\u3000 --pretty \t-O \x7b\x7d\n".toList

theorem withLine_line_wide :
    let c : Config := ⟨⟨"node".toList, ["-i".toList]⟩, false, "*ts*".toList⟩
    Invocation.read? "node -i".toList = some c.invocation ∧ ¬ wideLine.Blank ∧
      ∃ d : Config, c.withLine wideLine = some d ∧ d.ansiColor = false ∧
        d.bufferName = "*ts*".toList ∧
        d.invocation.line = "ts-node --pretty -O \x7b\x7d".toList ∧
        d.withLine d.invocation.line = some d := by
  intro c
  obtain ⟨hback, -, hgives⟩ := withLine_line c wideLine
  have hwords : c.invocation.OfWords := by decide +kernel
  have hblank : ¬ wideLine.Blank := by decide +kernel
  obtain ⟨d, hd, hcolor, hname, hline, -, hagain, -⟩ := hgives hblank
  have hspaced : wideLine.trim.singleSpaced = "ts-node --pretty -O \x7b\x7d".toList := by
    decide +kernel
  exact ⟨hback.mpr hwords, hblank, d, hd, hcolor, hname, hline.trans hspaced, hagain⟩

end Config
end Parley
