import Parley.Proofs.Text.Numerals
import Parley.Proofs.Text.Spacing
import Parley.Shell.Command

/-! The lines that give commands. Each command word has a rule for what may stand behind it
(`Takes`), and a line gives a command where it is blanks, a word with or without its exclamation
mark, and nothing more or a blank and a rest that keeps to the rule (`Gives`). A line is read
exactly so, and every command that a line can give is read back from the one way to write it
(`parse_of_line`). -/
namespace Parley.Command

open Text (Blank Unindented Tight Pads Splits Leaves)

def bang (focus : Bool) : Text := if focus then ['!'] else []

inductive Takes : Text → Bool → Text → Command → Prop where
  | run {rest : Text} (h : rest.Blank) : Takes "run".toList false rest (.run none)
  | runLine {rest line : Text} (h : rest.Pads line) (hne : line ≠ []) :
      Takes "run".toList false rest (.run (some line))
  | send (focus : Bool) {blanks text : Text} (hb : blanks.Blank) (ht : text.Unindented) :
      Takes "send".toList focus (blanks ++ text) (.send text focus)
  | openFile {rest path : Text} (h : rest.Pads path) (hne : path ≠ []) :
      Takes "open".toList false rest (.openFile path)
  | goto {rest numeral : Text} {pos : Nat} (h : rest.Pads numeral) (hn : IsPosition numeral pos) :
      Takes "goto".toList false rest (.goto pos)
  | region (focus : Bool) {rest first second : Text} {a b : Nat} (h : Splits rest [first, second])
      (ha : IsPosition first a) (hb : IsPosition second b) :
      Takes "region".toList focus rest (.region a b focus)
  | last (focus : Bool) (rest : Text) : Takes "last".toList focus rest (.last focus)
  | buffer (focus : Bool) (rest : Text) : Takes "buffer".toList focus rest (.buffer focus)
  | load (focus : Bool) {rest path : Text} (h : rest.Pads path) (hne : path ≠ []) :
      Takes "load".toList focus rest (.load path focus)
  | switch (rest : Text) : Takes "switch".toList false rest .switch
  | present (rest : Text) : Takes "show".toList false rest .present
  | help (rest : Text) : Takes "help".toList false rest .help
  | quit (rest : Text) : Takes "quit".toList false rest .quit
  | exit (rest : Text) : Takes "exit".toList false rest .quit

def Gives (line : Text) (c : Command) : Prop :=
  ∃ blanks name focus tail rest, blanks.Blank ∧ Leaves tail rest ∧
    line = blanks ++ (name ++ bang focus) ++ tail ∧ Takes name focus rest c

def IsReadable : Command → Prop
  | run none => True
  | run (some line) => line ≠ [] ∧ line.Tight
  | send text _ => text.Unindented
  | openFile path => path ≠ [] ∧ path.Tight
  | goto pos => pos < positionLimit
  | region a b _ => a < positionLimit ∧ b < positionLimit
  | load path _ => path ≠ [] ∧ path.Tight
  | _ => True

/-- The line that a command is written as: its word, the exclamation mark if it asks for the focus,
and its argument behind a space. -/
def write : Command → Text
  | run none => "run".toList
  | run (some line) => "run".toList ++ ' ' :: line
  | send text focus => "send".toList ++ bang focus ++ ' ' :: text
  | openFile path => "open".toList ++ ' ' :: path
  | goto pos => "goto".toList ++ ' ' :: writePosition pos
  | region a b focus =>
    "region".toList ++ bang focus ++ ' ' :: (writePosition a ++ ' ' :: writePosition b)
  | last focus => "last".toList ++ bang focus
  | buffer focus => "buffer".toList ++ bang focus
  | load path focus => "load".toList ++ bang focus ++ ' ' :: path
  | switch => "switch".toList
  | present => "show".toList
  | help => "help".toList
  | quit => "quit".toList

/-! A word and its rest -/

theorem fileArgument_eq_ok_iff (word argument path : Text) :
    fileArgument word argument = .ok path ↔ argument = path ∧ path ≠ [] := by
  unfold fileArgument
  by_cases h : argument = []
  · subst h
    simp [eq_comm]
  · rw [if_neg h]
    constructor
    · intro heq
      obtain rfl := Except.ok.inj heq
      exact ⟨rfl, h⟩
    · rintro ⟨rfl, -⟩
      rfl

theorem regionArgument_eq_ok_iff (rest : Text) (a b : Nat) :
    regionArgument rest.trim = .ok (a, b) ↔
      ∃ first second, Splits rest [first, second] ∧ IsPosition first a ∧ IsPosition second b := by
  simp only [Text.splits_iff, ← readPosition_eq_ok_iff]
  rw [regionArgument, Text.words_trim]
  constructor
  · intro h
    split at h
    · rename_i a' b' hwords
      obtain ⟨rfl, rfl⟩ := Prod.mk.inj (Except.ok.inj h)
      match hrest : rest.words with
      | [] | [_] | _ :: _ :: _ :: _ => simp [hrest] at hwords
      | [first, second] =>
        simp only [hrest, List.map_cons, List.map_nil, List.cons.injEq, and_true] at hwords
        exact ⟨first, second, rfl, hwords.1, hwords.2⟩
    · cases h
  · rintro ⟨first, second, hwords, ha, hb⟩
    simp [hwords, ha, hb]

theorem map_eq_ok_iff {α β : Type} (f : α → β) (x : Except CommandError α) (b : β) :
    x.map f = .ok b ↔ ∃ a, x = .ok a ∧ f a = b := by
  cases x with
  | error e => simp [Except.map]
  | ok a => simp [Except.map]

theorem ofWord_of_takes {word name rest : Text} {focus : Bool} {c : Command}
    (h : Takes name focus rest c) : ofWord word name focus rest = .ok c := by
  cases h with
  | run h =>
    have htrim : rest.trim = [] := Text.trim_of_pads h.pads
    simp [ofWord, htrim]
  | runLine h hne => simp [ofWord, Text.trim_of_pads h, hne]
  | @send _ blanks text hb ht =>
    have htrim : Text.trimStart (blanks ++ text) = text :=
      (Text.trimStart_eq_iff _ _).mpr ⟨blanks, hb, rfl, ht⟩
    simp [ofWord, htrim]
  | @openFile _ path h hne =>
    have harg : fileArgument ['o', 'p', 'e', 'n'] rest.trim = .ok path :=
      (fileArgument_eq_ok_iff _ _ _).mpr ⟨Text.trim_of_pads h, hne⟩
    simp [ofWord, harg, Except.map]
  | goto h hn =>
    have hpos := (readPosition_eq_ok_iff _ _).mpr hn
    simp [ofWord, Text.trim_of_pads h, hpos]
  | region _ h ha hb =>
    have harg := (regionArgument_eq_ok_iff rest _ _).mpr ⟨_, _, h, ha, hb⟩
    simp [ofWord, harg, Except.map]
  | last => simp [ofWord]
  | buffer => simp [ofWord]
  | @load _ _ path h hne =>
    have harg : fileArgument ['l', 'o', 'a', 'd'] rest.trim = .ok path :=
      (fileArgument_eq_ok_iff _ _ _).mpr ⟨Text.trim_of_pads h, hne⟩
    simp [ofWord, harg, Except.map]
  | switch => simp [ofWord]
  | present => simp [ofWord]
  | help => simp [ofWord]
  | quit => simp [ofWord]
  | exit => simp [ofWord]

theorem takes_of_ofWord {word name rest : Text} {focus : Bool} {c : Command}
    (h : ofWord word name focus rest = .ok c) : Takes name focus rest c := by
  have hpads : rest.Pads rest.trim := Text.pads_trim rest
  unfold ofWord at h
  dsimp only at h
  rw [ite_eq_iff] at h
  rcases h with ⟨rfl, h⟩ | ⟨-, h⟩
  · obtain rfl := Except.ok.inj h
    obtain ⟨blanks, hb, hrest, ht⟩ := (Text.trimStart_eq_iff rest _).mp rfl
    have hsend := Takes.send focus hb ht
    rwa [← hrest] at hsend
  rw [ite_eq_iff] at h
  rcases h with ⟨rfl, h⟩ | ⟨-, h⟩
  · obtain ⟨⟨a, b⟩, harg, rfl⟩ := (map_eq_ok_iff _ _ _).mp h
    obtain ⟨first, second, hsplits, ha, hb⟩ := (regionArgument_eq_ok_iff rest a b).mp harg
    exact .region focus hsplits ha hb
  rw [ite_eq_iff] at h
  rcases h with ⟨rfl, h⟩ | ⟨-, h⟩
  · obtain rfl := Except.ok.inj h
    exact .last focus rest
  rw [ite_eq_iff] at h
  rcases h with ⟨rfl, h⟩ | ⟨-, h⟩
  · obtain rfl := Except.ok.inj h
    exact .buffer focus rest
  rw [ite_eq_iff] at h
  rcases h with ⟨rfl, h⟩ | ⟨-, h⟩
  · obtain ⟨path, harg, rfl⟩ := (map_eq_ok_iff _ _ _).mp h
    obtain ⟨rfl, hne⟩ := (fileArgument_eq_ok_iff _ _ _).mp harg
    exact .load focus hpads hne
  -- The other words take no exclamation mark.
  rw [ite_eq_iff] at h
  rcases h with ⟨-, h⟩ | ⟨hfocus, h⟩
  · cases h
  obtain rfl : focus = false := Bool.eq_false_iff.mpr hfocus
  rw [ite_eq_iff] at h
  rcases h with ⟨rfl, h⟩ | ⟨-, h⟩
  · obtain rfl := Except.ok.inj h
    by_cases hne : rest.trim = []
    · rw [hne] at hpads
      rw [if_pos hne]
      exact .run ((Text.pads_nil_iff rest).mp hpads)
    · rw [if_neg hne]
      exact .runLine hpads hne
  rw [ite_eq_iff] at h
  rcases h with ⟨rfl, h⟩ | ⟨-, h⟩
  · obtain ⟨path, harg, rfl⟩ := (map_eq_ok_iff _ _ _).mp h
    obtain ⟨rfl, hne⟩ := (fileArgument_eq_ok_iff _ _ _).mp harg
    exact .openFile hpads hne
  rw [ite_eq_iff] at h
  rcases h with ⟨rfl, h⟩ | ⟨-, h⟩
  · cases hpos : readPosition rest.trim with
    | error reason =>
      rw [hpos] at h
      cases h
    | ok pos =>
      rw [hpos] at h
      obtain rfl := Except.ok.inj h
      exact .goto hpads ((readPosition_eq_ok_iff _ _).mp hpos)
  rw [ite_eq_iff] at h
  rcases h with ⟨rfl, h⟩ | ⟨-, h⟩
  · obtain rfl := Except.ok.inj h
    exact .switch rest
  rw [ite_eq_iff] at h
  rcases h with ⟨rfl, h⟩ | ⟨-, h⟩
  · obtain rfl := Except.ok.inj h
    exact .present rest
  rw [ite_eq_iff] at h
  rcases h with ⟨rfl, h⟩ | ⟨-, h⟩
  · obtain rfl := Except.ok.inj h
    exact .help rest
  rw [ite_eq_iff] at h
  rcases h with ⟨hquit, h⟩ | ⟨-, h⟩
  · obtain rfl := Except.ok.inj h
    rw [Bool.or_eq_true, decide_eq_true_iff, decide_eq_true_iff] at hquit
    rcases hquit with rfl | rfl
    · exact .quit rest
    · exact .exit rest
  · cases h

/-! The word at the beginning of a line -/

/-- A word is read whole: it has no blank, and no exclamation mark that is its own. -/
theorem Takes.isWord {name rest : Text} {focus : Bool} {c : Command}
    (h : Takes name focus rest c) : name ≠ [] ∧ name.Solid ∧ name.getLast? ≠ some '!' := by
  have hword : name ≠ [] ∧ (name.all fun ch => !isBlank ch) = true ∧ name.getLast? ≠ some '!' := by
    cases h <;> decide
  exact ⟨hword.1, (Text.solid_iff_all name).mpr hword.2.1, hword.2.2⟩

theorem splitBang_append {name : Text} (h : name.getLast? ≠ some '!') (focus : Bool) :
    splitBang (name ++ bang focus) = (name, focus) := by
  cases focus with
  | false => simp [splitBang, bang, h]
  | true => simp [splitBang, bang]

theorem append_splitBang (word : Text) :
    (splitBang word).1 ++ bang (splitBang word).2 = word := by
  unfold splitBang
  by_cases h : word.getLast? = some '!'
  · rw [if_pos h]
    obtain ⟨name, rfl⟩ := List.getLast?_eq_some_iff.mp h
    simp [bang]
  · rw [if_neg h]
    exact List.append_nil word

theorem solid_append_bang {name : Text} (h : name.Solid) (focus : Bool) :
    Text.Solid (name ++ bang focus) := by
  intro c hc
  rcases List.mem_append.mp hc with hname | hbang
  · exact h c hname
  · cases focus with
    | false => cases hbang
    | true =>
      obtain rfl := List.mem_singleton.mp hbang
      rfl

/-! Whole lines -/

theorem parse_of_blank {line : Text} (h : line.Blank) : parse line = .ok none := by
  rw [parse, if_pos ((Text.allBlank_iff line).mpr h)]

theorem parse_of_not_blank {line : Text} (h : ¬ line.Blank) :
    parse line = (ofWord line.trimStart.breakAtBlank.1 (splitBang line.trimStart.breakAtBlank.1).1
      (splitBang line.trimStart.breakAtBlank.1).2 line.trimStart.breakAtBlank.2).map some := by
  rw [parse, if_neg (mt (Text.allBlank_iff line).mp h)]

theorem parse_of_gives {line : Text} {c : Command} (h : Gives line c) :
    parse line = .ok (some c) := by
  obtain ⟨blanks, name, focus, tail, rest, hblanks, htail, rfl, htakes⟩ := h
  obtain ⟨hne, hsolid, hbang⟩ := htakes.isWord
  have hword : Text.Solid (name ++ bang focus) := solid_append_bang hsolid focus
  have hwordne : name ++ bang focus ≠ [] := by simp [hne]
  have hstarts : Unindented (name ++ bang focus ++ tail) :=
    (Text.unindented_append_iff hwordne tail).mpr hword.unindented
  have htrim : Text.trimStart (blanks ++ (name ++ bang focus) ++ tail) =
      name ++ bang focus ++ tail :=
    (Text.trimStart_eq_iff _ _).mpr ⟨blanks, hblanks, List.append_assoc .., hstarts⟩
  have hnotblank : ¬ Blank (blanks ++ (name ++ bang focus) ++ tail) := by
    intro hall
    obtain ⟨c, name, rfl⟩ := List.exists_cons_of_ne_nil hne
    have hc : isBlank c = true := hall c (by simp)
    rw [hsolid c List.mem_cons_self] at hc
    cases hc
  rw [parse_of_not_blank hnotblank, htrim, Text.breakAtBlank_append hword htail]
  dsimp only
  rw [splitBang_append hbang, ofWord_of_takes htakes]
  rfl

theorem gives_of_parse {line : Text} {c : Command} (h : parse line = .ok (some c)) :
    Gives line c := by
  have hnotblank : ¬ line.Blank := by
    intro hblank
    rw [parse_of_blank hblank] at h
    cases h
  rw [parse_of_not_blank hnotblank, map_eq_ok_iff] at h
  obtain ⟨c, hword, hc⟩ := h
  obtain rfl := Option.some.inj hc
  obtain ⟨blanks, hblanks, hline, -⟩ := (Text.trimStart_eq_iff line _).mp rfl
  obtain ⟨-, tail, htail, hstart⟩ := Text.leaves_breakAtBlank line.trimStart
  refine ⟨blanks, _, _, tail, _, hblanks, htail, ?_, takes_of_ofWord hword⟩
  rw [append_splitBang, List.append_assoc, ← hstart]
  exact hline

/-! Commands that are read back -/

theorem isReadable_of_gives {line : Text} {c : Command} (h : Gives line c) : c.IsReadable := by
  obtain ⟨_, _, _, _, _, _, _, _, htakes⟩ := h
  have hlimit {text : Text} {n : Nat} (h : IsPosition text n) : n < positionLimit := by
    obtain ⟨-, -, -, -, -, -, -, hlt⟩ := h
    exact hlt
  cases htakes with
  | runLine h hne => exact ⟨hne, h.tight⟩
  | send _ _ ht => exact ht
  | openFile h hne => exact ⟨hne, h.tight⟩
  | goto _ hn => exact hlimit hn
  | region _ _ ha hb => exact ⟨hlimit ha, hlimit hb⟩
  | load _ h hne => exact ⟨hne, h.tight⟩
  | _ => trivial

/-- What stands behind a word and a space is the argument. -/
theorem gives_of_takes {name argument : Text} {focus : Bool} {c : Command}
    (h : Takes name focus argument c) : Gives (name ++ bang focus ++ ' ' :: argument) c :=
  ⟨[], name, focus, ' ' :: argument, argument, Text.blank_nil, .rest isBlank_space argument, rfl, h⟩

theorem gives_of_takes_nil {name : Text} {focus : Bool} {c : Command}
    (h : Takes name focus [] c) : Gives (name ++ bang focus) c :=
  ⟨[], name, focus, [], [], Text.blank_nil, .nothing, by simp, h⟩

theorem isWord_writePosition (n : Nat) : Text.IsWord (writePosition n) :=
  ⟨Nat.toDigits_ne_nil, solid_writePosition n⟩

theorem splits_write (a b : Nat) :
    Splits (writePosition a ++ ' ' :: writePosition b) [writePosition a, writePosition b] := by
  have hwords : ∀ word ∈ [writePosition a, writePosition b], Text.IsWord word := by
    simp [isWord_writePosition]
  have hsplits := Text.splits_joinWith hwords
  simpa using hsplits

theorem gives_write {c : Command} (h : c.IsReadable) : Gives c.write c := by
  cases c with
  | run line =>
    cases line with
    | none => exact gives_of_takes_nil (.run Text.blank_nil)
    | some line => exact gives_of_takes (.runLine h.2.pads h.1)
  | send text focus => exact gives_of_takes (.send focus Text.blank_nil h)
  | openFile path => exact gives_of_takes (.openFile h.2.pads h.1)
  | goto pos =>
    exact gives_of_takes (.goto (solid_writePosition pos).tight.pads (isPosition_writePosition h))
  | region a b focus =>
    exact gives_of_takes (.region focus (splits_write a b) (isPosition_writePosition h.1)
      (isPosition_writePosition h.2))
  | last focus => exact gives_of_takes_nil (.last focus [])
  | buffer focus => exact gives_of_takes_nil (.buffer focus [])
  | load path focus => exact gives_of_takes (.load focus h.2.pads h.1)
  | switch => exact gives_of_takes_nil (.switch [])
  | present => exact gives_of_takes_nil (.present [])
  | help => exact gives_of_takes_nil (.help [])
  | quit => exact gives_of_takes_nil (.quit [])

/-- A line gives no command where it is blank, the command of its word and its rest where they give
one, and is an error otherwise. What is read is always a command that can be written back, and is
read back from there. -/
theorem parse_of_line :
    (∀ line : Text, (parse line = .ok none ↔ line.Blank) ∧
      (∀ c, parse line = .ok (some c) ↔ Gives line c) ∧
      ((∃ e, parse line = .error e) ↔ ¬ line.Blank ∧ ∀ c, ¬ Gives line c)) ∧
    (∀ line c, parse line = .ok (some c) → c.IsReadable) ∧
    ∀ c : Command, c.IsReadable → parse c.write = .ok (some c) := by
  have hgives (line : Text) (c : Command) : parse line = .ok (some c) ↔ Gives line c :=
    ⟨gives_of_parse, parse_of_gives⟩
  have hblank (line : Text) : parse line = .ok none ↔ line.Blank := by
    constructor
    · intro h
      by_contra hnotblank
      rw [parse_of_not_blank hnotblank, map_eq_ok_iff] at h
      obtain ⟨c, -, hc⟩ := h
      cases hc
    · exact parse_of_blank
  refine ⟨fun line => ⟨hblank line, hgives line, ?_⟩, ?_, ?_⟩
  · rw [← hblank line]
    simp only [← hgives line]
    cases parse line with
    | error e => simp
    | ok result => cases result <;> simp
  · exact fun line c h => isReadable_of_gives (gives_of_parse h)
  · exact fun c h => parse_of_gives (gives_write h)

example : parse " region!\t+3  04 ".toList = .ok (some (.region 3 4 true)) := by decide +kernel

end Parley.Command
