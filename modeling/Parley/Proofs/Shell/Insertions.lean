import Parley.Proofs.Shell.Scripts

/-! Lines put into a script that give no command. What a shell has printed has no bearing on what
it does (`runEntries_onto`), and a line without a command changes nothing else (`readLine_idle`).
So such lines leave a script to do what it did, and its output as it was but for their complaints
(`run_of_script`). -/
namespace Parley

def Command.complaint? (line : Text) : Option Piece :=
  match parse line with
  | .ok _ => none
  | .error e => some (.error e.message)

namespace Script

/-- Lines of a script, and lines that are put in behind them. -/
structure Passage where
  lines : List Text
  added : List Text
  deriving DecidableEq, Repr

/-- None of the lines says to quit, and those put in are blank or cannot be read. -/
structure Passage.Harmless (p : Passage) : Prop where
  goesOn : ∀ line ∈ p.lines, Command.ofLine? line ≠ some .quit
  idle : ∀ line ∈ p.added, Command.ofLine? line = none

def plain (passages : List Passage) (rest : List Text) : List Text :=
  passages.flatMap (·.lines) ++ rest

def padded (passages : List Passage) (rest : List Text) : List Text :=
  passages.flatMap (fun p => p.lines ++ p.added) ++ rest

def complaints (lines : List Text) : List Piece := lines.filterMap Command.complaint?

/-- What is printed in several passages, with the complaints about the lines put in behind each. -/
def answered (told : List (List Piece)) (passages : List Passage) : List Piece :=
  (List.zipWith (fun t p => t ++ complaints p.added) told passages).flatten

theorem plain_cons (p : Passage) (passages : List Passage) (rest : List Text) :
    plain (p :: passages) rest = p.lines ++ plain passages rest := by simp [plain]

theorem padded_cons (p : Passage) (passages : List Passage) (rest : List Text) :
    padded (p :: passages) rest = p.lines ++ (p.added ++ padded passages rest) := by
  simp [padded]

end Script

namespace Shell

/-- The shell, had it printed something before all that it has. -/
def onto (s : Shell) (before : List Piece) : Shell := { s with printed := before ++ s.printed }

def bare (s : Shell) : Shell := { s with printed := [] }

@[simp] theorem onto_desk (s : Shell) (before : List Piece) : (s.onto before).desk = s.desk := rfl
@[simp] theorem onto_files (s : Shell) (before : List Piece) :
    (s.onto before).files = s.files := rfl
@[simp] theorem onto_seen (s : Shell) (before : List Piece) : (s.onto before).seen = s.seen := rfl
@[simp] theorem onto_arrivals (s : Shell) (before : List Piece) :
    (s.onto before).arrivals = s.arrivals := rfl
@[simp] theorem onto_sessionBuffer? (s : Shell) (before : List Piece) :
    (s.onto before).sessionBuffer? = s.sessionBuffer? := rfl

theorem bare_onto (s : Shell) : s.bare.onto s.printed = s := by
  rw [onto, bare, List.append_nil]

/-! What was printed before makes no difference. -/

theorem print_onto (s : Shell) (before : List Piece) (piece : Piece) :
    (s.onto before).print piece = ((s.print piece).1, (s.print piece).2.onto before) := by
  unfold print
  cases h : s.closed <;> simp [onto, h]

theorem run_onto (s : Shell) (before : List Piece) (line : Option Text) :
    (s.onto before).run line = ((s.run line).1, (s.run line).2.onto before) := by
  have hdesk : (s.onto before).atDesk (s.desk.ensure line false) =
      ((s.atDesk (s.desk.ensure line false)).1,
        (s.atDesk (s.desk.ensure line false)).2.onto before) := rfl
  unfold run
  rw [onto_desk, hdesk]
  cases s.atDesk (s.desk.ensure line false) with
  | mk result t =>
    cases result with
    | error t => rfl
    | ok handle => simp only [print_onto, goOn]

theorem present_onto (s : Shell) (before : List Piece) :
    (s.onto before).present = (s.present.1, s.present.2.onto before) := by
  unfold present
  rw [onto_desk, onto_sessionBuffer?]
  split
  · rfl
  · rfl
  · simp only [print_onto, goOn]

theorem execute_onto (s : Shell) (before : List Piece) (c : Command) :
    (s.onto before).execute c = ((s.execute c).1, (s.execute c).2.onto before) := by
  cases c with
  | run line => exact s.run_onto before line
  | openFile path =>
    simp only [execute]
    rw [onto_files]
    cases s.files.readText (Utf8.encode path) <;> rfl
  | present => exact s.present_onto before
  | help => simp only [execute, print_onto, goOn]
  | send | goto | region | last | buffer | load | switch | quit => rfl

theorem echo_onto (s : Shell) (before : List Piece) :
    (s.onto before).echo = (s.echo.1, s.echo.2.onto before) := by
  unfold echo
  rw [onto_sessionBuffer?]
  cases s.sessionBuffer? with
  | none => rfl
  | some shown =>
    dsimp only
    rw [onto_desk, onto_seen]
    split
    · rfl
    · rw [print_onto]
      cases hc : s.closed with
      | true => simp [print, hc]
      | false => simp [print, hc, onto]

theorem happen_onto (s : Shell) (before : List Piece) (h : Happening) :
    (s.onto before).happen h = (s.happen h).onto before := rfl

theorem foldl_happen_onto (s : Shell) (before : List Piece) (happenings : List Happening) :
    happenings.foldl happen (s.onto before) = (happenings.foldl happen s).onto before := by
  induction happenings generalizing s with
  | nil => rfl
  | cons h rest ih => rw [List.foldl_cons, happen_onto, ih, List.foldl_cons]

theorem pause_onto (s : Shell) (before : List Piece) (length : Nat) :
    (s.onto before).pause length = (s.pause length).onto before := by
  unfold pause
  rw [onto_arrivals]
  dsimp only
  cases s.arrivals with
  | nil => rfl
  | cons now later =>
    exact foldl_happen_onto { s with silence := s.silence.map (· + length), arrivals := later }
      before now

theorem beat_onto (s : Shell) (before : List Piece) (b : Beat) :
    (s.onto before).beat b = (s.beat b).onto before := by
  cases b with
  | execute c => exact congrArg Prod.snd (s.execute_onto before c)
  | echo => exact congrArg Prod.snd (s.echo_onto before)
  | report message => exact congrArg Prod.snd (s.print_onto before (.error message))
  | hush => rfl
  | pause length => exact s.pause_onto before length
  | happening happened => rfl

theorem beats_onto (s : Shell) (before : List Piece) (beats : List Beat) :
    (s.onto before).beats beats = (s.beats beats).onto before := by
  induction beats generalizing s with
  | nil => rfl
  | cons b rest ih => rw [beats_cons, beat_onto, ih, beats_cons]

theorem waitBeats_onto (limit left : Nat) (s : Shell) (before : List Piece) :
    waitBeats limit left (s.onto before) = waitBeats limit left s := by
  induction left generalizing s with
  | zero =>
    rw [waitBeats, waitBeats, beat_onto]
    rfl
  | succ left ih =>
    rw [waitBeats, waitBeats, beat_onto, beat_onto, ih]
    rfl

theorem afterBeats_onto (s : Shell) (before : List Piece) (c : Command) :
    (s.onto before).afterBeats c = s.afterBeats c := by
  rw [afterBeats, afterBeats, execute_onto]
  cases s.execute c with
  | mk result done =>
    cases result with
    | error t => rfl
    | ok flow =>
      cases flow with
      | quit => rfl
      | goOn =>
        dsimp only
        rw [beat_onto, settleBeats, settleBeats, waitBeats_onto]
        rfl

theorem lineBeats_onto (s : Shell) (before : List Piece) (line : Bytes) :
    (s.onto before).lineBeats line = s.lineBeats line := by
  unfold lineBeats
  simp only [afterBeats_onto]

theorem readLine_onto {s : Shell} (hopen : s.closed = false) (before : List Piece)
    (line : Text) :
    (s.onto before).readLine (Utf8.encode line) =
      ((s.readLine (Utf8.encode line)).1, (s.readLine (Utf8.encode line)).2.onto before) := by
  refine Prod.ext ?_ ?_
  · rw [@fst_readLine (s.onto before) hopen, fst_readLine hopen]
  · rw [@readLine_of_open (s.onto before) hopen, readLine_of_open hopen, lineBeats_onto,
      beats_onto]

/-- What a shell has printed has no bearing on what it does. -/
theorem runEntries_onto {s : Shell} (hopen : s.closed = false) (before : List Piece)
    (lines : List Text) :
    (s.onto before).runEntries (lines.map .ofText) =
      ((s.runEntries (lines.map .ofText)).1,
        (s.runEntries (lines.map .ofText)).2.onto before) := by
  induction lines generalizing s with
  | nil =>
    simp only [List.map_nil, runEntries, settle]
    rw [@wait_of_open (s.onto before) hopen, wait_of_open hopen, waitBeats_onto, beats_onto]
    rfl
  | cons line lines ih =>
    rw [List.map_cons, @runEntries_ofText_cons (s.onto before) hopen,
      runEntries_ofText_cons hopen, readLine_onto hopen]
    split
    · rfl
    · exact ih (closed_readLine hopen _)

/-! Lines read with none that says to quit -/

/-- Reads lines, one after another. -/
def readAll (s : Shell) (lines : List Text) : Shell :=
  lines.foldl (fun s line => (s.readLine (Utf8.encode line)).2) s

theorem closed_readAll {s : Shell} (hopen : s.closed = false) (lines : List Text) :
    (s.readAll lines).closed = false := by
  induction lines generalizing s with
  | nil => exact hopen
  | cons line lines ih => exact ih (closed_readLine hopen _)

theorem readAll_onto {s : Shell} (hopen : s.closed = false) (before : List Piece)
    (lines : List Text) : (s.onto before).readAll lines = (s.readAll lines).onto before := by
  induction lines generalizing s with
  | nil => rfl
  | cons line lines ih =>
    have hline := congrArg Prod.snd (readLine_onto hopen before line)
    rw [readAll, List.foldl_cons, hline]
    exact ih (closed_readLine hopen _)

theorem runEntries_append {s : Shell} (hopen : s.closed = false) {lines : List Text}
    (h : ∀ line ∈ lines, Command.ofLine? line ≠ some .quit) (rest : List Text) :
    s.runEntries ((lines ++ rest).map .ofText) =
      (s.readAll lines).runEntries (rest.map .ofText) := by
  induction lines generalizing s with
  | nil => rfl
  | cons line lines ih =>
    rw [List.forall_mem_cons] at h
    rw [List.cons_append, List.map_cons, runEntries_ofText_cons hopen, if_neg h.1]
    exact ih (closed_readLine hopen _) h.2

/-- A line that gives no command is at most complained about. -/
theorem readLine_idle {s : Shell} (hopen : s.closed = false) {line : Text}
    (h : Command.ofLine? line = none) :
    (s.readLine (Utf8.encode line)).2 =
      { s with printed := s.printed ++ (Command.complaint? line).toList } := by
  rw [readLine_of_open hopen, lineBeats, Utf8.decode?_encode, Command.complaint?]
  rw [Command.ofLine?] at h
  dsimp only
  cases hp : Command.parse line with
  | error e => exact congrArg Prod.snd (print_of_open hopen (.error e.message))
  | ok command? =>
    rw [hp] at h
    obtain rfl : command? = none := h
    simp

theorem readAll_idle {s : Shell} (hopen : s.closed = false) {lines : List Text}
    (h : ∀ line ∈ lines, Command.ofLine? line = none) :
    s.readAll lines = { s with printed := s.printed ++ Script.complaints lines } := by
  induction lines generalizing s with
  | nil => simp [readAll, Script.complaints]
  | cons line lines ih =>
    rw [List.forall_mem_cons] at h
    rw [readAll, List.foldl_cons, readLine_idle hopen h.1]
    refine (@ih { s with printed := s.printed ++ _ } hopen h.2).trans ?_
    rw [Script.complaints, Script.complaints, List.filterMap_cons]
    cases Command.complaint? line <;> simp

/-- The lines, read by a shell that has printed nothing yet. -/
theorem readAll_bare {s : Shell} (hopen : s.closed = false) (lines : List Text) :
    s.readAll lines = (s.bare.readAll lines).bare.onto
      (s.printed ++ (s.bare.readAll lines).printed) := by
  have honto := @readAll_onto s.bare hopen s.printed lines
  rw [bare_onto] at honto
  rw [honto]
  simp [onto, bare]

section Passages

variable {s : Shell} (hopen : s.closed = false) {p : Script.Passage}
include hopen

theorem runEntries_plain_cons (h : p.Harmless) (passages : List Script.Passage)
    (rest : List Text) :
    s.runEntries ((Script.plain (p :: passages) rest).map .ofText) =
      ((s.bare.readAll p.lines).bare.onto
        (s.printed ++ (s.bare.readAll p.lines).printed)).runEntries
          ((Script.plain passages rest).map .ofText) := by
  rw [Script.plain_cons, runEntries_append hopen h.goesOn, readAll_bare hopen]

theorem runEntries_padded_cons (h : p.Harmless) (passages : List Script.Passage)
    (rest : List Text) :
    s.runEntries ((Script.padded (p :: passages) rest).map .ofText) =
      ((s.bare.readAll p.lines).bare.onto
        (s.printed ++ (s.bare.readAll p.lines).printed ++ Script.complaints p.added)).runEntries
          ((Script.padded passages rest).map .ofText) := by
  have hgoesOn : ∀ line ∈ p.added, Command.ofLine? line ≠ some .quit := fun line hline =>
    (h.idle line hline).symm ▸ nofun
  have hadded : (s.readAll p.lines).readAll p.added = (s.bare.readAll p.lines).bare.onto
      (s.printed ++ (s.bare.readAll p.lines).printed ++ Script.complaints p.added) := by
    rw [readAll_idle (closed_readAll hopen _) h.idle, readAll_bare hopen]
    simp [onto, bare]
  rw [Script.padded_cons, runEntries_append hopen h.goesOn,
    runEntries_append (closed_readAll hopen _) hgoesOn, hadded]

theorem printed_readAll_append (lines more : List Text) :
    (s.readAll (lines ++ more)).printed =
      s.printed ++ (s.bare.readAll lines).printed ++
        ((s.bare.readAll lines).bare.readAll more).printed := by
  have happend : s.readAll (lines ++ more) = (s.readAll lines).readAll more :=
    List.foldl_append
  rw [happend, readAll_bare hopen,
    @readAll_onto (s.bare.readAll lines).bare (@closed_readAll s.bare hopen lines)]
  rfl

end Passages

/-- Lines put in leave a script to do what it did and to print what it printed, but for a complaint
about each where it stands. -/
theorem runEntries_padded {s : Shell} (hopen : s.closed = false)
    {passages : List Script.Passage} (h : ∀ p ∈ passages, p.Harmless) (rest : List Text) :
    ∃ (told : List (List Piece)) (final : List Piece),
      told.length = passages.length ∧
      (∀ k, (s.readAll ((passages.take k).flatMap (·.lines))).printed =
        s.printed ++ (told.take k).flatten) ∧
      (s.runEntries ((Script.plain passages rest).map .ofText)).2.printed =
        s.printed ++ told.flatten ++ final ∧
      s.runEntries ((Script.padded passages rest).map .ofText) =
        ((s.runEntries ((Script.plain passages rest).map .ofText)).1,
          { (s.runEntries ((Script.plain passages rest).map .ofText)).2 with
            printed := s.printed ++ Script.answered told passages ++ final }) := by
  induction passages generalizing s with
  | nil =>
    have hrun := @runEntries_onto s.bare hopen s.printed rest
    rw [bare_onto] at hrun
    refine ⟨[], (s.bare.runEntries (rest.map .ofText)).2.printed, rfl, ?_, ?_, ?_⟩
    · simp [readAll]
    · simp [Script.plain, hrun, onto]
    · simp [Script.plain, Script.padded, Script.answered, hrun, onto]
  | cons p passages ih =>
    rw [List.forall_mem_cons] at h
    -- The rest is read by a shell that has printed nothing since this passage.
    let told := (s.bare.readAll p.lines).printed
    let t := (s.bare.readAll p.lines).bare
    have ht : t.closed = false := @closed_readAll s.bare hopen p.lines
    obtain ⟨others, final, hlength, hplaces, hprinted, hrun⟩ := @ih t ht h.2
    have hplain := runEntries_plain_cons hopen h.1 passages rest
    rw [runEntries_onto ht] at hplain
    have hpadded := runEntries_padded_cons hopen h.1 passages rest
    rw [runEntries_onto ht, hrun] at hpadded
    refine ⟨told :: others, final, congrArg (· + 1) hlength, fun k => ?_, ?_, ?_⟩
    · cases k with
      | zero => simp [readAll]
      | succ k =>
        rw [List.take_succ_cons, List.flatMap_cons, printed_readAll_append hopen, hplaces k]
        simp [told, t, bare]
    · rw [hplain]
      dsimp only [onto]
      rw [hprinted]
      simp [told, t, bare]
    · rw [hpadded, hplain]
      simp [onto, told, t, bare, Script.answered]

/-- Reading a script comes to nothing else at the desk than the commands of its lines, up to the
first that says to quit, whether they fail or not; and lines put in before that one, blank or not
to be read, change nothing but what is printed, where each of the latter is complained about in its
place. -/
theorem run_of_script {s : Shell} (hopen : s.closed = false) {input : List Supply}
    {lines : List Text} (hinput : Script.entries input = lines.map .ofText) :
    (s.runScript input).1 = .ok () ∧
    (s.Still → (s.runScript input).2.desk = (s.executeAll (Script.commands lines)).desk) ∧
    ∀ (passages : List Script.Passage) (rest : List Text) (input' : List Supply),
      lines = Script.plain passages rest →
      Script.entries input' = (Script.padded passages rest).map .ofText →
      (∀ p ∈ passages, p.Harmless) →
      ∃ (told : List (List Piece)) (final : List Piece),
        told.length = passages.length ∧
        (∀ k, (s.readAll ((passages.take k).flatMap (·.lines))).printed =
          s.printed ++ (told.take k).flatten) ∧
        (s.runScript input).2.printed = s.printed ++ told.flatten ++ final ∧
        s.runScript input' =
          (.ok (), { (s.runScript input).2 with
            printed := s.printed ++ Script.answered told passages ++ final }) := by
  have hrun : s.runScript input = s.runEntries (lines.map .ofText) := congrArg _ hinput
  have hok : (s.runEntries (lines.map .ofText)).1 = .ok () := fst_runEntries hopen lines
  rw [hrun]
  refine ⟨hok, fun hstill => desk_runEntries hopen hstill lines, ?_⟩
  rintro passages rest input' rfl hinput' hharmless
  have hrun' : s.runScript input' = s.runEntries ((Script.padded passages rest).map .ofText) :=
    congrArg _ hinput'
  obtain ⟨told, final, hlength, hplaces, hprinted, hpadded⟩ :=
    runEntries_padded hopen hharmless rest
  refine ⟨told, final, hlength, hplaces, hprinted, ?_⟩
  rw [hrun', hpadded, hok]

/-- Every interpreter greets, and refuses the first that is written to it. -/
def reluctantly : Interpreter.Launcher := fun _ _ =>
  .ok {
    opening := some [.data (Utf8.encode "> ".toList)]
    reactions := [.refuse "refused".toList, .respond [.data (Utf8.encode "2\n".toList)]] }

def reluctant : Shell := { desk := .fresh reluctantly {} {} [], files := ⟨[], []⟩ }

def interruptions : List Script.Passage :=
  [⟨["send 1".toList], ["".toList, "bogus".toList]⟩, ⟨["goto 1".toList], ["goto x".toList]⟩]

def ending : List Text := ["send 2".toList, "quit".toList, "send 3".toList]

def typed (lines : List Text) : List Supply :=
  [.octets (Utf8.encode (lines.flatMap (· ++ ['\n'])))]

/-- The greeting is not echoed yet when the first complaint is printed. -/
theorem run_of_script_interrupted :
    let run := reluctant.runScript (typed (Script.plain interruptions ending))
    let interrupted := reluctant.runScript (typed (Script.padded interruptions ending))
    run.1 = .ok () ∧
      run.2.desk =
        (reluctant.executeAll (Script.commands (Script.plain interruptions ending))).desk ∧
      interrupted = (.ok (), { run.2 with printed := interrupted.2.printed }) ∧
      printedText none run.2.printed =
        "error: interpreter I/O error: refused: refused\n> 2\n".toList ∧
      printedText none interrupted.2.printed =
        ("error: interpreter I/O error: refused: refused\n" ++
          "error: unknown command: bogus (try \x60help\x60)\n> " ++
          "error: goto: invalid position \"x\"\n2\n").toList := by
  intro run interrupted
  have hinput : Script.entries (typed (Script.plain interruptions ending)) =
      (Script.plain interruptions ending).map .ofText := by decide +kernel
  obtain ⟨hok, hdesk, hpadded⟩ := @run_of_script reluctant rfl _ _ hinput
  have hharmless : ∀ p ∈ interruptions, p.Harmless := by
    simp only [interruptions, List.forall_mem_cons]
    exact ⟨⟨by decide +kernel, by decide +kernel⟩, ⟨by decide +kernel, by decide +kernel⟩, nofun⟩
  obtain ⟨told, final, -, -, -, hinterrupted⟩ :=
    hpadded interruptions ending (typed (Script.padded interruptions ending)) rfl
      (by decide +kernel) hharmless
  have hprinted : interrupted.2.printed =
      reluctant.printed ++ Script.answered told interruptions ++ final :=
    congrArg (fun p => p.2.printed) hinterrupted
  refine ⟨hok, hdesk nofun, ?_, by decide +kernel, by decide +kernel⟩
  rw [hprinted]
  exact hinterrupted

end Shell
end Parley
