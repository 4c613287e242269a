import Parley.Proofs.Shell.Runs
import Parley.Proofs.Utf8.Strict

/-! What a script does at the desk. A command comes to a deed there or to nothing (`does_execute`),
and what the shell does besides carrying out commands comes to nothing, as long as nothing happens
on its own while it waits (`does_beat`). So a script does what the commands of its lines do, one
after another up to the first that says to quit (`does_runEntries`). -/
namespace Parley

def Entry.ofText (line : Text) : Entry := .line (Utf8.encode line)

namespace Command

def ofLine? (line : Text) : Option Command :=
  match parse line with
  | .ok c => c
  | .error _ => none

/-- What a command does at a desk, failing or not. -/
def deed? (files : Files) : Command → Option Deed
  | run line => some (.ensure line false)
  | send text focus => some (.send (.text text) focus)
  | openFile path =>
    match files.readText (Utf8.encode path) with
    | .error _ => none
    | .ok text => some (.edit (.openText path text))
  | goto pos => some (.edit (.setPoint pos))
  | region a b focus => some (.send (.region a b) focus)
  | last focus => some (.send .expression focus)
  | buffer focus => some (.send .buffer focus)
  | load path focus => some (.send (.file (Utf8.encode path)) focus)
  | switch => some (.switch true)
  | present => none
  | help => none
  | quit => none

end Command

namespace Script

/-- The commands that a script gives before the first that says to quit. -/
def commands (lines : List Text) : List Command :=
  (lines.filterMap Command.ofLine?).takeWhile (· ≠ .quit)

theorem commands_cons (line : Text) (lines : List Text) :
    commands (line :: lines) =
      match Command.ofLine? line with
      | none => commands lines
      | some c => if c = .quit then [] else c :: commands lines := by
  rw [commands, List.filterMap_cons]
  cases Command.ofLine? line with
  | none => rfl
  | some c =>
    by_cases hc : c = .quit
    · simp [hc]
    · simp [hc, commands]

def deeds (files : Files) (cs : List Command) : List Deed :=
  cs.flatMap fun c => (c.deed? files).toList

theorem deeds_cons (files : Files) (c : Command) (cs : List Command) :
    deeds files (c :: cs) = (c.deed? files).toList ++ deeds files cs := List.flatMap_cons

end Script

/-- Whether a beat is neither a command nor something that happens on its own. -/
def Beat.isIdle : Beat → Bool
  | .execute _ => false
  | .happening _ => false
  | _ => true

namespace Shell

def executeAll (s : Shell) (cs : List Command) : Shell := cs.foldl (fun s c => (s.execute c).2) s

/-- Nothing will happen on its own while the shell waits. -/
def Still (s : Shell) : Prop := ∀ now ∈ s.arrivals, now = []

/-- The shell has done these deeds at its desk, and otherwise only kept its own books. -/
structure Does (s t : Shell) (deeds : List Deed) : Prop where
  desk : t.desk = s.desk.run deeds
  files : t.files = s.files
  closed : t.closed = s.closed
  still : s.Still → t.Still

theorem Does.refl (s : Shell) : Does s s [] := ⟨rfl, rfl, rfl, id⟩

theorem Does.trans {s t u : Shell} {a b : List Deed} (h : Does s t a) (h' : Does t u b) :
    Does s u (a ++ b) where
  desk := by rw [h'.desk, h.desk, Desk.run_append]
  files := h'.files.trans h.files
  closed := h'.closed.trans h.closed
  still hs := h'.still (h.still hs)

theorem does_desk (s : Shell) (deed : Deed) :
    Does s { s with desk := s.desk.perform deed } [deed] := ⟨rfl, rfl, rfl, id⟩

theorem does_print (s : Shell) (piece : Piece) : Does s (s.print piece).2 [] := by
  unfold print
  split
  · exact .refl s
  · exact ⟨rfl, rfl, rfl, id⟩

theorem does_run (s : Shell) (line : Option Text) :
    Does s (s.run line).2 [.ensure line false] := by
  have hensured : Does s (s.atDesk (s.desk.ensure line false)).2 [.ensure line false] :=
    s.does_desk (.ensure line false)
  unfold run
  cases h : s.atDesk (s.desk.ensure line false) with
  | mk result t =>
    rw [h] at hensured
    cases result with
    | error t => exact hensured
    | ok handle => exact hensured.trans (t.does_print (.ready handle))

theorem does_present (s : Shell) : Does s s.present.2 [] := by
  unfold present
  split
  · exact .refl s
  · exact .refl s
  · exact s.does_print _

theorem does_execute (s : Shell) (c : Command) :
    Does s (s.execute c).2 (c.deed? s.files).toList := by
  cases c with
  | run line => exact s.does_run line
  | send text focus => exact s.does_desk (.send (.text text) focus)
  | openFile path =>
    simp only [execute, Command.deed?]
    cases s.files.readText (Utf8.encode path) with
    | error reason => exact .refl s
    | ok text => exact s.does_desk (.edit (.openText path text))
  | goto pos => exact s.does_desk (.edit (.setPoint pos))
  | region a b focus => exact s.does_desk (.send (.region a b) focus)
  | last focus => exact s.does_desk (.send .expression focus)
  | buffer focus => exact s.does_desk (.send .buffer focus)
  | load path focus => exact s.does_desk (.send (.file (Utf8.encode path)) focus)
  | switch => exact s.does_desk (.switch true)
  | present => exact s.does_present
  | help => exact s.does_print .help
  | quit => exact .refl s

theorem does_executeAll (s : Shell) (cs : List Command) :
    Does s (s.executeAll cs) (Script.deeds s.files cs) := by
  induction cs generalizing s with
  | nil => exact .refl s
  | cons c cs ih =>
    have hfirst := s.does_execute c
    have hrest := ih (s.execute c).2
    rw [hfirst.files] at hrest
    rw [Script.deeds_cons]
    exact hfirst.trans hrest

/-! Echoing, reporting and waiting -/

theorem does_echo (s : Shell) : Does s s.echo.2 [] := by
  unfold echo
  split
  · exact .refl s
  · dsimp only
    split
    · exact ⟨rfl, rfl, rfl, id⟩
    · split
      · exact .refl s
      · exact ⟨rfl, rfl, rfl, id⟩

theorem does_pause {s : Shell} (h : s.Still) (length : Nat) : Does s (s.pause length) [] := by
  unfold pause
  dsimp only
  split
  · exact ⟨rfl, rfl, rfl, id⟩
  · rename_i now later harrivals
    rw [Still, harrivals, List.forall_mem_cons] at h
    rw [h.1]
    exact ⟨rfl, rfl, rfl, fun _ => h.2⟩

theorem does_beat {s : Shell} (h : s.Still) {b : Beat} (hb : b.isIdle = true) :
    Does s (s.beat b) [] := by
  cases b with
  | execute c => cases hb
  | echo => exact s.does_echo
  | report message => exact s.does_print (.error message)
  | hush => exact ⟨rfl, rfl, rfl, id⟩
  | pause length => exact does_pause h length
  | happening happened => cases hb

theorem does_beats {s : Shell} (h : s.Still) {beats : List Beat}
    (hb : ∀ b ∈ beats, b.isIdle = true) : Does s (s.beats beats) [] := by
  induction beats generalizing s with
  | nil => exact .refl s
  | cons b rest ih =>
    rw [List.forall_mem_cons] at hb
    have hfirst := does_beat h hb.1
    exact hfirst.trans (ih (hfirst.still h) hb.2)

theorem isIdle_of_mem_waitBeats (limit left : Nat) (s : Shell) :
    ∀ b ∈ waitBeats limit left s, b.isIdle = true := by
  fun_induction waitBeats limit left s with
  | case1 | case3 | case4 => simp [Beat.isIdle]
  | case2 => simp [Beat.isIdle]
  | case5 s told _ _ _ left ih => simpa [Beat.isIdle] using ih

theorem isIdle_of_mem_afterBeats (s : Shell) (c : Command) :
    ∀ b ∈ s.afterBeats c, b.isIdle = true := by
  unfold afterBeats
  split
  · simp [Beat.isIdle]
  · simp
  · split
    · rw [List.forall_mem_cons]
      exact ⟨rfl, isIdle_of_mem_waitBeats _ _ _⟩
    · simp [Beat.isIdle]

theorem does_settle {s : Shell} (hopen : s.closed = false) (h : s.Still) (limit : Nat) :
    Does s (s.settle limit).2 [] := by
  rw [settle, wait_of_open hopen]
  exact does_beats h (isIdle_of_mem_waitBeats _ _ _)

/-! Lines -/

theorem does_readLine {s : Shell} (hopen : s.closed = false) (h : s.Still) (line : Text) :
    Does s (s.readLine (Utf8.encode line)).2
      ((Command.ofLine? line).bind (·.deed? s.files)).toList := by
  rw [readLine_of_open hopen, lineBeats, Utf8.decode?_encode, Command.ofLine?]
  dsimp only
  cases Command.parse line with
  | error e => exact @does_beat s h (.report e.message) rfl
  | ok command? =>
    cases command? with
    | none => exact .refl s
    | some c =>
      have hdone : Does s (s.beat (.execute c)) (c.deed? s.files).toList := s.does_execute c
      have hafter := hdone.trans (does_beats (hdone.still h) (s.isIdle_of_mem_afterBeats c))
      rw [List.append_nil] at hafter
      exact hafter

theorem fst_reportError {s : Shell} (hopen : s.closed = false) (message : Text) :
    (s.reportError message).1 = .ok .goOn := by
  rw [reportError, print_of_open hopen]
  rfl

theorem fst_obey {s : Shell} (hopen : s.closed = false) (c : Command) :
    (s.obey c).1 = .ok (if c = .quit then .quit else .goOn) := by
  have hclosed : (s.execute c).2.closed = false := (s.does_execute c).closed.trans hopen
  by_cases hc : c = .quit
  · subst hc
    rfl
  · rw [if_neg hc, obey]
    cases he : s.execute c with
    | mk result done =>
      rw [he] at hclosed
      cases result with
      | error t => exact fst_reportError hclosed t.chain
      | ok flow =>
        cases flow with
        | quit => exact absurd (eq_quit_of_execute (congrArg Prod.fst he)) hc
        | goOn =>
          dsimp only
          split
          · rw [settle, @wait_of_open { done with silence := none } hclosed]
            rfl
          · rw [echo_of_open hclosed]
            rfl

/-- A line never makes a run fail, and ends it where it says to quit. -/
theorem fst_readLine {s : Shell} (hopen : s.closed = false) (line : Text) :
    (s.readLine (Utf8.encode line)).1 =
      .ok (if Command.ofLine? line = some .quit then .quit else .goOn) := by
  rw [readLine, Utf8.decode?_encode, Command.ofLine?]
  dsimp only
  cases Command.parse line with
  | error e => exact fst_reportError hopen e.message
  | ok command? =>
    cases command? with
    | none => rfl
    | some c =>
      dsimp only
      rw [fst_obey hopen]
      simp

theorem closed_readLine {s : Shell} (hopen : s.closed = false) (line : Bytes) :
    (s.readLine line).2.closed = false := by
  rw [readLine_of_open hopen, closed_beats, hopen]

theorem runEntries_ofText_cons {s : Shell} (hopen : s.closed = false) (line : Text)
    (rest : List Entry) :
    s.runEntries (.ofText line :: rest) =
      if Command.ofLine? line = some .quit then (.ok (), (s.readLine (Utf8.encode line)).2)
      else (s.readLine (Utf8.encode line)).2.runEntries rest := by
  have hresult := fst_readLine hopen line
  rw [Entry.ofText, runEntries]
  cases hl : s.readLine (Utf8.encode line) with
  | mk result next =>
    rw [hl] at hresult
    dsimp only at hresult
    rw [hresult]
    by_cases hquit : Command.ofLine? line = some .quit
    · simp [hquit]
    · simp [hquit]

/-- A script is read to its end or to the first line that says to quit. -/
theorem fst_runEntries {s : Shell} (hopen : s.closed = false) (lines : List Text) :
    (s.runEntries (lines.map .ofText)).1 = .ok () := by
  induction lines generalizing s with
  | nil => exact congrArg Prod.fst (wait_of_open hopen _ _)
  | cons line lines ih =>
    rw [List.map_cons, runEntries_ofText_cons hopen]
    split
    · rfl
    · exact ih (closed_readLine hopen _)

/-- What a script does at the desk is what the commands before the first quit do. -/
theorem does_runEntries {s : Shell} (hopen : s.closed = false) (h : s.Still) (lines : List Text) :
    Does s (s.runEntries (lines.map .ofText)).2
      (Script.deeds s.files (Script.commands lines)) := by
  induction lines generalizing s with
  | nil => exact does_settle hopen h _
  | cons line lines ih =>
    have hline := does_readLine hopen h line
    have hrest := ih (hline.closed.trans hopen) (hline.still h)
    rw [hline.files] at hrest
    rw [List.map_cons, runEntries_ofText_cons hopen, Script.commands_cons]
    cases hc : Command.ofLine? line with
    | none =>
      rw [hc] at hline
      exact hline.trans hrest
    | some c =>
      rw [hc] at hline
      by_cases hquit : c = .quit
      · subst hquit
        rw [if_pos rfl]
        exact hline
      · have hne : some c ≠ some Command.quit := fun heq => hquit (Option.some.inj heq)
        simp only [if_neg hquit, if_neg hne, Script.deeds_cons]
        exact hline.trans hrest

/-- Reading a script leaves the desk that its commands leave. -/
theorem desk_runEntries {s : Shell} (hopen : s.closed = false) (h : s.Still) (lines : List Text) :
    (s.runEntries (lines.map .ofText)).2.desk = (s.executeAll (Script.commands lines)).desk :=
  (does_runEntries hopen h lines).desk.trans (s.does_executeAll _).desk.symm

end Shell
end Parley
