import Parley.Proofs.Session.Succession
import Parley.Shell.Script

/-! What a shell does is a sequence of beats: it carries out a command, echoes, reports, or waits,
and things happen to the processes meanwhile. Only an echo prints output of a session; any other
beat is quiet and leaves alone what was echoed (`quiet_beat`). -/
namespace Parley

/-- The least that a shell does at a time. -/
inductive Beat where
  | execute (c : Command)
  | echo
  | report (message : Text)
  | hush
  | pause (length : Nat)
  | happening (h : Happening)
  deriving DecidableEq

def Piece.isEcho (id : Nat) : Piece → Bool
  | .echo sessionId _ => sessionId = id
  | _ => false

namespace Shell

open Desk (Leads)

def beat (s : Shell) : Beat → Shell
  | .execute c => (s.execute c).2
  | .echo => s.echo.2
  | .report message => (s.reportError message).2
  | .hush => { s with silence := none }
  | .pause length => s.pause length
  | .happening h => s.happen h

def beats (s : Shell) (beats : List Beat) : Shell := beats.foldl beat s

@[simp] theorem beats_nil (s : Shell) : s.beats [] = s := rfl
@[simp] theorem beats_cons (s : Shell) (b : Beat) (rest : List Beat) :
    s.beats (b :: rest) = (s.beat b).beats rest := rfl
theorem beats_append (s : Shell) (a b : List Beat) : s.beats (a ++ b) = (s.beats a).beats b := by
  simp [beats]

/-- All that was echoed of a session, in bare text. -/
def echoedText (s : Shell) (id : Nat) : Text := printedText none (s.printed.filter (·.isEcho id))

/-- Something was done other than an echo. -/
structure Quiet (s t : Shell) : Prop where
  leads : Leads s.desk t.desk
  echoed : t.echoed = s.echoed
  text : ∀ id, t.echoedText id = s.echoedText id
  closed : t.closed = s.closed

theorem Quiet.refl (s : Shell) : Quiet s s := ⟨.refl _, rfl, fun _ => rfl, rfl⟩

theorem Quiet.trans {s t u : Shell} (h : Quiet s t) (h' : Quiet t u) : Quiet s u where
  leads := h.leads.trans h'.leads
  echoed := h'.echoed.trans h.echoed
  text id := (h'.text id).trans (h.text id)
  closed := h'.closed.trans h.closed

theorem quiet_desk (s : Shell) {d : Desk} (h : Leads s.desk d) : Quiet s { s with desk := d } :=
  ⟨h, rfl, fun _ => rfl, rfl⟩

theorem quiet_deed (s : Shell) {deed : Deed} (hkeeps : deed.keepsBuffers = true) :
    Quiet s { s with desk := s.desk.perform deed } := s.quiet_desk (Desk.leads_perform s.desk hkeeps)

theorem quiet_print (s : Shell) {piece : Piece} (h : ∀ id, piece.isEcho id = false) :
    Quiet s (s.print piece).2 := by
  unfold print
  split
  · exact .refl s
  · refine ⟨.refl _, rfl, fun id => ?_, rfl⟩
    have hpiece : [piece].filter (·.isEcho id) = [] :=
      List.filter_cons_of_neg (by simp [h id])
    rw [echoedText, List.filter_append, hpiece, List.append_nil, echoedText]

theorem quiet_run (s : Shell) (line : Option Text) : Quiet s (s.run line).2 := by
  have hensured : Quiet s (s.atDesk (s.desk.ensure line false)).2 :=
    @quiet_deed s (.ensure line false) rfl
  unfold run
  cases h : s.atDesk (s.desk.ensure line false) with
  | mk result t =>
    rw [h] at hensured
    cases result with
    | error t => exact hensured
    | ok handle => exact hensured.trans (t.quiet_print fun _ => rfl)

theorem quiet_send (s : Shell) (e : Excerpt) (focus : Bool) : Quiet s (s.send e focus).2 :=
  @quiet_deed s (.send e focus) rfl

theorem quiet_present (s : Shell) : Quiet s s.present.2 := by
  unfold present
  split
  · exact .refl s
  · exact .refl s
  · exact s.quiet_print fun _ => rfl

theorem quiet_execute (s : Shell) (c : Command) : Quiet s (s.execute c).2 := by
  cases c with
  | run line => exact s.quiet_run line
  | send | region | last | buffer | load => exact s.quiet_send _ _
  | openFile path =>
    rw [execute]
    split
    · exact .refl s
    · rename_i text _
      exact @quiet_deed s (.edit (.openText path text)) rfl
  | goto pos => exact @quiet_deed s (.edit (.setPoint pos)) rfl
  | switch => exact @quiet_deed s (.switch true) rfl
  | present => exact s.quiet_present
  | help => exact s.quiet_print fun _ => rfl
  | quit => exact .refl s

theorem quiet_happen (s : Shell) (h : Happening) : Quiet s (s.happen h) :=
  @quiet_deed s (.events (h.process.getD (s.desk.pool.processes.length - 1)) h.events) rfl

theorem quiet_foldl_happen (s : Shell) (happenings : List Happening) :
    Quiet s (happenings.foldl happen s) := by
  induction happenings generalizing s with
  | nil => exact .refl s
  | cons h rest ih => exact (s.quiet_happen h).trans (ih _)

theorem quiet_pause (s : Shell) (length : Nat) : Quiet s (s.pause length) := by
  unfold pause
  dsimp only
  split
  · exact ⟨.refl _, rfl, fun _ => rfl, rfl⟩
  · rename_i now later _
    have hpassed : Quiet s
        { s with silence := s.silence.map (· + length), arrivals := later } :=
      ⟨.refl _, rfl, fun _ => rfl, rfl⟩
    exact hpassed.trans (quiet_foldl_happen _ now)

theorem quiet_beat (s : Shell) {b : Beat} (h : b ≠ .echo) : Quiet s (s.beat b) := by
  cases b with
  | execute c => exact s.quiet_execute c
  | echo => exact absurd rfl h
  | report message => exact s.quiet_print fun _ => rfl
  | hush => exact ⟨.refl _, rfl, fun _ => rfl, rfl⟩
  | pause length => exact s.quiet_pause length
  | happening happened => exact s.quiet_happen happened

/-! No beat closes the output, and while it is open no echo fails. -/

theorem echo_keeps (s : Shell) : s.echo.2.desk = s.desk ∧ s.echo.2.closed = s.closed := by
  unfold echo
  split
  · exact ⟨rfl, rfl⟩
  · dsimp only
    split
    · exact ⟨rfl, rfl⟩
    · split
      · exact ⟨rfl, rfl⟩
      · exact ⟨rfl, rfl⟩

theorem closed_beat (s : Shell) (b : Beat) : (s.beat b).closed = s.closed := by
  by_cases h : b = .echo
  · subst h
    exact s.echo_keeps.2
  · exact (s.quiet_beat h).closed

theorem closed_beats (s : Shell) (beats : List Beat) : (s.beats beats).closed = s.closed := by
  induction beats generalizing s with
  | nil => rfl
  | cons b rest ih => rw [beats_cons, ih, closed_beat]

theorem print_of_open {s : Shell} (h : s.closed = false) (piece : Piece) :
    s.print piece = (.ok (), { s with printed := s.printed ++ [piece] }) := by
  simp [print, h]

theorem echo_of_open {s : Shell} (h : s.closed = false) : s.echo = (.ok (), s.beat .echo) := by
  simp only [beat, echo, print_of_open h]
  split
  · rfl
  · split <;> rfl

end Shell
end Parley
