import Parley.Proofs.Editor.Attachment
import Parley.Proofs.Interpreter.Growth
import Parley.Proofs.Session.Steps

/-! What the buffer of the recorded session shows. Its transcript is that of the session's process
for as long as the buffer is not killed (`Shown`), and no operation takes anything back from a
transcript (`grows_perform`). -/
namespace Parley

namespace Editor

def source? (e : Editor) (name : Text) : Option Source :=
  (e.sessions.get? name).map SessionBuffer.source

theorem source?_eq (e : Editor) (name : Text) :
    e.source? name = (e.attachment? name).map Attachment.source := by
  rw [attachment?, Option.map_map]
  rfl

theorem source?_attach (e : Editor) (outputs : Outputs) (name : Text) (id : Nat)
    (mode : Terminal.Display) (source : Source) :
    (e.attach outputs name id mode source).source? name = some source := by
  simp [source?_eq, attachment?_attach]

@[simp] theorem source?_openText (e : Editor) (name text other : Text) :
    (e.openText name text).source? other = e.source? other := rfl

@[simp] theorem source?_focus (e : Editor) (name other : Text) :
    (e.focus name).source? other = e.source? other := by simp [source?_eq]

@[simp] theorem source?_setPoint (e : Editor) (outputs : Outputs) (pos : Nat) (name : Text) :
    (e.setPoint outputs pos).source? name = e.source? name := by simp [source?_eq]

@[simp] theorem source?_gotoEnd (e : Editor) (outputs : Outputs) (name : Text) :
    (e.gotoEnd outputs).source? name = e.source? name := source?_setPoint _ _ _ _

@[simp] theorem source?_pushMark (e : Editor) (name : Text) :
    e.pushMark.source? name = e.source? name := by simp [source?_eq]

end Editor

def Deed.keepsBuffers : Deed → Bool
  | .edit (.kill _) => false
  | _ => true

namespace Desk

open Interpreter (Pool Request)

/-- The buffer of the recorded session shows what its process prints. -/
def Shown (d : Desk) : Prop :=
  ∀ s, d.registry.recorded = some s → d.editor.source? s.handle.buffer = some (.process s.process)

theorem Shown.of_eq {a b : Desk} (h : a.Shown)
    (recorded : b.registry.recorded = a.registry.recorded)
    (sources : ∀ name, b.editor.source? name = a.editor.source? name) : b.Shown := by
  intro s hs
  rw [sources]
  exact h s (recorded ▸ hs)

theorem shown_start {d : Desk} (h : d.Shown) (request : Request) (mode : Terminal.Display) :
    (d.start request mode).2.Shown := by
  cases hl : d.pool.launcher d.pool.requests.length request with
  | error failure =>
    rw [start_of_error _ _ _ hl]
    exact h.of_eq rfl fun _ => rfl
  | ok b =>
    rw [start_of_ok _ _ _ hl]
    intro s hs
    obtain rfl := Option.some.inj hs
    exact Editor.source?_attach _ _ _ _ _ _

theorem shown_writeInput {d : Desk} (h : d.Shown) (handle : Handle) (data : Bytes) :
    (d.writeInput handle data).2.Shown := by
  rcases d.desk_writeInput handle data with same | ⟨n, written⟩
  · rwa [same]
  · rw [written]
    exact h.of_eq rfl fun _ => rfl

theorem law_shown : Law fun a b => a.Shown → b.Shown where
  refl _ h := h
  trans h h' := h' ∘ h
  configured _ _ h := h.of_eq rfl fun _ => rfl
  start _ request mode h := shown_start h request mode
  write _ handle data h := shown_writeInput h handle data
  focus _ _ h := h.of_eq rfl fun _ => Editor.source?_focus _ _ _
  pushMark _ h := h.of_eq rfl fun _ => Editor.source?_pushMark _ _
  gotoEnd _ h := h.of_eq rfl fun _ => Editor.source?_gotoEnd _ _ _
  events _ _ _ h := h.of_eq rfl fun _ => rfl

theorem Shown.perform {d : Desk} (h : d.Shown) {deed : Deed} (hkeeps : deed.keepsBuffers = true) :
    (d.perform deed).Shown := by
  refine law_shown.perform d (fun e he => ?_) h
  subst he
  cases e with
  | kill => cases hkeeps
  | openText | focus | setPoint | pushMark | gotoEnd =>
    exact fun h => h.of_eq rfl fun _ => by simp [Desk.perform, Editor.edit]

theorem grows_start (d : Desk) (request : Request) (mode : Terminal.Display) :
    d.pool.Grows (d.start request mode).2.pool := by
  have hlaunched := d.pool.grows_launch request mode
  cases hl : d.pool.launch request mode with
  | mk result pool =>
    rw [hl] at hlaunched
    cases result with
    | error e =>
      simp only [start, hl]
      exact hlaunched
    | ok launched =>
      simp only [start, hl]
      refine hlaunched.trans (.trans ?_ (Pool.grows_play _ _ _))
      unfold install
      split
      · exact Pool.grows_release _ _
      · exact .refl _

theorem grows_writeInput (d : Desk) (handle : Handle) (data : Bytes) :
    d.pool.Grows (d.writeInput handle data).2.pool := by
  rcases d.desk_writeInput handle data with same | ⟨n, written⟩
  · rw [same]
    exact .refl _
  · rw [written]
    exact d.pool.grows_write n data

theorem law_grows : Law fun a b => a.pool.Grows b.pool where
  refl _ := .refl _
  trans h h' := h.trans h'
  configured _ _ := .refl _
  start d request mode := d.grows_start request mode
  write d handle data := d.grows_writeInput handle data
  focus _ _ := .refl _
  pushMark _ := .refl _
  gotoEnd _ := .refl _
  events d n events := d.pool.grows_play n events

theorem grows_perform (d : Desk) (deed : Deed) : d.pool.Grows (d.perform deed).pool :=
  law_grows.perform d fun _ he => he ▸ .refl _

end Desk
end Parley
