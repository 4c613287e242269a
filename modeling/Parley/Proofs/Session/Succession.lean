import Parley.Proofs.Session.Display

/-! How a desk goes on. Sessions are numbered from one in the order of their processes, and the
buffer of the recorded one shows what its process prints (`Ordered`). Whatever is done at a desk
that keeps its buffers, the transcripts only grow, and a session recorded in place of another has a
number that none had before (`Leads`). -/
namespace Parley.Desk

/-- Sessions are numbered like their processes, and the recorded one is in sight. -/
structure Ordered (d : Desk) : Prop where
  sound : d.Sound
  numbered : ∀ s, d.registry.recorded = some s → s.handle.id = s.process + 1
  launched : ∀ s, d.registry.recorded = some s → s.process < d.pool.processes.length
  shown : d.Shown

theorem ordered_fresh (launcher : Interpreter.Launcher) (config : Config) (editor : Editor)
    (directory : Bytes) : (fresh launcher config editor directory).Ordered where
  sound := sound_fresh launcher config editor directory
  numbered _ hs := nomatch hs
  launched _ hs := nomatch hs
  shown _ hs := nomatch hs

theorem Ordered.id_lt {d : Desk} (h : d.Ordered) {s : Session}
    (hs : d.registry.recorded = some s) : s.handle.id < d.registry.nextId := by
  have hid := h.numbered s hs
  have hprocess := h.launched s hs
  have hnext := h.sound.nextId
  omega

def transcriptOf (d : Desk) (id : Nat) : Transcript := d.pool.transcript (id - 1)

theorem Ordered.transcriptOf {d : Desk} (h : d.Ordered) {s : Session}
    (hs : d.registry.recorded = some s) :
    d.transcriptOf s.handle.id = d.pool.transcript s.process := by
  rw [Desk.transcriptOf, h.numbered s hs, Nat.add_sub_cancel]

/-- With the same session recorded and no process less, the numbers are in order still. -/
theorem Ordered.of_recorded {a b : Desk} (h : a.Ordered) (sound : b.Sound) (shown : b.Shown)
    (recorded : b.registry.recorded = a.registry.recorded)
    (count : b.pool.processes.length = a.pool.processes.length) : b.Ordered where
  sound := sound
  numbered s hs := h.numbered s (recorded ▸ hs)
  launched s hs := count ▸ h.launched s (recorded ▸ hs)
  shown := shown

theorem Ordered.perform {d : Desk} (h : d.Ordered) {deed : Deed}
    (hkeeps : deed.keepsBuffers = true) : (d.perform deed).Ordered := by
  have sound := h.sound.perform deed
  have shown := h.shown.perform hkeeps
  rcases advances_perform d deed with ⟨-, h'⟩ | ⟨-, h'⟩ | ⟨s, -, h'⟩
  · exact h.of_recorded sound shown h'.recorded h'.pool.count
  · exact h.of_recorded sound shown h'.recorded h'.count
  · have hs : ∀ t, (d.perform deed).registry.recorded = some t → t = s := by
      intro t ht
      rw [h'.recorded] at ht
      exact (Option.some.inj ht).symm
    refine ⟨sound, fun t ht => ?_, fun t ht => ?_, shown⟩
    · rw [hs t ht, h'.id, h'.process, h.sound.nextId]
    · rw [hs t ht, h'.process, h'.count]
      exact Nat.lt_succ_self _

/-- What comes of a desk. -/
structure Leads (a b : Desk) : Prop where
  ordered : a.Ordered → b.Ordered
  grows : a.pool.Grows b.pool
  nextId : a.registry.nextId ≤ b.registry.nextId
  recorded : b.registry.recorded = a.registry.recorded ∨
    ∃ s, b.registry.recorded = some s ∧ a.registry.nextId ≤ s.handle.id

theorem Leads.refl (d : Desk) : Leads d d := ⟨id, .refl _, Nat.le_refl _, .inl rfl⟩

theorem Leads.trans {a b c : Desk} (h : Leads a b) (h' : Leads b c) : Leads a c where
  ordered := h'.ordered ∘ h.ordered
  grows := h.grows.trans h'.grows
  nextId := Nat.le_trans h.nextId h'.nextId
  recorded := by
    rcases h'.recorded with same | ⟨s, hs, hid⟩
    · rw [same]
      exact h.recorded
    · exact .inr ⟨s, hs, Nat.le_trans h.nextId hid⟩

theorem leads_perform (d : Desk) {deed : Deed} (hkeeps : deed.keepsBuffers = true) :
    Leads d (d.perform deed) := by
  have ordered : d.Ordered → (d.perform deed).Ordered := fun h => h.perform hkeeps
  have grows := d.grows_perform deed
  rcases advances_perform d deed with ⟨-, h⟩ | ⟨-, h⟩ | ⟨s, -, h⟩
  · exact ⟨ordered, grows, Nat.le_of_eq h.nextId.symm, .inl h.recorded⟩
  · exact ⟨ordered, grows, Nat.le_of_eq h.nextId.symm, .inl h.recorded⟩
  · have hnext : d.registry.nextId ≤ (d.perform deed).registry.nextId := by
      rw [h.nextId]
      exact Nat.le_succ _
    exact ⟨ordered, grows, hnext, .inr ⟨s, h.recorded, Nat.le_of_eq h.id.symm⟩⟩

/-- A number that was given and is not that of the recorded session is never recorded again. -/
theorem Leads.not_recorded {a b : Desk} (h : Leads a b) {k : Nat} (given : k < a.registry.nextId)
    (hk : ∀ s, a.registry.recorded = some s → s.handle.id ≠ k) :
    ∀ s, b.registry.recorded = some s → s.handle.id ≠ k := by
  intro s hs
  rcases h.recorded with same | ⟨t, ht, hid⟩
  · exact hk s (same ▸ hs)
  · obtain rfl : t = s := Option.some.inj (ht.symm.trans hs)
    omega

end Parley.Desk
