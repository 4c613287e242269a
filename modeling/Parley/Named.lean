import Parley.Text.Basic

/-! Things kept under a name, at most one to a name. -/
namespace Parley

structure Named (α : Type) where
  entries : List (Text × α) := []
  deriving Repr

namespace Named

variable {α : Type}

def get? (xs : Named α) (name : Text) : Option α :=
  (xs.entries.find? fun e => e.1 = name).map Prod.snd

def contains (xs : Named α) (name : Text) : Bool := (xs.get? name).isSome

def erase (xs : Named α) (name : Text) : Named α := ⟨xs.entries.filter fun e => e.1 ≠ name⟩

def insert (xs : Named α) (name : Text) (a : α) : Named α :=
  ⟨(name, a) :: (xs.erase name).entries⟩

def modify (xs : Named α) (name : Text) (f : α → α) : Named α :=
  ⟨xs.entries.map fun e => if e.1 = name then (e.1, f e.2) else e⟩

@[simp] theorem get?_empty (name : Text) : ({} : Named α).get? name = none := rfl

@[simp] theorem get?_erase (xs : Named α) (name other : Text) :
    (xs.erase name).get? other = if other = name then none else xs.get? other := by
  obtain ⟨entries⟩ := xs
  simp only [get?, erase, List.find?_filter]
  induction entries with
  | nil => simp
  | cons e entries ih =>
    by_cases h : e.1 = other
    · subst h
      by_cases h' : e.1 = name <;> simp_all
    · simp_all

@[simp] theorem get?_insert (xs : Named α) (name other : Text) (a : α) :
    (xs.insert name a).get? other = if other = name then some a else xs.get? other := by
  by_cases h : other = name
  · simp [get?, insert, h]
  · have := get?_erase xs name other
    simp_all [get?, insert, Ne.symm h]

@[simp] theorem get?_modify (xs : Named α) (name other : Text) (f : α → α) :
    (xs.modify name f).get? other =
      if other = name then (xs.get? other).map f else xs.get? other := by
  obtain ⟨entries⟩ := xs
  simp only [get?, modify]
  by_cases hn : other = name
  · subst hn
    induction entries with
    | nil => simp
    | cons e entries ih => by_cases h : e.1 = other <;> simp_all
  · induction entries with
    | nil => simp
    | cons e entries ih =>
      by_cases h : e.1 = name <;> by_cases h' : e.1 = other <;> simp_all [Ne.symm hn]

end Named
end Parley
