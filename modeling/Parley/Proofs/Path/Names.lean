import Parley.Path
import Mathlib.Data.List.Basic

/-! What a path names, said without taking it apart. Slashes are idle, and so are dots between them
or at the end; what stands before the idle octets at the end of a path, back to the slash before it,
is its last component (`EndsIn`). A path without any is empty, a root, or nothing but dots
(`path_cases`). Seen from a directory a path keeps its last component, and where it has none and does
not start from the root it has that of the directory (`getLast?_absolute`). The stem of a name is
what stands before its last dot, unless there is none but in front (`stem_of_isStem`). -/
namespace Parley.Path

/-- Octets that add nothing to a path: slashes, with a dot at most behind each. -/
inductive Idle : Bytes → Prop where
  | nil : Idle []
  | bare {rest : Bytes} (h : Idle rest) : Idle (slash :: rest)
  | dotted {rest : Bytes} (h : Idle rest) : Idle (slash :: dot :: rest)

structure IsComponent (name : Bytes) : Prop where
  unslashed : slash ∉ name
  ne_nil : name ≠ []
  ne_dot : name ≠ [dot]

/-- The last component of a path, be there idle octets behind it. -/
inductive EndsIn : Bytes → Bytes → Prop where
  | alone {name after : Bytes} (h : IsComponent name) (idle : Idle after) :
      EndsIn (name ++ after) name
  | behind {name after : Bytes} (before : Bytes) (h : IsComponent name) (idle : Idle after) :
      EndsIn (before ++ slash :: (name ++ after)) name

/-- A path that goes nowhere: a dot, with idle octets behind. -/
inductive IsHere : Bytes → Prop where
  | dot {after : Bytes} (idle : Idle after) : IsHere (dot :: after)

theorem EndsIn.cons {path name : Bytes} (h : EndsIn path name) : EndsIn (slash :: path) name := by
  cases h with
  | alone h idle => exact .behind [] h idle
  | behind before h idle => exact .behind (slash :: before) h idle

/-- Every path has a last component, is idle, or is nothing but dots. -/
theorem path_cases (path : Bytes) : Idle path ∨ IsHere path ∨ ∃ name, EndsIn path name := by
  induction path with
  | nil => exact .inl .nil
  | cons b rest ih =>
    by_cases hb : b = slash
    · subst hb
      rcases ih with idle | here | ⟨name, h⟩
      · exact .inl idle.bare
      · cases here with
        | dot idle => exact .inl idle.dotted
      · exact .inr (.inr ⟨name, h.cons⟩)
    · rcases ih with idle | here | ⟨name, h⟩
      · by_cases hdot : b = dot
        · exact .inr (.inl (hdot ▸ .dot idle))
        · have hname : IsComponent [b] := ⟨by simpa using Ne.symm hb, by simp, by simpa using hdot⟩
          exact .inr (.inr ⟨[b], .alone hname idle⟩)
      · have hname : IsComponent [b, dot] :=
          ⟨by simpa using ⟨Ne.symm hb, by decide⟩, by simp, by simp⟩
        cases here with
        | dot idle => exact .inr (.inr ⟨[b, dot], .alone hname idle⟩)
      · cases h with
        | @alone name after h idle =>
          have hname : IsComponent (b :: name) :=
            ⟨by simpa using ⟨Ne.symm hb, h.unslashed⟩, by simp, by simp [h.ne_nil]⟩
          exact .inr (.inr ⟨b :: name, .alone hname idle⟩)
        | behind before h idle => exact .inr (.inr ⟨name, .behind (b :: before) h idle⟩)

/-! Components, where paths are put together. -/

theorem splitFrom_append_slash (part a b : Bytes) :
    splitFrom part (a ++ slash :: b) = splitFrom part a ++ splitFrom [] b := by
  induction a generalizing part with
  | nil => simp [splitFrom]
  | cons x a ih =>
    by_cases hx : x = slash
    · simp [splitFrom, hx, ih]
    · simp [splitFrom, hx, ih]

theorem components_append_slash (a b : Bytes) :
    components (a ++ slash :: b) = components a ++ components b := by
  rw [components, splitFrom_append_slash, List.filter_append, ← components, ← components]

theorem splitFrom_of_unslashed {name : Bytes} (h : slash ∉ name) (part : Bytes) :
    splitFrom part name = [part.reverse ++ name] := by
  induction name generalizing part with
  | nil => simp [splitFrom]
  | cons b name ih =>
    rw [List.mem_cons, not_or] at h
    rw [splitFrom, if_neg (Ne.symm h.1), ih h.2]
    simp

theorem components_of_isComponent {name : Bytes} (h : IsComponent name) :
    components name = [name] := by
  rw [components, splitFrom_of_unslashed h.unslashed]
  simp [h.ne_nil, h.ne_dot]

theorem components_idle {after : Bytes} (h : Idle after) (path : Bytes) :
    components (path ++ after) = components path := by
  induction h generalizing path with
  | nil => rw [List.append_nil]
  | @bare rest h ih =>
    have hrest : components rest = [] := ih []
    rw [components_append_slash, hrest, List.append_nil]
  | @dotted rest h ih =>
    have hrest : components (dot :: rest) = [] := ih [dot]
    rw [components_append_slash, hrest, List.append_nil]

theorem components_of_idle {path : Bytes} (h : Idle path) : components path = [] :=
  components_idle h []

theorem components_of_isHere {path : Bytes} (h : IsHere path) : components path = [] := by
  cases h with
  | dot idle => exact components_idle idle [dot]

theorem getLast?_components {path name : Bytes} (h : EndsIn path name) :
    (components path).getLast? = some name := by
  cases h with
  | alone h idle => rw [components_idle idle, components_of_isComponent h, List.getLast?_singleton]
  | behind before h idle =>
    rw [components_append_slash, components_idle idle, components_of_isComponent h,
      List.getLast?_concat]

theorem unslashed_of_mem_splitFrom {part path c : Bytes} (hpart : slash ∉ part)
    (h : c ∈ splitFrom part path) : slash ∉ c := by
  induction path generalizing part with
  | nil =>
    rw [splitFrom, List.mem_singleton] at h
    rw [h, List.mem_reverse]
    exact hpart
  | cons b path ih =>
    rw [splitFrom] at h
    split at h
    · rcases List.mem_cons.mp h with rfl | h
      · rw [List.mem_reverse]
        exact hpart
      · exact ih List.not_mem_nil h
    · rename_i hb
      refine ih ?_ h
      rw [List.mem_cons, not_or]
      exact ⟨Ne.symm hb, hpart⟩

theorem isComponent_of_mem {path c : Bytes} (h : c ∈ components path) : IsComponent c := by
  rw [components, List.mem_filter] at h
  obtain ⟨hmem, hsays⟩ := h
  simp only [ne_eq, decide_not, Bool.and_eq_true, Bool.not_eq_true', decide_eq_false_iff_not] at hsays
  exact ⟨unslashed_of_mem_splitFrom List.not_mem_nil hmem, hsays.1, hsays.2⟩

/-! Seen from a directory. -/

theorem components_join (path c : Bytes) :
    components (join path c) = components path ++ components c := by
  rw [join]
  split
  · rename_i h
    rw [Bool.or_eq_true, decide_eq_true_eq, endsInSlash, decide_eq_true_eq] at h
    rcases h with rfl | h
    · rfl
    · obtain ⟨before, rfl⟩ := List.getLast?_eq_some_iff.mp h
      have hslash : components (before ++ [slash]) = components before :=
        (components_append_slash before []).trans (List.append_nil _)
      rw [hslash, List.append_assoc, List.singleton_append, components_append_slash]
  · exact components_append_slash path c

theorem components_foldl_join (start : Bytes) {cs : List Bytes} (h : ∀ c ∈ cs, IsComponent c) :
    components (cs.foldl join start) = components start ++ cs := by
  induction cs generalizing start with
  | nil => rw [List.foldl_nil, List.append_nil]
  | cons c cs ih =>
    rw [List.forall_mem_cons] at h
    rw [List.foldl_cons, ih _ h.2, components_join, components_of_isComponent h.1,
      List.append_assoc, List.singleton_append]

theorem components_root (path : Bytes) : components (root path) = [] := by
  rw [root]
  split <;> rfl

/-- A path that starts from the root keeps its components; another has those of the directory in
front of them. -/
theorem components_absolute {directory path whole : Bytes}
    (h : absolute? directory path = some whole) :
    components whole =
      (if isAbsolute path then [] else components directory) ++ components path := by
  have hjoined : components ((components path).foldl join
      (if isAbsolute path then root path else directory)) =
        (if isAbsolute path then [] else components directory) ++ components path := by
    rw [components_foldl_join _ fun c hc => isComponent_of_mem hc]
    split
    · rw [components_root]
    · rfl
  rw [absolute?] at h
  split at h
  · cases h
  · obtain rfl := Option.some.inj h
    split
    · rw [components_join, hjoined]
      exact List.append_nil _
    · exact hjoined

theorem exists_absolute {path : Bytes} (h : path ≠ []) (directory : Bytes) :
    ∃ whole, absolute? directory path = some whole := by
  rw [absolute?, if_neg h]
  exact ⟨_, rfl⟩

theorem isAbsolute_of_idle {path : Bytes} (h : Idle path) (hne : path ≠ []) :
    isAbsolute path = true := by
  cases h with
  | nil => contradiction
  | bare | dotted => rfl

theorem isAbsolute_of_isHere {path : Bytes} (h : IsHere path) : isAbsolute path = false := by
  cases h
  rfl

/-- The name that a path gives as seen from a directory: its own, or that of the directory. -/
inductive Denotes (directory : Bytes) : Bytes → Bytes → Prop where
  | own {path name : Bytes} (h : EndsIn path name) : Denotes directory path name
  | here {path name : Bytes} (h : IsHere path) (hd : EndsIn directory name) :
      Denotes directory path name

/-- A path that gives no name: a root, or nothing but dots in a directory that has none. -/
inductive DenotesRoot (directory : Bytes) : Bytes → Prop where
  | own {path : Bytes} (h : Idle path) (hne : path ≠ []) : DenotesRoot directory path
  | here {path : Bytes} (h : IsHere path) (hd : Idle directory ∨ IsHere directory) :
      DenotesRoot directory path

theorem denotes_cases (directory : Bytes) {path : Bytes} (hne : path ≠ []) :
    DenotesRoot directory path ∨ ∃ name, Denotes directory path name := by
  rcases path_cases path with idle | here | ⟨name, h⟩
  · exact .inl (.own idle hne)
  · rcases path_cases directory with idle | also | ⟨name, h⟩
    · exact .inl (.here here (.inl idle))
    · exact .inl (.here here (.inr also))
    · exact .inr ⟨name, .here here h⟩
  · exact .inr ⟨name, .own h⟩

theorem EndsIn.ne_nil {path name : Bytes} (h : EndsIn path name) : path ≠ [] := by
  cases h with
  | alone h idle => simp [h.ne_nil]
  | behind before h idle => simp

theorem IsHere.ne_nil {path : Bytes} (h : IsHere path) : path ≠ [] := by
  cases h
  exact List.cons_ne_nil _ _

theorem Denotes.ne_nil {directory path name : Bytes} (h : Denotes directory path name) :
    path ≠ [] := by
  cases h with
  | own h => exact h.ne_nil
  | here h hd => exact h.ne_nil

theorem DenotesRoot.ne_nil {directory path : Bytes} (h : DenotesRoot directory path) :
    path ≠ [] := by
  cases h with
  | own h hne => exact hne
  | here h hd => exact h.ne_nil

theorem getLast?_absolute {directory path name whole : Bytes} (h : Denotes directory path name)
    (hwhole : absolute? directory path = some whole) :
    (components whole).getLast? = some name := by
  rw [components_absolute hwhole]
  cases h with
  | own h => rw [List.getLast?_append, getLast?_components h, Option.some_or]
  | here h hd =>
    rw [isAbsolute_of_isHere h, components_of_isHere h, List.append_nil]
    exact getLast?_components hd

theorem components_absolute_root {directory path whole : Bytes} (h : DenotesRoot directory path)
    (hwhole : absolute? directory path = some whole) : components whole = [] := by
  rw [components_absolute hwhole]
  cases h with
  | own h hne => rw [isAbsolute_of_idle h hne, components_of_idle h, if_pos rfl, List.append_nil]
  | here h hd =>
    rw [isAbsolute_of_isHere h, components_of_isHere h, List.append_nil]
    exact hd.elim components_of_idle components_of_isHere

theorem fileName?_of_getLast? {path name : Bytes} (h : (components path).getLast? = some name)
    (hname : name ≠ [dot, dot]) : fileName? path = some name := by
  rw [fileName?, h]
  exact if_pos (by simp [isParent, hname])

theorem fileName?_parent {path : Bytes} (h : (components path).getLast? = some [dot, dot]) :
    fileName? path = none := by
  rw [fileName?, h]
  rfl

theorem fileName?_root {path : Bytes} (h : components path = []) : fileName? path = none := by
  rw [fileName?, h]
  rfl

/-! Stems. -/

/-- A name without its last extension: what stands before the last dot. A name with no dot, or with
none but in front, is its own stem. -/
inductive IsStem : Bytes → Bytes → Prop where
  | whole {name : Bytes} (h : dot ∉ name.tail) : IsStem name name
  | cut {before extension : Bytes} (hne : before ≠ []) (h : dot ∉ extension) :
      IsStem (before ++ dot :: extension) before

theorem exists_isStem (name : Bytes) : ∃ base, IsStem name base := by
  by_cases h : dot ∈ name.tail
  · obtain ⟨b, rest, rfl⟩ := List.exists_cons_of_ne_nil (l := name) (by rintro rfl; cases h)
    obtain ⟨after, before, hreverse, hafter⟩ :=
      List.eq_append_cons_of_mem (List.mem_reverse.mpr h)
    have hrest : rest = before.reverse ++ dot :: after.reverse := by
      rw [List.tail_cons] at hreverse
      rw [← List.reverse_reverse rest, hreverse]
      simp
    refine ⟨b :: before.reverse, ?_⟩
    rw [hrest, ← List.cons_append]
    exact .cut (List.cons_ne_nil _ _) (by simpa using hafter)
  · exact ⟨name, .whole h⟩

theorem dropWhile_undotted {part : Bytes} (h : dot ∉ part) (rest : Bytes) :
    (part ++ rest).dropWhile (· ≠ dot) = rest.dropWhile (· ≠ dot) := by
  rw [List.dropWhile_append_of_pos]
  intro b hb
  simpa using fun heq : b = dot => h (heq ▸ hb)

theorem stem_of_isStem {name base : Bytes} (h : IsStem name base) : stem name = base := by
  cases h with
  | whole h =>
    cases name with
    | nil => rfl
    | cons b rest =>
      have hrest : dot ∉ rest.reverse := by simpa using h
      have hdrop := dropWhile_undotted hrest [b]
      rw [← List.reverse_cons] at hdrop
      rw [stem, hdrop]
      by_cases hb : b = dot <;> simp [hb]
  | @cut before extension hne h =>
    have hreverse : (base ++ dot :: extension).reverse =
        extension.reverse ++ dot :: base.reverse := by simp
    rw [stem, hreverse, dropWhile_undotted (by simpa using h)]
    simp [hne]

end Parley.Path
