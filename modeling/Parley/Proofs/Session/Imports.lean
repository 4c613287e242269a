import Parley.Proofs.Path.Names
import Parley.Proofs.Session.Delivery
import Parley.Proofs.Session.Stages
import Parley.Proofs.Utf8.Strict

/-! Importing a file. The module is named after the file that the path denotes, whatever the path
looks like on the way there; a path that names no module is refused before anything is done; and
every path does the one or the other (`write_of_import`). -/
namespace Parley

def importText (base : Text) : Text :=
  "import * as ".toList ++ base ++ " from \x22".toList ++ base ++ "\x22\n".toList

theorem inputLine_line (line : Text) {last : Char} (h : isBlank last = false) :
    inputLine (line ++ [last] ++ ['\n']) = line ++ [last] ++ ['\n'] := by
  have hnewline : isBlank '\n' = true := by decide
  rw [inputLine, Text.trimEnd, List.reverse_concat, List.dropWhile_cons_of_pos hnewline,
    List.reverse_concat, List.dropWhile_cons_of_neg (by simp [h]), ← List.reverse_concat,
    List.reverse_reverse]

theorem concat_quote (line : Text) : line ++ "\x22\n".toList = line ++ ['\x22'] ++ ['\n'] := by
  rw [List.append_assoc]
  rfl

/-- A statement that is sent loses nothing. -/
theorem inputLine_importText (base : Text) : inputLine (importText base) = importText base := by
  -- Rewriting with `concat_quote` would compare the literals of the statement with one another.
  have hline : importText base =
      "import * as ".toList ++ base ++ " from \x22".toList ++ base ++ ['\x22'] ++ ['\n'] :=
    concat_quote _
  have hquote : isBlank '\x22' = false := by decide
  rw [hline]
  exact inputLine_line _ hquote

/-- The module that a path names as seen from a directory: the stem of the name it gives. -/
inductive NamesModule (directory path : Bytes) : Text → Prop where
  | intro {name : Bytes} {base : Text} (h : Path.Denotes directory path name)
      (hname : name ≠ [Path.dot, Path.dot]) (hstem : Path.IsStem name (Utf8.encode base)) :
      NamesModule directory path base

/-- A path that is not empty and still names no module: it gives no name, or ends at a parent, or
the stem of its name is no text. -/
inductive NamesNoModule (directory path : Bytes) : Prop where
  | root (h : Path.DenotesRoot directory path)
  | parent (h : Path.Denotes directory path [Path.dot, Path.dot])
  | undecodable {name base : Bytes} (h : Path.Denotes directory path name)
      (hstem : Path.IsStem name base) (hbase : ∀ text, Utf8.encode text ≠ base)

theorem NamesNoModule.ne_nil {directory path : Bytes} (h : NamesNoModule directory path) :
    path ≠ [] := by
  cases h with
  | root h => exact h.ne_nil
  | parent h => exact h.ne_nil
  | undecodable h hstem hbase => exact h.ne_nil

theorem namesModule_cases (directory : Bytes) {path : Bytes} (hne : path ≠ []) :
    NamesNoModule directory path ∨ ∃ base, NamesModule directory path base := by
  rcases Path.denotes_cases directory hne with root | ⟨name, h⟩
  · exact .inl (.root root)
  · by_cases hname : name = [Path.dot, Path.dot]
    · exact .inl (.parent (hname ▸ h))
    · obtain ⟨base, hstem⟩ := Path.exists_isStem name
      by_cases hbase : ∃ text, Utf8.encode text = base
      · obtain ⟨text, rfl⟩ := hbase
        exact .inr ⟨text, .intro h hname hstem⟩
      · exact .inl (.undecodable h hstem (not_exists.mp hbase))

/-! The statement for a path, from the last of its components. -/

theorem importStatement_named {path name : Bytes} {base : Text}
    (h : (Path.components path).getLast? = some name) (hname : name ≠ [Path.dot, Path.dot])
    (hstem : Path.IsStem name (Utf8.encode base)) :
    importStatement path = .ok (importText base) := by
  have hbase : (Path.fileStem? path).bind Utf8.decode? = some base := by
    rw [Path.fileStem?, Path.fileName?_of_getLast? h hname, Option.map_some,
      Path.stem_of_isStem hstem, Option.bind_some, Utf8.decode?_encode]
  rw [importStatement, hbase]
  rfl

theorem importStatement_undecodable {path name base : Bytes}
    (h : (Path.components path).getLast? = some name) (hstem : Path.IsStem name base)
    (hbase : ∀ text, Utf8.encode text ≠ base) :
    importStatement path = .error (.invalidFileName path) := by
  have hnone : (Path.fileStem? path).bind Utf8.decode? = none := by
    rw [Path.fileStem?]
    by_cases hname : name = [Path.dot, Path.dot]
    · rw [Path.fileName?_parent (hname ▸ h)]
      rfl
    · rw [Path.fileName?_of_getLast? h hname, Option.map_some, Path.stem_of_isStem hstem,
        Option.bind_some, Utf8.decode?_eq_none hbase]
  rw [importStatement, hnone]

theorem importStatement_nameless {path : Bytes} (h : Path.fileName? path = none) :
    importStatement path = .error (.invalidFileName path) := by
  rw [importStatement, Path.fileStem?, h]
  rfl

theorem importFrom_of_absolute {directory path whole : Bytes}
    (h : Path.absolute? directory path = some whole) :
    importFrom directory path = importStatement whole := by
  rw [importFrom, h]

theorem importFrom_named {directory path : Bytes} {base : Text}
    (h : NamesModule directory path base) : importFrom directory path = .ok (importText base) := by
  cases h with
  | intro h hname hstem =>
    obtain ⟨whole, hwhole⟩ := Path.exists_absolute h.ne_nil directory
    rw [importFrom_of_absolute hwhole,
      importStatement_named (Path.getLast?_absolute h hwhole) hname hstem]

/-- A path that ends in a name of its own needs no directory. -/
theorem importStatement_own {directory path name : Bytes} {base : Text}
    (h : NamesModule directory path base) (hown : Path.EndsIn path name) :
    importStatement path = .ok (importText base) := by
  cases h with
  | @intro other base h hname hstem =>
    obtain ⟨whole, hwhole⟩ := Path.exists_absolute h.ne_nil directory
    have hsame : name = other := Option.some.inj
      ((Path.getLast?_absolute (.own hown) hwhole).symm.trans (Path.getLast?_absolute h hwhole))
    exact importStatement_named (hsame ▸ Path.getLast?_components hown) hname hstem

theorem importFrom_nameless {directory path : Bytes} (h : NamesNoModule directory path) :
    ∃ whole, Path.absolute? directory path = some whole ∧
      importFrom directory path = .error (.invalidFileName whole) := by
  obtain ⟨whole, hwhole⟩ := Path.exists_absolute h.ne_nil directory
  refine ⟨whole, hwhole, (importFrom_of_absolute hwhole).trans ?_⟩
  cases h with
  | root h =>
    exact importStatement_nameless (Path.fileName?_root (Path.components_absolute_root h hwhole))
  | parent h =>
    exact importStatement_nameless (Path.fileName?_parent (Path.getLast?_absolute h hwhole))
  | undecodable h hstem hbase =>
    exact importStatement_undecodable (Path.getLast?_absolute h hwhole) hstem hbase

namespace Desk

/-- A file is imported as the module that its path names, in one write if there is a process that
takes it, and a path that ends in a name of its own gives the same statement as it stands. An empty
path is not resolved, and one that names no module is refused by what it resolves to; either way
nothing is done. Every path is one of the three, and no statement loses anything when it is sent. -/
theorem write_of_import (d : Desk) (path : Bytes) :
    (∀ base, NamesModule d.directory path base →
      d.send (.file path) false = d.sendText (importText base) ∧
      (((d.send (.file path) false).1 = .ok () ∧ ∃ s, Serves d (d.send (.file path) false).2 s ∧
          (d.send (.file path) false).2.pool.writes =
            d.pool.writes ++ [(s.process, Utf8.encode (importText base))]) ∨
        ∃ f, (d.send (.file path) false).1 = .error f ∧
          (d.send (.file path) false).2.pool.writes = d.pool.writes) ∧
      ∀ name, Path.EndsIn path name → importStatement path = .ok (importText base)) ∧
    (path = [] → ∀ focus, d.send (.file path) focus =
      (.error (.unresolved [] "cannot make an empty path absolute".toList), d)) ∧
    (NamesNoModule d.directory path → ∃ whole, Path.absolute? d.directory path = some whole ∧
      ∀ focus, d.send (.file path) focus = (.error (.invalidFileName whole), d)) ∧
    (path = [] ∨ NamesNoModule d.directory path ∨ ∃ base, NamesModule d.directory path base) ∧
    ∀ base, inputLine (importText base) = importText base := by
  refine ⟨?_, ?_, ?_, ?_, inputLine_importText⟩
  · intro base h
    have hexcerpt : d.excerpt (.file path) = .ok (importText base) := importFrom_named h
    refine ⟨send_unfocused hexcerpt, ?_, fun name hname => importStatement_own h hname⟩
    rw [send_unfocused hexcerpt]
    rcases d.sendText_cases (importText base) with ⟨hok, s, hserves, hwrites⟩ | ⟨f, hf, -, hwrites⟩
    · rw [inputLine_importText] at hwrites
      exact .inl ⟨hok, s, hserves, hwrites⟩
    · exact .inr ⟨f, hf, hwrites⟩
  · rintro rfl focus
    exact send_of_no_excerpt rfl focus
  · intro h
    obtain ⟨whole, hwhole, hrefused⟩ := importFrom_nameless h
    exact ⟨whole, hwhole, send_of_no_excerpt hrefused⟩
  · by_cases hne : path = []
    · exact .inl hne
    · exact .inr (namesModule_cases d.directory hne)

/-- A desk in a working directory, with nothing launched. -/
def deskIn (directory : Text) : Desk :=
  fresh (fun _ _ => .ok {}) {} {} (Utf8.encode directory)

theorem write_of_import_winding :
    let d := deskIn "/srv/app".toList
    let path := Utf8.encode "./lib//types.d.ts/.".toList
    let base := "types.d".toList
    let parent := Utf8.encode "./..".toList
    (NamesModule d.directory path base ∧
      ∃ s, Serves d (d.send (.file path) false).2 s ∧
        (d.send (.file path) false).2.pool.writes =
          [(s.process, Utf8.encode (importText base))] ∧
        importStatement path = .ok (importText base)) ∧
      (NamesModule d.directory [Path.dot] "app".toList ∧
        d.send (.file [Path.dot]) false = d.sendText (importText "app".toList)) ∧
      d.send (.file []) true =
        (.error (.unresolved [] "cannot make an empty path absolute".toList), d) ∧
      NamesNoModule d.directory parent ∧ ∃ whole, Path.absolute? d.directory parent = some whole ∧
        d.send (.file parent) false = (.error (.invalidFileName whole), d) := by
  intro d path base parent
  have hends : Path.EndsIn path (Utf8.encode "types.d.ts".toList) := by
    have hpath : path = Utf8.encode "./lib/".toList ++
        Path.slash :: (Utf8.encode "types.d.ts".toList ++ [Path.slash, Path.dot]) := by
      decide +kernel
    rw [hpath]
    exact .behind _ ⟨by decide +kernel, by decide +kernel, by decide +kernel⟩ (.dotted .nil)
  have hstem : Path.IsStem (Utf8.encode "types.d.ts".toList) (Utf8.encode base) := by
    have hname : Utf8.encode "types.d.ts".toList =
        Utf8.encode base ++ Path.dot :: Utf8.encode "ts".toList := by
      decide +kernel
    rw [hname]
    exact .cut (by decide +kernel) (by decide +kernel)
  have hnames : NamesModule d.directory path base := .intro (.own hends) (by decide +kernel) hstem
  have hhere : NamesModule d.directory [Path.dot] "app".toList := by
    have hdirectory : Path.EndsIn d.directory (Utf8.encode "app".toList) := by
      have hsplit : d.directory = Utf8.encode "/srv".toList ++
          Path.slash :: (Utf8.encode "app".toList ++ []) := by
        decide +kernel
      rw [hsplit]
      exact .behind _ ⟨by decide +kernel, by decide +kernel, by decide +kernel⟩ .nil
    exact .intro (.here (.dot .nil) hdirectory) (by decide +kernel) (.whole (by decide +kernel))
  have hparent : NamesNoModule d.directory parent := by
    have hsplit : parent = [Path.dot] ++ Path.slash :: ([Path.dot, Path.dot] ++ []) := by
      decide +kernel
    rw [hsplit]
    exact .parent (.own (.behind _ ⟨by decide, by decide, by decide⟩ .nil))
  obtain ⟨hsent, hwritten, hown⟩ := (write_of_import d path).1 base hnames
  obtain ⟨whole, hwhole, hrefused⟩ := (write_of_import d parent).2.2.1 hparent
  refine ⟨⟨hnames, ?_⟩, ⟨hhere, ((write_of_import d _).1 _ hhere).1⟩,
    (write_of_import d []).2.1 rfl true, hparent, whole, hwhole, hrefused false⟩
  have hok : (d.send (.file path) false).1 = .ok () := by
    rw [hsent]
    rfl
  rcases hwritten with ⟨-, s, hserves, hwrites⟩ | ⟨f, hfailed, -⟩
  · exact ⟨s, hserves, hwrites, hown _ hends⟩
  · rw [hok] at hfailed
    cases hfailed

end Desk
end Parley
