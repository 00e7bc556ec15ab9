import Mathlib.Data.Nat.Find
import Script.Settings.Discovery

/-!
# The nearest settings

Settings are looked for in a directory, then in the one above, and so on up to where there is
nothing above: the root, or for a relative path the empty one. `nearest_settings_count` says what
comes of it. The first file on the way decides alone, also if it cannot be read or makes no sense,
and whatever other files there are; the defaults are for those who have no file on the way.

## Shape of the proof

A search looks in one directory and then stops or goes on above it (`discover_of_isFile`,
`discover_of_parent?`, `discover_of_top`). The distance to the nearest file is counted in
directories (`Path.above?`), and the search takes as many steps (`Nearest.discover_eq`).
-/

namespace Script

namespace Path

/-- The directory that lies so many steps above, if there are so many. -/
def above? : Nat → Path → Option Path
  | 0, path => some path
  | n + 1, path => path.parent?.bind (above? n)

variable {path above : Path}

theorem parent?_eq_none_iff : path.parent? = none ↔ path.parts = [] := by
  simp [parent?]

/-- Above a path lies the one without its last part. -/
theorem parent?_of_ne_nil (h : path.parts ≠ []) :
    path.parent? = some { path with parts := path.parts.dropLast } :=
  if_neg h

/-- A step up takes the last name away, until there are none left. -/
theorem above?_eq (path : Path) (n : Nat) :
    path.above? n =
      if n ≤ path.parts.length then some
        { path with parts := path.parts.take (path.parts.length - n) }
      else none := by
  induction n generalizing path with
  | zero => simp [above?]
  | succ n ih =>
    rw [above?]
    by_cases hparts : path.parts = []
    · rw [parent?_eq_none_iff.mpr hparts]
      simp [hparts]
    · have hpos : 0 < path.parts.length := List.length_pos_iff.mpr hparts
      have hle : n ≤ path.parts.length - 1 ↔ n + 1 ≤ path.parts.length := by omega
      have hmin : min (path.parts.length - 1 - n) (path.parts.length - 1)
          = path.parts.length - (n + 1) := by
        omega
      rw [parent?_of_ne_nil hparts, Option.bind_some, ih]
      simp only [List.length_dropLast, hle]
      rw [List.dropLast_eq_take, List.take_take, hmin]

/-- One step further up is one step up from the parent. -/
theorem above?_succ (h : path.parent? = some above) (n : Nat) :
    path.above? (n + 1) = above.above? n := by
  rw [above?, h, Option.bind_some]

theorem above?_succ_of_top (h : path.parent? = none) (n : Nat) : path.above? (n + 1) = none := by
  rw [above?, h, Option.bind_none]

/-- The directories on the way up are the first and those from its parent on. -/
theorem chain_of_parent? (h : path.parent? = some above) : path.chain = path :: above.chain := by
  rw [chain]
  split
  · next next hnext =>
    rw [h, Option.some.injEq] at hnext
    rw [hnext]
  · next hnone =>
    rw [h] at hnone
    cases hnone

/-- On top the way up is over. -/
theorem chain_of_top (h : path.parent? = none) : path.chain = [path] := by
  rw [chain]
  split
  · next next hnext =>
    rw [h] at hnext
    cases hnext
  · rfl

end Path

namespace Settings

variable {files files' : FileSystem} {directory above nearest : Path} {n : Nat}

/-! ## The search, step by step -/

/-- The search ends where there is a file, whatever is in it. -/
theorem discover_of_isFile (h : files.isFile (directory.child fileName) = true) :
    discover files directory
      = load files (directory.child fileName).display (directory.child fileName) := by
  have hfirst : (candidates directory).find? files.isFile = some (directory.child fileName) := by
    rw [candidates, Path.chain, List.map_cons, List.find?_cons_of_pos h]
  rw [discover, hfirst]

/-- Where there is none, it goes on in the directory above. -/
theorem discover_of_parent? (h : files.isFile (directory.child fileName) = false)
    (habove : directory.parent? = some above) :
    discover files directory = discover files above := by
  have hrest : (candidates directory).find? files.isFile
      = (candidates above).find? files.isFile := by
    rw [candidates, Path.chain_of_parent? habove, List.map_cons,
      List.find?_cons_of_neg (by simp [h]), candidates]
  rw [discover, discover, hrest]

/-- If there is nothing above, the settings are the defaults. -/
theorem discover_of_top (h : files.isFile (directory.child fileName) = false)
    (htop : directory.parent? = none) : discover files directory = .ok .default := by
  have hnone : (candidates directory).find? files.isFile = none := by
    rw [candidates, Path.chain_of_top htop, List.map_singleton,
      List.find?_cons_of_neg (by simp [h]), List.find?_nil]
  rw [discover, hnone]

/-! ## The nearest file -/

/-- The nearest directory with a settings file lies so many steps above. -/
structure Nearest (files : FileSystem) (directory : Path) (n : Nat) (nearest : Path) : Prop where
  above : directory.above? n = some nearest
  isFile : files.isFile (nearest.child fileName) = true
  nearer : ∀ k < n, ∀ other, directory.above? k = some other →
    files.isFile (other.child fileName) = false

/-- No directory on the way up has a settings file. -/
def NoneAbove (files : FileSystem) (directory : Path) : Prop :=
  ∀ n other, directory.above? n = some other → files.isFile (other.child fileName) = false

/-- Seen from below, a file is one step farther away. -/
theorem nearest_succ_iff (h : files.isFile (directory.child fileName) = false)
    (habove : directory.parent? = some above) :
    Nearest files directory (n + 1) nearest ↔ Nearest files above n nearest := by
  constructor
  · intro hnearest
    refine ⟨(Path.above?_succ habove n).symm.trans hnearest.above, hnearest.isFile,
      fun k hk other hother => ?_⟩
    exact hnearest.nearer (k + 1) (Nat.succ_lt_succ hk) other
      ((Path.above?_succ habove k).trans hother)
  · intro hnearest
    refine ⟨(Path.above?_succ habove n).trans hnearest.above, hnearest.isFile,
      fun k hk other hother => ?_⟩
    cases k with
    | zero =>
      cases hother
      exact h
    | succ k =>
      rw [Path.above?_succ habove] at hother
      exact hnearest.nearer k (Nat.lt_of_succ_lt_succ hk) other hother

/-- The search comes to the nearest file and loads it. -/
theorem Nearest.discover_eq (h : Nearest files directory n nearest) :
    discover files directory
      = load files (nearest.child fileName).display (nearest.child fileName) := by
  induction n generalizing directory with
  | zero =>
    obtain rfl : directory = nearest := Option.some.inj h.above
    exact discover_of_isFile h.isFile
  | succ n ih =>
    have hhere := h.nearer 0 (Nat.succ_pos n) directory rfl
    cases hparent : directory.parent? with
    | none =>
      have habove := h.above
      rw [Path.above?_succ_of_top hparent] at habove
      cases habove
    | some above =>
      rw [discover_of_parent? hhere hparent]
      exact ih ((nearest_succ_iff hhere hparent).mp h)

/-- Either there is a nearest file, or there is none at all. -/
theorem nearest_or_noneAbove (files : FileSystem) (directory : Path) :
    (∃ n nearest, Nearest files directory n nearest) ∨ NoneAbove files directory := by
  by_cases hsome : ∃ n other, directory.above? n = some other ∧
    files.isFile (other.child fileName) = true
  · classical
    obtain ⟨nearest, habove, hfile⟩ := Nat.find_spec hsome
    refine .inl ⟨Nat.find hsome, nearest, habove, hfile, fun k hk other hother => ?_⟩
    exact Bool.eq_false_iff.mpr fun htrue => Nat.find_min hsome hk ⟨other, hother, htrue⟩
  · refine .inr fun n other hother => Bool.eq_false_iff.mpr fun htrue => ?_
    exact hsome ⟨n, other, hother, htrue⟩

/-- A search that finds no file ends with the defaults. On its way up the names become fewer. -/
theorem discover_of_noneAbove (files : FileSystem) (directory : Path)
    (h : NoneAbove files directory) :
    discover files directory = .ok .default := by
  have hhere := h 0 directory rfl
  cases hparent : directory.parent? with
  | none => exact discover_of_top hhere hparent
  | some above =>
    have hlt := Path.length_parts_of_parent? hparent
    rw [discover_of_parent? hhere hparent]
    refine discover_of_noneAbove files above fun n other hother => ?_
    exact h (n + 1) other ((Path.above?_succ hparent n).trans hother)
termination_by directory.parts.length

/-- If there is a nearest file there is some. -/
theorem Nearest.not_noneAbove (h : Nearest files directory n nearest) :
    ¬ NoneAbove files directory := by
  intro hnone
  have hfile := hnone n nearest h.above
  rw [h.isFile] at hfile
  cases hfile

/-! ## What is loaded -/

/-- The settings that a file holds, if it can be read and makes sense. -/
def HeldIn (files : FileSystem) (file : Path) (settings : Settings) : Prop :=
  ∃ text, files.read file = .ok text ∧ read? text = some settings

/-- A file is loaded as the settings that it holds. -/
theorem load_eq_ok_iff {name : String} {file : Path} {settings : Settings} :
    load files name file = .ok settings ↔ HeldIn files file settings := by
  unfold load HeldIn
  cases files.read file with
  | error fault => simp
  | ok text => cases hread : read? text <;> simp [hread]

/-- A file that cannot be read is an error of its own kind. -/
theorem load_of_error {name : String} {file : Path} {fault : FileFault}
    (h : files.read file = .error fault) :
    load files name file = .error (.unreadable name fault) := by
  rw [load, h]

/-- A file that makes no sense is an error of its own kind. -/
theorem load_of_malformed {name text : String} {file : Path} (h : files.read file = .ok text)
    (hread : read? text = none) : load files name file = .error (.malformed name) := by
  simp only [load, h, hread]

/-- What is loaded depends on the text of the file only. -/
theorem load_congr {name : String} {file : Path} (h : files'.read file = files.read file) :
    load files' name file = load files name file := by
  rw [load, load, h]

end Settings

open Settings in
/-- The nearest settings count, and no others. The way up from a directory ends where no names are
left, at the root or at the empty path. If there is a settings file on it, the result is what comes
of loading the nearest one: its settings, or the error that it cannot be read or makes no sense. No
other file matters, as long as this one is the nearest and has the same text. If there is no such
file, the settings are the defaults; and apart from a nearest file that says just what the defaults
do, that is the only case. -/
theorem nearest_settings_count (files : FileSystem) (directory : Path) :
    (∀ n, directory.above? n =
      if n ≤ directory.parts.length then
        some { directory with parts := directory.parts.take (directory.parts.length - n) }
      else none) ∧
    ((∃ n nearest, Nearest files directory n nearest) ↔ ¬ NoneAbove files directory) ∧
    (∀ n nearest, Nearest files directory n nearest →
      discover files directory
        = load files (nearest.child fileName).display (nearest.child fileName) ∧
      (∀ settings, discover files directory = .ok settings ↔
        HeldIn files (nearest.child fileName) settings) ∧
      (∀ fault, files.read (nearest.child fileName) = .error fault →
        discover files directory = .error (.unreadable (nearest.child fileName).display fault)) ∧
      (∀ text, files.read (nearest.child fileName) = .ok text → read? text = none →
        discover files directory = .error (.malformed (nearest.child fileName).display)) ∧
      ∀ files', Nearest files' directory n nearest →
        files'.read (nearest.child fileName) = files.read (nearest.child fileName) →
        discover files' directory = discover files directory) ∧
    (NoneAbove files directory → discover files directory = .ok .default) ∧
    (discover files directory = .ok .default ↔ NoneAbove files directory ∨
      ∃ n nearest, Nearest files directory n nearest ∧
        HeldIn files (nearest.child fileName) .default) := by
  refine ⟨Path.above?_eq directory, ?_, fun n nearest h =>
    ⟨h.discover_eq, fun settings => ?_, fun fault hread => ?_,
    fun text htext hread => ?_, fun files' h' hsame => ?_⟩,
      discover_of_noneAbove files directory, ?_⟩
  · constructor
    · rintro ⟨n, nearest, h⟩
      exact h.not_noneAbove
    · exact (nearest_or_noneAbove files directory).resolve_right
  · rw [h.discover_eq]
    exact load_eq_ok_iff
  · rw [h.discover_eq]
    exact load_of_error hread
  · rw [h.discover_eq]
    exact load_of_malformed htext hread
  · rw [h'.discover_eq, h.discover_eq]
    exact load_congr hsame
  · constructor
    · intro hdefault
      -- Where there is a nearest file, the defaults have to come from its text.
      rcases nearest_or_noneAbove files directory with ⟨n, nearest, h⟩ | hnone
      · rw [h.discover_eq] at hdefault
        exact .inr ⟨n, nearest, h, load_eq_ok_iff.mp hdefault⟩
      · exact .inl hnone
    · rintro (hnone | ⟨n, nearest, h, hheld⟩)
      · exact discover_of_noneAbove files directory hnone
      · rw [h.discover_eq]
        exact load_eq_ok_iff.mpr hheld

open Settings in
/-- Seen from `/a/b/c`, a directory of the name in `/a/b` is no settings file. The one in `/a` makes
no sense, as its prompt is a number, and that is the result although there are good settings in
`/`. -/
theorem nearest_settings_count_if_malformed :
    let files := FileSystem.ofTable ⟨true, []⟩
      [(["a", "b", "c"], .directory), (["a", "b", fileName], .directory),
        (["a", fileName], .file "prompt = 1"), ([fileName], .file "prompt = \"> \"")]
    let directory : Path := ⟨true, ["a", "b", "c"]⟩
    Nearest files directory 2 ⟨true, ["a"]⟩ ∧
      discover files directory = .error (.malformed "/a/luminary.toml") := by
  intro files directory
  have hnearest : Nearest files directory 2 ⟨true, ["a"]⟩ := by
    refine ⟨rfl, rfl, fun k hk other hother => ?_⟩
    obtain rfl | rfl : k = 0 ∨ k = 1 := by omega
    · cases hother
      rfl
    · cases hother
      rfl
  obtain ⟨-, -, hcounts, -⟩ := nearest_settings_count files directory
  obtain ⟨-, -, -, hmalformed, -⟩ := hcounts 2 _ hnearest
  exact ⟨hnearest, hmalformed "prompt = 1" rfl (by with_unfolding_all rfl)⟩

end Script
