/-!
# Files

What a program sees of a file system: whether a path leads to a regular file, and the text in it or
the reason why it cannot be read.

A path is a list of names below the root or below the current directory. `Path.chain` is a directory
and all directories above it, nearest first.
-/

namespace Script

/-- A way to a file or directory. -/
structure Path where
  /-- Whether it starts at the root, and not at the current directory. -/
  isAbsolute : Bool
  /-- The names on the way. -/
  parts : List String
deriving DecidableEq, Repr

namespace Path

/-- The path that a text denotes. Empty names and single dots lead nowhere. -/
def ofString (s : String) : Path :=
  ⟨s.startsWith "/", (s.splitOn "/").filter fun part => part ≠ "" && part ≠ "."⟩

/-- A path as text. -/
def display (path : Path) : String :=
  (if path.isAbsolute then "/" else "") ++ String.intercalate "/" path.parts

/-- A name in a directory. -/
def child (path : Path) (name : String) : Path := { path with parts := path.parts ++ [name] }

/-- The directory above, unless there are no names left. -/
def parent? (path : Path) : Option Path :=
  if path.parts = [] then none else some { path with parts := path.parts.dropLast }

theorem length_parts_of_parent? {path above : Path} (h : path.parent? = some above) :
    above.parts.length < path.parts.length := by
  unfold parent? at h
  split at h
  · cases h
  · next hne =>
    cases h
    have := List.length_pos_iff.mpr hne
    simp only [List.length_dropLast]
    omega

/-- A directory and all directories above it. -/
def chain (path : Path) : List Path :=
  path ::
    match _h : path.parent? with
    | some above => above.chain
    | none => []
termination_by path.parts.length
decreasing_by exact length_parts_of_parent? (by assumption)

/-- A text that denotes a path, seen from a directory that another text denotes. Neither text is
changed. -/
def joinText (directory file : String) : String :=
  if file.startsWith "/" || directory.isEmpty then file
  else if directory.endsWith "/" then directory ++ file
  else directory ++ "/" ++ file

end Path

/-- Why a file cannot be read. -/
inductive FileFault where
  /-- There is nothing at the end of the path. -/
  | missing
  /-- The path goes on behind a file. -/
  | notDirectory
  /-- There is a directory at the end of the path. -/
  | isDirectory
  /-- The file may not be read. -/
  | denied
  /-- The bytes are no text. -/
  | notText
deriving DecidableEq, Repr

/-- What is said about a file that cannot be read. -/
def FileFault.message : FileFault → String
  | .missing => "No such file or directory (os error 2)"
  | .notDirectory => "Not a directory (os error 20)"
  | .isDirectory => "Is a directory (os error 21)"
  | .denied => "Permission denied (os error 13)"
  | .notText => "stream did not contain valid UTF-8"

/-- A file system. -/
structure FileSystem where
  /-- Whether a path leads to a regular file. -/
  isFile : Path → Bool
  /-- The text at the end of a path. -/
  read : Path → Except FileFault String

/-- Something in a file system. -/
inductive FileEntry where
  /-- A directory. -/
  | directory
  /-- A file and its text. -/
  | file (text : String)

namespace FileEntry

/-- Whether an entry is a regular file. -/
def isFile : FileEntry → Bool
  | .directory => false
  | .file _ => true

/-- The text of an entry. -/
def read : FileEntry → Except FileFault String
  | .directory => .error .isDirectory
  | .file text => .ok text

/-- Entries by the names that lead to them from the root. -/
abbrev Table := List (List String × FileEntry)

/-- What is found under names that lead there from the root. All directories on the way to an entry
exist. -/
def find? (table : Table) (parts : List String) : Option FileEntry :=
  match table.find? fun entry => entry.1 = parts with
  | some entry => some entry.2
  | none =>
    if parts = [] ∨ table.any fun entry => parts.isPrefixOf entry.1 then some .directory else none

/-- Follow names from a place. Two dots go up. -/
def follow (table : Table) (place : List String) : List String → Except FileFault FileEntry
  | [] => (find? table place).elim (.error .missing) .ok
  | part :: parts =>
    match find? table place with
    | none => .error .missing
    | some (.file _) => .error .notDirectory
    | some .directory =>
      follow table (if part = ".." then place.dropLast else place ++ [part]) parts

end FileEntry

/-- The file system of a table of entries, seen from a current directory. -/
def FileSystem.ofTable (current : Path) (table : FileEntry.Table) : FileSystem :=
  let resolve (path : Path) :=
    FileEntry.follow table [] (if path.isAbsolute then path.parts else current.parts ++ path.parts)
  { isFile := fun path => match resolve path with
      | .ok entry => entry.isFile
      | .error _ => false
    read := fun path => resolve path >>= FileEntry.read }

/-- The file system of what is known about some paths; there is nothing at any other path. A file
that cannot be read is a file all the same. -/
def FileSystem.ofKnown (known : List (Path × Except FileFault String)) : FileSystem :=
  let look (path : Path) : Except FileFault String :=
    match known.find? fun entry => entry.1 = path with
    | some entry => entry.2
    | none => .error .missing
  { isFile := fun path => match look path with
      | .ok _ => true
      | .error fault => fault == .notText || fault == .denied
    read := look }

end Script
