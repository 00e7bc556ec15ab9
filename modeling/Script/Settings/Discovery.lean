import Script.FileSystem
import Script.Settings.Reader

/-!
# Finding settings

Settings are kept in a file of a fixed name. The one that counts is that in the nearest directory,
going up from where one stands: it is used even if it cannot be read or is malformed, and then there
are no settings at all but an error. Only if no directory on the way up has one are the settings the
defaults.
-/

namespace Script

/-- Why there are no settings. -/
inductive SettingsError where
  /-- The file cannot be read. -/
  | unreadable (path : String) (fault : FileFault)
  /-- The file does not hold settings. -/
  | malformed (path : String)
deriving DecidableEq, Repr

/-- What is said about settings that are not there. -/
def SettingsError.message : SettingsError → String
  | .unreadable path fault => "cannot read " ++ path ++ ": " ++ fault.message
  | .malformed path => "invalid config " ++ path

namespace Settings

/-- The name of the file that settings are kept in. -/
def fileName : String := "luminary.toml"

/-- The settings in a file that is known under a name. -/
def load (files : FileSystem) (name : String) (path : Path) : Except SettingsError Settings :=
  match files.read path with
  | .error fault => .error (.unreadable name fault)
  | .ok document =>
    match read? document with
    | some settings => .ok settings
    | none => .error (.malformed name)

/-- The places where settings are looked for, nearest first. -/
def candidates (directory : Path) : List Path :=
  directory.chain.map fun above => above.child fileName

/-- The settings that count in a directory. -/
def discover (files : FileSystem) (directory : Path) : Except SettingsError Settings :=
  match (candidates directory).find? files.isFile with
  | some path => load files path.display path
  | none => .ok .default

/-- Where the lines typed at the prompt are kept: in the home directory, unless the path is
absolute. -/
def historyPath (settings : Settings) (home : Option String) : Option String :=
  if settings.historyFile.startsWith "/" then some settings.historyFile
  else home.map fun directory => Path.joinText directory settings.historyFile

end Settings

end Script
