import ItemGuard.Storage.Path
import ItemGuard.Text.Blank

/-!
# Settings

Where the blacklist, the item table and the audit log are, and how much is logged. A path that
starts with `~/` lies in the home directory; `expandPath` says where that is.
-/

namespace ItemGuard

/-- Where the directories of the user are. -/
structure Environment where
  /-- The home directory; an empty text counts as none. -/
  home : Option String
  /-- The directory for settings, if it is not the usual one in the home directory. -/
  configHome : Option String

namespace Environment

/-- The home directory, if there is one. -/
def home? (env : Environment) : Option String :=
  env.home.filter fun h => !h.isEmpty

/-- The directory for settings: the one that is set, if it is an absolute path, and otherwise
`.config` in the home directory. -/
def configDirectory? (env : Environment) : Option String :=
  match env.configHome.filter fun d => d.toList.head? == some '/' with
  | some directory => some directory
  | none => env.home?.map fun home => Storage.joinPath home ".config"

/-- The path with a leading `~/` replaced by the home directory. -/
def expandPath (env : Environment) (path : String) : String :=
  match path.toList, env.home? with
  | '~' :: '/' :: rest, some home => Storage.joinPath home (String.ofList rest)
  | _, _ => path

end Environment

structure AuditSettings where
  /-- Records are shown among the diagnostics. -/
  console : Bool
  /-- The path of the log file; no file is written if it is missing or blank. -/
  file : Option String
  /-- The size from which the file rolls over; 0 for never. -/
  fileLimit : Nat
  /-- The number of files to keep, the active one among them. -/
  fileCount : Nat
  deriving DecidableEq

/-- The settings of the guard. -/
structure Settings where
  blacklist : String
  /-- The path of a table of further item names. -/
  itemTable : Option String
  audit : AuditSettings
  /-- The level of the diagnostics that are shown. -/
  level : String
  deriving DecidableEq

/-- Records are shown and not written to a file. -/
def AuditSettings.default : AuditSettings where
  console := true
  file := none
  fileLimit := 5 * 1024 * 1024
  fileCount := 10

/-- The expanded path of the log file. -/
def AuditSettings.filePath (s : AuditSettings) (env : Environment) : Option String :=
  ((s.file.map Text.trimString).filter fun p => !p.isEmpty).map env.expandPath

namespace Settings

/-- The settings that hold where nothing else is said. -/
def default : Settings where
  blacklist := "worldprotect-blacklist.txt"
  itemTable := none
  audit := .default
  level := "info"

def blacklistPath (s : Settings) (env : Environment) : String :=
  env.expandPath s.blacklist

/-- The expanded path of the table of further item names. -/
def itemTablePath (s : Settings) (env : Environment) : Option String :=
  s.itemTable.map env.expandPath

end Settings
end ItemGuard
