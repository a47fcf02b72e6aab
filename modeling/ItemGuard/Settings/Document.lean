import ItemGuard.Settings.Basic
import ItemGuard.Storage.Files
import ItemGuard.Toml.Field

/-!
# Settings in TOML

A document of settings has the sections `blacklist`, `items`, `audit` and `logging`. Everything
that it does not say has its default. `defaultDocument` says the defaults.
-/

namespace ItemGuard

/-- Why settings cannot be had. -/
inductive SettingsError where
  /-- The file cannot be read. -/
  | unread (failure : Storage.Failure)
  /-- The text is no document of settings. -/
  | malformed (fault : Toml.Fault)
  deriving DecidableEq

def SettingsError.message : SettingsError → String
  | unread failure => "I/O error: " ++ failure.text
  | malformed fault => "invalid configuration: " ++ fault.message

namespace Settings

open Toml (Entries Fault Fields Value)

/-- Reads a section from the values of its fields, or with the fields all missing. -/
def readSection {α : Type} (document : Fields) (position : Nat) (name : String)
    (read : Fields → Except Fault α) : Except Fault α := do
  read (← document.getD position name Value.asFields (.named []))

/-- A text that may be missing. -/
def optionalString (value : Value) : Except Fault (Option String) := do
  .ok (some (← value.asString))

/-- One more than the largest size of a file in the settings: 2⁶⁴. -/
def sizeBound : Nat := 18446744073709551616

/-- One more than the largest number of files in the settings: 2³². -/
def countBound : Nat := 4294967296

def readAudit (fields : Fields) : Except Fault AuditSettings := do
  let d := AuditSettings.default
  .ok {
    console := ← fields.getD 0 "console" Value.asBoolean d.console
    file := ← fields.getD 1 "file" optionalString d.file
    fileLimit := ← fields.getD 2 "file_limit" (Value.asNatural sizeBound) d.fileLimit
    fileCount := ← fields.getD 3 "file_count" (Value.asNatural countBound) d.fileCount }

/-- Reads settings from the entries of a document. -/
def readFields (document : Fields) : Except Fault Settings := do
  let d := Settings.default
  .ok {
    blacklist := ← readSection document 0 "blacklist" fun fields =>
      fields.getD 0 "path" Value.asString d.blacklist
    itemTable := ← readSection document 1 "items" fun fields =>
      fields.getD 0 "table" optionalString d.itemTable
    audit := ← readSection document 2 "audit" readAudit
    level := ← readSection document 3 "logging" fun fields =>
      fields.getD 0 "level" Value.asString d.level }

def ofToml (text : String) : Except SettingsError Settings :=
  match Toml.Document.read text >>= fun entries => readFields (.named entries) with
  | .ok settings => .ok settings
  | .error fault => .error (.malformed fault)

def ofFile (fs : Storage.Files) (path : String) : Except SettingsError Settings :=
  match fs.readText path with
  | .error failure => .error (.unread failure)
  | .ok text => ofToml text

/-- A document that says the default settings. -/
def defaultDocument : String :=
  String.intercalate "\n"
    ["", "[blacklist]", "path = \"worldprotect-blacklist.txt\"", "", "[items]", "", "[audit]",
      "console = true", "file_limit = 5242880", "file_count = 10", "", "[logging]",
      "level = \"info\"", ""]

end Settings
end ItemGuard
