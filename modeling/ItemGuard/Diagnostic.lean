import ItemGuard.Audit.Record
import ItemGuard.Blacklist.Failure
import ItemGuard.Blacklist.Notice
import ItemGuard.Item.TableFile
import ItemGuard.Settings.Document

/-!
# Diagnostics

What the guard reports about its work. Each diagnostic is a cause with its data; its level, its
wording and its fields follow from the cause. Records of denials have a channel of their own.
-/

namespace ItemGuard

/-- How much a diagnostic matters. -/
inductive Level where
  | trace
  | debug
  | info
  | warn
  deriving DecidableEq

/-- Where a diagnostic goes. -/
inductive Channel where
  | diagnostics
  | audit
  deriving DecidableEq

/-- The value of a field of a diagnostic. -/
inductive FieldValue where
  | text (value : String)
  | number (value : Nat)
  deriving DecidableEq

/-- Something worth reporting. -/
inductive Diagnostic where
  /-- A line of the named blacklist is wrong. -/
  | notice (source : String) (notice : Blacklist.Notice)
  /-- The named blacklist is in force, with so many items, rules and notices. -/
  | loaded (source : String) (items rules notices : Nat)
  /-- The named blacklist has no rules. -/
  | nothingLoaded (source : String)
  | blacklistUnread (error : Blacklist.LoadError)
  /-- A new guard has no blacklist. -/
  | startedEmpty (error : Blacklist.LoadError)
  /-- A table of item names could not be had. -/
  | namesUnread (path : String) (error : NameTableError)
  /-- Settings could not be had. -/
  | settingsUnread (path : String) (error : SettingsError)
  /-- The file of the audit log could not be opened. -/
  | logUnopened (path : String) (failure : Storage.Failure)
  | recordUnwritten (failure : Storage.Failure)
  /-- An action of the named actor is denied. -/
  | denied (actor reason : String)
  | event (summary : String)
  | record (record : Audit.Record)
  deriving DecidableEq

namespace Diagnostic

def level : Diagnostic → Level
  | notice .. => .warn
  | loaded .. => .info
  | nothingLoaded .. => .info
  | blacklistUnread .. => .warn
  | startedEmpty .. => .debug
  | namesUnread .. => .warn
  | settingsUnread .. => .warn
  | logUnopened .. => .warn
  | recordUnwritten .. => .warn
  | denied .. => .debug
  | event .. => .trace
  | record .. => .info

def channel : Diagnostic → Channel
  | record .. => .audit
  | _ => .diagnostics

/-- A number in a message. -/
def count (n : Nat) : String :=
  String.ofList (Text.decimal n)

def message : Diagnostic → String
  | notice _ n => n.message
  | loaded source items rules notices =>
    "Loaded " ++ count items ++ " blacklist items (" ++ count rules ++ " rules, " ++ count notices
      ++ " warnings) from " ++ source
  | nothingLoaded source => "No blacklist entries in " ++ source
  | blacklistUnread error => "Could not load blacklist: " ++ error.message
  | startedEmpty error => "Starting without a blacklist: " ++ error.message
  | namesUnread path error => "Could not load item table " ++ path ++ ": " ++ error.message
  | settingsUnread path error => "Failed to load " ++ path ++ ": " ++ error.message
  | logUnopened path failure =>
    "Could not open blacklist log file " ++ path ++ ": " ++ failure.text
  | recordUnwritten failure => "Failed to write blacklist audit record: " ++ failure.text
  | denied _ reason => "Suppressed: " ++ reason
  | event summary => summary
  | record r => r.summary

/-- The data of the diagnostic beside its message. -/
def fields : Diagnostic → List (String × FieldValue)
  | notice source _ => [("source", .text source)]
  | denied actor _ => [("actor", .text actor)]
  | record r =>
    [("actor", .text r.actor), ("item", .number r.item.toNat), ("action", .text r.action.name),
      ("decision", .text Audit.Record.decision)]
  | _ => []

end Diagnostic
end ItemGuard
