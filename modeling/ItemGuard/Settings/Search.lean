import ItemGuard.Diagnostic

/-!
# Finding the settings

Settings are looked for in the working directory, then in the user's directory for settings, then
in that of the system. A file that is there and cannot be read is reported and passed over; if no
file is left, the default settings hold.
-/

namespace ItemGuard.Settings

/-- The places where settings are looked for, in their order. -/
def places (env : Environment) : List String :=
  "worldprotect.toml"
    :: (env.configDirectory?.map fun d => Storage.joinPath d "worldprotect/config.toml").toList
    ++ ["/etc/worldprotect/config.toml"]

/-- Reads settings from the first of some places that has them, or takes the defaults. -/
def firstOf (fs : Storage.Files) : List String → Settings × List Diagnostic
  | [] => (.default, [])
  | path :: paths =>
    if fs.pathExists path then
      match ofFile fs path with
      | .ok settings => (settings, [])
      | .error e =>
        let (settings, log) := firstOf fs paths
        (settings, .settingsUnread path e :: log)
    else firstOf fs paths

/-- The settings that hold. -/
def search (env : Environment) (fs : Storage.Files) : Settings × List Diagnostic :=
  firstOf fs (places env)

end ItemGuard.Settings
