import ItemGuard.Guard.Reload
import ItemGuard.Item.Classic

/-!
# Starting from settings

A guard that starts from settings knows the classic names and those of the table of further names,
logs denials as the settings say, and loads the blacklist. Each of the three files may be missing
or unfit without an effect on the other two.
-/

namespace ItemGuard.Guard

open Audit (Logger)
open Storage (Files)

/-- The names that the settings give, and what is wrong with their table. -/
def namesOf (s : Settings) (env : Environment) (fs : Files) : NameTable × List Diagnostic :=
  match s.itemTablePath env with
  | none => (.classic, [])
  | some path =>
    match NameTable.ofFile fs path with
    | .ok extra => (NameTable.classic.extend extra, [])
    | .error e => (.classic, [.namesUnread path e])

/-- The guard that the settings ask for. -/
def ofSettings (s : Settings) (env : Environment) (fs : Files) : Guard Logger Unit :=
  let (names, namesLog) := namesOf s env fs
  let (logger, fs, loggerLog) := Logger.ofSettings s.audit env fs
  let g := (start names.registry logger () fs).report (namesLog ++ loggerLog)
  match g.reloadPath (s.blacklistPath env) with
  | (.ok _, g) => g
  | (.error e, g) => g.report [.startedEmpty e]

end ItemGuard.Guard
