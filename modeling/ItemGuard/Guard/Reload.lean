import ItemGuard.Blacklist.Report
import ItemGuard.Guard.Basic

/-!
# Loading blacklists

A blacklist that is loaded replaces the ruleset in force; one that says nothing about any item
leaves none. A file that cannot be read changes nothing.
-/

namespace ItemGuard

open Blacklist (LoadError Notice Report)

/-- What a loaded blacklist amounts to. -/
structure Outcome where
  /-- The number of items that have a rule. -/
  items : Nat
  rules : Nat
  notices : List Notice
  deriving DecidableEq

namespace Blacklist

/-- What the report of a blacklist amounts to. -/
def Report.outcome (r : Report) : Outcome :=
  ⟨r.itemCount, r.ruleCount, r.notices⟩

/-- The diagnostics about the lines of the named blacklist. -/
def Report.noticeLog (r : Report) (source : String) : List Diagnostic :=
  r.notices.map (.notice source)

/-- The diagnostic that says what of the named blacklist is in force. -/
def Report.loadedLog (r : Report) (source : String) : Diagnostic :=
  if r.itemCount = 0 then .nothingLoaded source
  else .loaded source r.itemCount r.ruleCount r.notices.length

end Blacklist

namespace Guard

variable {σ τ : Type}

/-- Puts the blacklist in force that a text from the named source contains. -/
def reloadFrom (g : Guard σ τ) (source text : String) : Outcome × Guard σ τ :=
  let r := Blacklist.read g.registry text
  (r.outcome,
    { g.report (r.noticeLog source ++ [r.loadedLog source]) with ruleset? := r.ruleset? })

def reload (g : Guard σ τ) (text : String) : Outcome × Guard σ τ :=
  g.reloadFrom "blacklist" text

/-- Puts the blacklist in force that was read from a path, if it could be read. -/
def reloadRead (g : Guard σ τ) (path : String) (content : Except Storage.Failure String) :
    Except LoadError Outcome × Guard σ τ :=
  match content with
  | .error failure =>
    let e := LoadError.ofFailure path failure
    (.error e, g.report [.blacklistUnread e])
  | .ok text =>
    let (outcome, g) := g.reloadFrom path text
    (.ok outcome, g)

/-- Puts the blacklist in the file of a path in force. -/
def reloadPath (g : Guard σ τ) (path : String) : Except LoadError Outcome × Guard σ τ :=
  g.reloadRead path (g.files.readText path)

end Guard
end ItemGuard
