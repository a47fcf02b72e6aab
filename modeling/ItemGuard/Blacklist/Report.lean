import ItemGuard.Blacklist.Line
import ItemGuard.Blacklist.Option
import ItemGuard.Item.Registry
import ItemGuard.Rule.Draft
import ItemGuard.Text.Lines

/-!
# Reading a blacklist

A header opens a section: the items named by its tokens, up to the first token that names no item,
get a new slot in common, and the options below it change the rule in that slot until the next
header. A header that names no item opens a section without a slot, whose options change nothing.
An item named by several headers belongs to the last of them.
-/

namespace ItemGuard.Blacklist

/-- Where a line stands. -/
inductive Place where
  /-- Before the first header. -/
  | preamble
  /-- In the section of a slot, or in a section without one. -/
  | within (slot : Option Nat)
  deriving DecidableEq

/-- The items of the tokens before the first that names none, and that token if there is one. -/
def leadingItems (registry : Registry) : List (List Char) → List ItemId × Option (List Char)
  | [] => ([], none)
  | token :: tokens =>
    match registry.resolveTrimmed token with
    | none => ([], some token)
    | some item =>
      let (items, stop) := leadingItems registry tokens
      (item :: items, stop)

/-- Binds items to a new slot; without items there is none. -/
def openSlot (d : Draft) (items : List ItemId) : Option Nat × Draft :=
  match items with
  | [] => (none, d)
  | _ :: _ =>
    let slot := d.nextSlot
    (some slot, items.foldl (fun d item => d.bind item slot) d.add)

/-- Reads one line at a place: the place behind it, the draft with what it says, and what is wrong
with it. -/
def readLine (registry : Registry) (place : Place) (d : Draft) :
    Line → Place × Draft × Option Cause
  | .silent => (place, d, none)
  | .header tokens =>
    let (items, stop) := leadingItems registry tokens
    let (slot, d) := openSlot d items
    (.within slot, d, stop.map fun token => .unknownItem (String.ofList token))
  | .option text =>
    match place with
    | .preamble => (place, d, some (.noSection (String.ofList text)))
    | .within slot =>
      match readOption text with
      | .error cause => (place, d, some cause)
      | .ok (key, groups) =>
        match slot with
        | none => (place, d, none)
        | some n => (place, d.edit n (key.apply groups), none)

/-- Reads lines from a place on, numbered from the given number. -/
def readLines (registry : Registry) :
    Nat → Place → Draft → List (List Char) → Draft × List Notice
  | _, _, d, [] => (d, [])
  | n, place, d, raw :: rest =>
    let (place, d, cause) := readLine registry place d (Line.ofText raw)
    let (d, notices) := readLines registry (n + 1) place d rest
    (d, (cause.map fun c => ⟨n, c⟩).toList ++ notices)

/-- What a blacklist says. -/
structure Report where
  /-- The rules, unless no item has one. -/
  ruleset? : Option Ruleset
  /-- What is wrong with its lines, in their order. -/
  notices : List Notice

namespace Report

/-- The number of items that have a rule. -/
def itemCount (r : Report) : Nat :=
  (r.ruleset?.map Ruleset.size).getD 0

def ruleCount (r : Report) : Nat :=
  (r.ruleset?.map Ruleset.ruleCount).getD 0

end Report

/-- Reads a blacklist given as characters. -/
def readChars (registry : Registry) (text : List Char) : Report :=
  let (d, notices) := readLines registry 1 .preamble .empty (Text.lines text)
  ⟨d.build?, notices⟩

def read (registry : Registry) (text : String) : Report :=
  readChars registry text.toList

end ItemGuard.Blacklist
