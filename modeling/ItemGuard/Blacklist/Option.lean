import ItemGuard.Blacklist.Notice
import ItemGuard.Rule.Basic
import ItemGuard.Text.Blank
import ItemGuard.Text.Fields

/-!
# Options

An option line is a key and a list of groups with `=` between them, split at the first one. There
are four keys, compared without the blanks around them and up to the case of letters: one for the
exempt groups and one for each action.
-/

namespace ItemGuard.Blacklist

/-- What an option sets. -/
inductive OptionKey where
  | exempt
  | restrict (action : Action)
  deriving DecidableEq

namespace OptionKey

/-- The action that the option restricts. -/
def action? : OptionKey → Option Action
  | exempt => none
  | restrict action => some action

def name : OptionKey → String
  | exempt => "ignore-groups"
  | restrict .destroy => "on-destroy"
  | restrict .leftClick => "on-left"
  | restrict .rightClick => "on-right"

def all : List OptionKey :=
  [exempt, restrict .destroy, restrict .leftClick, restrict .rightClick]

/-- Reads a key. No letter outside `A` to `Z` has a small form that occurs in a key, so folding
those is enough to ignore case. -/
def ofText? (text : List Char) : Option OptionKey :=
  let key := Text.foldCase (String.ofList (Text.trim text))
  all.find? fun k => k.name == key

/-- Sets the groups of the option in a rule. -/
def apply (key : OptionKey) (groups : List String) (r : Rule) : Rule :=
  match key with
  | exempt => r.setExempt groups
  | restrict action => r.restrict action groups

end OptionKey

/-- The groups of a list: its fields between commas, without the blanks around them and without
the fields that are blank. -/
def groupsOf (value : List Char) : List String :=
  (((Text.splitOn ',' value).map Text.trim).filter fun f => !f.isEmpty).map String.ofList

/-- Reads an option line: its key and its groups, or what is wrong with it. A value that is not
blank may still list no group. -/
def readOption (text : List Char) : Except Cause (OptionKey × List String) :=
  match Text.cut? '=' text with
  | none => .error (.missingValue (String.ofList text))
  | some (key, value) =>
    if (Text.trim value).isEmpty then .error (.missingValue (String.ofList text))
    else
      match OptionKey.ofText? key with
      | none => .error (.unknownOption (String.ofList (Text.trim key)))
      | some k => .ok (k, groupsOf value)

end ItemGuard.Blacklist
