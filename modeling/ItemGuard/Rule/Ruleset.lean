import ItemGuard.Rule.Basic

/-!
# Rulesets

A ruleset keeps its rules in numbered slots and sends each item that has a rule to a slot. Items
sent to the same slot are aliases: one rule governs them all.
-/

namespace ItemGuard

/-- Rules by slot, and the slot of each item that has a rule. -/
structure Ruleset where
  rules : List Rule
  slots : Std.ExtTreeMap ItemId Nat

namespace Ruleset

def slot? (s : Ruleset) (item : ItemId) : Option Nat :=
  s.slots[item]?

def rule? (s : Ruleset) (item : ItemId) : Option Rule :=
  (s.slot? item).bind fun n => s.rules[n]?

def contains (s : Ruleset) (item : ItemId) : Bool :=
  s.slots.contains item

/-- The items that have a rule, in ascending order. -/
def items (s : Ruleset) : List ItemId :=
  s.slots.keys

/-- The items in the slot of an item, in ascending order; it is one of them. The items with their
slots are met in some order. -/
def aliasesFrom (s : Ruleset) (bindings : List (ItemId × Nat)) (item : ItemId) : List ItemId :=
  match s.slot? item with
  | none => []
  | some n => ((bindings.filter fun b => b.2 == n).map Prod.fst).mergeSort ItemId.isAtMost

def aliases (s : Ruleset) (item : ItemId) : List ItemId :=
  s.aliasesFrom s.slots.toList item

def size (s : Ruleset) : Nat :=
  s.slots.size

def ruleCount (s : Ruleset) : Nat :=
  s.rules.length

/-- Rulesets with the same rules that send every item to the same slot are equal. -/
theorem ext_slots {s t : Ruleset} (hr : s.rules = t.rules)
    (hs : ∀ item, s.slot? item = t.slot? item) : s = t := by
  cases s
  cases t
  simp only [slot?] at hr hs
  subst hr
  rw [Std.ExtTreeMap.ext_getElem? hs]

end Ruleset
end ItemGuard
