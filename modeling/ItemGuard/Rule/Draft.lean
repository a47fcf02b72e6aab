import ItemGuard.Rule.Ruleset

/-!
# Drafts of rulesets

A draft collects rules in slots and binds items to slots; binding an item again moves it. `build?`
keeps the slots that some item is bound to, in their order, numbers them from 0, and drops the
items bound to slots that do not exist. Without any bound item there is no ruleset.
-/

namespace ItemGuard

/-- Rules on their way to new slots: those that wait in their old slots, those that have a new slot,
in its order, and the new slots of old ones. -/
structure Renumbering where
  waiting : List (Option Rule)
  rules : List Rule
  newSlots : Std.ExtTreeMap Nat Nat

namespace Renumbering

def start (rules : List Rule) : Renumbering :=
  ⟨rules.map some, [], ∅⟩

/-- Moves the rule of a slot to the next new slot, if one waits there. -/
def move (r : Renumbering) (slot : Nat) : Renumbering :=
  match r.waiting[slot]?.join with
  | none => r
  | some rule =>
    { waiting := r.waiting.set slot none
      rules := r.rules ++ [rule]
      newSlots := r.newSlots.insert slot r.rules.length }

end Renumbering

/-- A ruleset in the making. -/
structure Draft where
  rules : List Rule
  slots : Std.ExtTreeMap ItemId Nat

namespace Draft

def empty : Draft := ⟨[], ∅⟩

def nextSlot (d : Draft) : Nat :=
  d.rules.length

/-- Opens a new slot with a rule without restrictions. -/
def add (d : Draft) : Draft :=
  { d with rules := d.rules ++ [.unrestricted] }

/-- Binds an item to a slot, which need not exist. -/
def bind (d : Draft) (item : ItemId) (slot : Nat) : Draft :=
  { d with slots := d.slots.insert item slot }

/-- Changes the rule in a slot; a slot that does not exist is left alone. -/
def edit (d : Draft) (slot : Nat) (change : Rule → Rule) : Draft :=
  { d with rules := d.rules.modify slot change }

def size (d : Draft) : Nat :=
  d.slots.size

/-- The new slots of the slots that items are bound to: those come one after the other in ascending
order, each of them once. -/
def renumber (d : Draft) (bindings : List (ItemId × Nat)) : Renumbering :=
  ((bindings.map Prod.snd).mergeSort Nat.ble).eraseReps.foldl .move (.start d.rules)

/-- The ruleset that comes of the bindings of a draft, met in some order, if there is one. -/
def buildFrom? (d : Draft) (bindings : List (ItemId × Nat)) : Option Ruleset :=
  if bindings.isEmpty then none
  else
    let renumbering := d.renumber bindings
    some {
      rules := renumbering.rules
      slots := .ofList (bindings.filterMap fun b =>
        renumbering.newSlots[b.2]?.map fun n => (b.1, n)) }

/-- The ruleset of the used slots, if any item is bound. -/
def build? (d : Draft) : Option Ruleset :=
  d.buildFrom? d.slots.toList

end Draft
end ItemGuard
