import ItemGuard.Action
import ItemGuard.Actor
import ItemGuard.Item.Id
import ItemGuard.Verdict

/-!
# Rules

A rule leaves each action open or restricts it to some groups, and it names groups that are exempt
from all its restrictions. `allows_eq_false_iff` states when a rule stops an actor; an action
without a restriction is open to everyone, so exempt groups alone restrict nothing.
-/

namespace ItemGuard

/-- What a rule says about the items it governs. -/
structure Rule where
  /-- Groups to which no restriction of the rule applies. -/
  exempt : List String
  /-- For each action, the groups that may do it; `none` leaves it open. -/
  destroy : Option (List String)
  leftClick : Option (List String)
  rightClick : Option (List String)
  deriving DecidableEq

namespace Rule

def unrestricted : Rule := ⟨[], none, none, none⟩

/-- The groups that may do an action, if it is restricted. -/
def permitted (r : Rule) : Action → Option (List String)
  | .destroy => r.destroy
  | .leftClick => r.leftClick
  | .rightClick => r.rightClick

/-- Restricts an action to some groups. -/
def restrict (r : Rule) (action : Action) (groups : List String) : Rule :=
  match action with
  | .destroy => { r with destroy := some groups }
  | .leftClick => { r with leftClick := some groups }
  | .rightClick => { r with rightClick := some groups }

def setExempt (r : Rule) (groups : List String) : Rule :=
  { r with exempt := groups }

def isRestricted (r : Rule) (action : Action) : Bool :=
  (r.permitted action).isSome

def isUnrestricted (r : Rule) : Bool :=
  Action.all.all fun a => !r.isRestricted a

/-- The rule lets the actor act: the action is open, or the actor is in a group that may do it or
in an exempt group. -/
def allows (r : Rule) (action : Action) (actor : Actor) : Bool :=
  match r.permitted action with
  | none => true
  | some groups => (groups ++ r.exempt).any actor.isIn

def denialReason (action : Action) (item : ItemId) : String :=
  action.name ++ " of item " ++ item.text ++ " denied"

/-- The verdict on an action with an item that the rule governs. -/
def judge (r : Rule) (action : Action) (item : ItemId) (actor : Actor) : Verdict :=
  if r.allows action actor then .allow else .deny (denialReason action item)

@[simp] theorem permitted_restrict (r : Rule) (action other : Action) (groups : List String) :
    (r.restrict action groups).permitted other =
      if action = other then some groups else r.permitted other := by
  cases action <;> cases other <;> rfl

@[simp] theorem exempt_restrict (r : Rule) (action : Action) (groups : List String) :
    (r.restrict action groups).exempt = r.exempt := by
  cases action <;> rfl

@[simp] theorem permitted_setExempt (r : Rule) (action : Action) (groups : List String) :
    (r.setExempt groups).permitted action = r.permitted action := by
  cases action <;> rfl

@[simp] theorem exempt_setExempt (r : Rule) (groups : List String) :
    (r.setExempt groups).exempt = groups := rfl

/-- Two rules with the same exempt groups and the same restrictions are equal. -/
theorem ext_permitted {r s : Rule} (he : r.exempt = s.exempt)
    (hp : ∀ a, r.permitted a = s.permitted a) : r = s := by
  cases r
  cases s
  have h1 := hp .destroy
  have h2 := hp .leftClick
  have h3 := hp .rightClick
  simp_all [permitted]

/-- A rule stops exactly those who are neither in a group that may act nor in an exempt one. -/
theorem allows_eq_false_iff {r : Rule} {action : Action} {actor : Actor} :
    r.allows action actor = false ↔
      ∃ groups, r.permitted action = some groups ∧
        ∀ g ∈ groups ++ r.exempt, actor.isIn g = false := by
  rw [allows]
  cases r.permitted action <;> simp [or_imp, forall_and]

/-- The verdict is a denial exactly when the rule stops the actor. -/
theorem isDenial_judge {r : Rule} {action : Action} {item : ItemId} {actor : Actor} :
    (r.judge action item actor).isDenial = !r.allows action actor := by
  rw [judge]
  cases r.allows action actor <;> rfl

end Rule
end ItemGuard
