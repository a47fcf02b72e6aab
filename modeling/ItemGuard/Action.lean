/-!
# Actions

What an actor can do with a block or item: destroy the block, click with the item on the left, or
click with it on the right, which places or uses it.
-/

namespace ItemGuard

/-- A kind of action on a block or with an item. -/
inductive Action where
  | destroy
  | leftClick
  | rightClick
  deriving DecidableEq

/-- The name of the action in reasons and records. -/
def Action.name : Action → String
  | .destroy => "destroy"
  | .leftClick => "left_click"
  | .rightClick => "right_click"

def Action.all : List Action :=
  [.destroy, .leftClick, .rightClick]

theorem Action.mem_all (a : Action) : a ∈ Action.all := by
  cases a <;> decide

theorem Action.name_inj {a b : Action} (h : a.name = b.name) : a = b := by
  cases a <;> cases b <;> simp_all [Action.name]

end ItemGuard
