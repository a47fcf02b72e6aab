import ItemGuard.Actor
import ItemGuard.Item.Id

/-!
# Host events

What a host tells the guard: a player clicks with the right, which places or uses the held item; a
player clicks with the left, which breaks the target block; a player leaves.
-/

namespace ItemGuard

/-- Something that happens on the host. -/
inductive Event where
  /-- A right click on a block with the held item, which would place a block. -/
  | blockPlace (player : Player) (placed clicked held : ItemId)
  /-- A left click on the target block with the held item. -/
  | blockBreak (player : Player) (held target : ItemId)
  | disconnect (player : Player)
  deriving DecidableEq

namespace Event

def player : Event → Player
  | blockPlace player _ _ _ => player
  | blockBreak player _ _ => player
  | disconnect player => player

def summary : Event → String
  | blockPlace player _ _ held => player.name ++ " right-clicked with " ++ held.text
  | blockBreak player held target =>
    player.name ++ " left-clicked " ++ target.text ++ " with " ++ held.text
  | disconnect player => player.name ++ " disconnected"

end Event
end ItemGuard
