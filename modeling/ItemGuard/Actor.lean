import ItemGuard.Text.Letters

/-!
# Actors

An actor has a name, under which it is recorded, and belongs to groups. The host decides who
belongs to a group: an actor carries an arbitrary test. A player is the actor with a fixed list of
groups, whose names are compared up to the case of letters.
-/

namespace ItemGuard

/-- Someone who acts: a name and a test for membership in groups. -/
structure Actor where
  name : String
  isIn : String → Bool

/-- A player with a fixed list of groups. -/
structure Player where
  name : String
  groups : List String
  deriving DecidableEq

namespace Player

/-- A player is in a group if it lists the group, up to the case of letters. -/
def isIn (p : Player) (group : String) : Bool :=
  p.groups.any fun g => Text.sameLetters g group

def actor (p : Player) : Actor :=
  ⟨p.name, p.isIn⟩

/-- The player as an actor whose groups are compared letter by letter. -/
def exactActor (p : Player) : Actor :=
  ⟨p.name, fun group => p.groups.contains group⟩

theorem isIn_iff {p : Player} {group : String} :
    p.isIn group = true ↔ ∃ g ∈ p.groups, Text.foldCase g = Text.foldCase group := by
  simp [isIn, Text.sameLetters_iff]

end Player
end ItemGuard
