import Std.Data.ExtTreeMap

/-!
# Strikes

A tally is what a host keeps about actors between events: it hears of every denial and is told to
forget an actor that leaves. The strike counter counts the denials of each name since that name
was last forgotten, in 32-bit arithmetic; the empty tally keeps nothing.
-/

namespace ItemGuard

/-- State about actors that lasts until they leave. -/
class Tally (τ : Type) where
  /-- An action of the named actor was denied. -/
  record : τ → String → τ
  /-- The named actor left. -/
  forget : τ → String → τ

instance : Tally Unit where
  record t _ := t
  forget t _ := t

/-- A tally that may be missing. -/
instance {τ : Type} [Tally τ] : Tally (Option τ) where
  record t name := t.map fun t => Tally.record t name
  forget t name := t.map fun t => Tally.forget t name

/-- The denials of each name since it was last forgotten. -/
structure Strikes where
  counts : Std.ExtTreeMap String UInt32

namespace Strikes

def empty : Strikes := ⟨∅⟩

def count (s : Strikes) (name : String) : UInt32 :=
  s.counts.getD name 0

def add (s : Strikes) (name : String) : Strikes :=
  ⟨s.counts.insert name (s.count name + 1)⟩

def drop (s : Strikes) (name : String) : Strikes :=
  ⟨s.counts.erase name⟩

def tracked (s : Strikes) : Nat :=
  s.counts.size

instance : Tally Strikes where
  record := add
  forget := drop

@[simp] theorem count_empty (name : String) : empty.count name = 0 := by
  simp [empty, count]

theorem count_add (s : Strikes) (name other : String) :
    (s.add name).count other = if name = other then s.count name + 1 else s.count other := by
  simp [add, count, Std.ExtTreeMap.getD_insert]

theorem count_drop (s : Strikes) (name other : String) :
    (s.drop name).count other = if name = other then 0 else s.count other := by
  simp [drop, count, Std.ExtTreeMap.getD_erase]

end Strikes
end ItemGuard
