import ItemGuard.Text.Numeral
import Std.Data.ExtTreeMap

/-!
# Item ids

Blocks and items are known by the numeric codes of the game server. The code 0 stands for "no such
item": a registry that answers with it has no item of that name, although a numeral may still name
the code itself.
-/

namespace ItemGuard

/-- The numeric code of a block or item. -/
structure ItemId where
  val : UInt32
  deriving DecidableEq, Inhabited

namespace ItemId

/-- The code 0 stands for no item. -/
def isNone (item : ItemId) : Bool :=
  item.val == 0

/-- The code with the given value; values from 2³² on do not occur. -/
def ofNat (n : Nat) : ItemId :=
  ⟨UInt32.ofNat n⟩

/-- One more than the largest code: 2³². -/
def bound : Nat := 4294967296

def toNat (item : ItemId) : Nat :=
  item.val.toNat

def text (item : ItemId) : String :=
  String.ofList (Text.decimal item.toNat)

/-- Codes are ordered by their values. -/
instance : Ord ItemId where
  compare a b := compare a.val b.val

instance : Std.TransOrd ItemId :=
  inferInstanceAs (Std.TransCmp (compareOn ItemId.val))

instance : Std.LawfulEqOrd ItemId where
  eq_of_compare {a b} h := by
    cases a
    cases b
    exact congrArg ItemId.mk (Std.LawfulEqOrd.eq_of_compare h)

def isAtMost (a b : ItemId) : Bool :=
  (compare a b).isLE

theorem isAtMost_iff {a b : ItemId} : a.isAtMost b = true ↔ a.val ≤ b.val := by
  change (compare a.val b.val).isLE = true ↔ a.val ≤ b.val
  exact Std.isLE_compare

theorem toNat_lt_bound (item : ItemId) : item.toNat < bound :=
  item.val.toNat_lt

/-- An id is written in decimal digits. -/
theorem text_eq (item : ItemId) : item.text = toString item.val := rfl

@[simp] theorem ofNat_toNat (item : ItemId) : ofNat item.toNat = item := by
  simp [ofNat, toNat]

theorem toNat_ofNat {n : Nat} (h : n < bound) : (ofNat n).toNat = n := by
  simp only [bound] at h
  simp [ofNat, toNat]
  omega

end ItemId
end ItemGuard
