import ItemGuard.Item.Id
import ItemGuard.Text.Blank

/-!
# Tables of item names

A table gives ids to names. Names are compared by their normal form: without the blanks around
them, with `_` for every space and hyphen, and with small letters for `A` to `Z`. A later binding
of a name replaces an earlier one, and `extend` counts as making all bindings of the other table
last.
-/

namespace ItemGuard

/-- The normal form of one character of a name. -/
def normalChar (c : Char) : Char :=
  if c = ' ' ∨ c = '-' then '_' else c.toLower

/-- The form of a name that decides which names are the same. -/
def normalName (name : String) : String :=
  String.ofList ((Text.trim name.toList).map normalChar)

/-- Ids by the normal forms of names. -/
structure NameTable where
  ids : Std.ExtTreeMap String ItemId

namespace NameTable

def empty : NameTable := ⟨∅⟩

/-- Binds a name, in place of any earlier binding of the same name. -/
def insert (t : NameTable) (name : String) (item : ItemId) : NameTable :=
  ⟨t.ids.insert (normalName name) item⟩

/-- Binds the names of a list one after the other. -/
def insertAll (t : NameTable) (bindings : List (String × ItemId)) : NameTable :=
  bindings.foldl (fun t b => t.insert b.1 b.2) t

/-- Puts the bindings of another table over those of this one. -/
def extend (t other : NameTable) : NameTable :=
  ⟨t.ids ∪ other.ids⟩

def find? (t : NameTable) (name : String) : Option ItemId :=
  t.ids[normalName name]?

/-- The number of names, counting names with one normal form once. -/
def size (t : NameTable) : Nat :=
  t.ids.size

@[simp] theorem find?_empty (name : String) : empty.find? name = none := by
  simp [empty, find?]

/-- The names with the normal form of a new binding have its id, all others keep theirs. -/
theorem find?_insert (t : NameTable) (name other : String) (item : ItemId) :
    (t.insert name item).find? other =
      if normalName name = normalName other then some item else t.find? other := by
  simp [insert, find?, Std.ExtTreeMap.getElem?_insert]

/-- The other table is asked first. -/
theorem find?_extend (t other : NameTable) (name : String) :
    (t.extend other).find? name = (other.find? name).or (t.find? name) := by
  simp [extend, find?, Std.ExtTreeMap.getElem?_union]

end NameTable
end ItemGuard
