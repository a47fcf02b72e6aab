import ItemGuard.Toml.Value

/-!
# Building tables

A key or a header names a table by a path of keys, and makes the tables on the way that are
missing. `descend` follows a path and changes the table at its end. A dotted key may only pass
through tables that were made by dotted keys or implied by headers; a header may also pass through
finished tables. Both enter an array of tables at its last table, where a dotted key has to go on to
a table of its own.
-/

namespace ItemGuard.Toml

/-- Replaces the value of a key, or adds it behind the others. -/
def Entries.set (entries : Entries) (key : String) (value : Value) : Entries :=
  match entries with
  | [] => [(key, value)]
  | e :: rest => if e.1 == key then (key, value) :: rest else e :: Entries.set rest key value

/-- Something may still be added to the table by a dotted key. -/
def Origin.isOpen : Origin → Bool
  | .implied | .dotted => true
  | .header | .inline => false

/-- Changes a table, given what made it and its entries. -/
abbrev Edit := Origin → Entries → Except Fault (Origin × Entries)

/-- Changes the last table of an array of tables. -/
def editLast (edit : Edit) : List Entries → Except Fault (List Entries)
  | [] => .ok []
  | [last] => do
    let (_, entries) ← edit .header last
    .ok [entries]
  | first :: rest => do .ok (first :: (← editLast edit rest))

/-- Follows a path of keys and changes the table at its end. -/
def descend (byDottedKey : Bool) (edit : Edit) : List String → Edit
  | [], origin, entries => edit origin entries
  | key :: path, origin, entries =>
    match entries.lookup key with
    | none => do
      let made := if byDottedKey then Origin.dotted else Origin.implied
      let (o, es) ← descend byDottedKey edit path made []
      .ok (origin, Entries.set entries key (.table o es))
    | some (.table o es) =>
      if o = .inline || (byDottedKey && !o.isOpen) then .error (.redefined key)
      else do
        let (o, es) ← descend byDottedKey edit path o es
        .ok (origin, Entries.set entries key (.table o es))
    | some (.tables ts) => do
      let ts ← editLast (descend byDottedKey edit path) ts
      .ok (origin, Entries.set entries key (.tables ts))
    | some _ => .error (.redefined key)

/-- Adds a value under a key that is new, in a table that was made in the way the key is written:
at the end of a dotted key stands a table made by dotted keys. -/
def addValue (dotted : Bool) (key : String) (value : Value) : Edit := fun origin entries =>
  if dotted && origin != .dotted then .error (.redefined key)
  else
    match entries.lookup key with
    | some _ => .error (.redefined key)
    | none => .ok (origin, entries ++ [(key, value)])

/-- Adds a value under a dotted key. -/
def addUnder (path : List String) (key : String) (value : Value) : Edit :=
  descend true (addValue (!path.isEmpty) key value) path

/-- Defines the table of a header, which may so far only be implied. -/
def defineTable (key : String) : Edit := fun origin entries =>
  match entries.lookup key with
  | none => .ok (origin, entries ++ [(key, .table .header [])])
  | some (.table .implied es) => .ok (origin, Entries.set entries key (.table .header es))
  | some _ => .error (.redefined key)

/-- Adds an empty table to the array of tables of a header. -/
def appendTable (key : String) : Edit := fun origin entries =>
  match entries.lookup key with
  | none => .ok (origin, entries ++ [(key, .tables [[]])])
  | some (.tables ts) => .ok (origin, Entries.set entries key (.tables (ts ++ [[]])))
  | some _ => .error (.redefined key)

end ItemGuard.Toml
