import ItemGuard.Item.Names
import ItemGuard.Storage.Files
import ItemGuard.Toml.Field

/-!
# Item tables in files

An item table is written as the table `items` of a TOML document, whose keys are names and whose
values are their ids. A document with an id that is no number below 2³², or with an id 0, is
refused as a whole; a document without the table has no names.
-/

namespace ItemGuard

/-- Why a table of names cannot be had. -/
inductive NameTableError where
  /-- The file cannot be read. -/
  | unread (failure : Storage.Failure)
  /-- The text is no item table. -/
  | malformed (fault : Toml.Fault)
  /-- A name is given the id 0, which stands for no item. -/
  | reserved (name : String)
  deriving DecidableEq

def NameTableError.message : NameTableError → String
  | unread failure => "I/O error: " ++ failure.text
  | malformed fault => "invalid item table: " ++ fault.message
  | reserved name => "item '" ++ name ++ "' cannot use reserved id 0"

namespace NameTable

/-- Reads the ids of the names in a table. -/
def readIds (entries : Toml.Entries) : Except Toml.Fault (List (String × Nat)) :=
  entries.mapM fun e => do .ok (e.1, ← e.2.asNatural ItemId.bound)

/-- The names with their ids in a TOML document. -/
def readBindings (text : String) : Except Toml.Fault (List (String × Nat)) := do
  let document ← Toml.Document.read text
  readIds (← (Toml.Fields.named document).getD 0 "items" Toml.Value.asTable [])

/-- Reads a table of names from a TOML document. -/
def ofToml (text : String) : Except NameTableError NameTable :=
  match readBindings text with
  | .error fault => .error (.malformed fault)
  | .ok bindings =>
    match bindings.find? fun b => b.2 == 0 with
    | some b => .error (.reserved b.1)
    | none => .ok (empty.insertAll (bindings.map fun b => (b.1, ItemId.ofNat b.2)))

def ofFile (fs : Storage.Files) (path : String) : Except NameTableError NameTable :=
  match fs.readText path with
  | .error failure => .error (.unread failure)
  | .ok text => ofToml text

end NameTable
end ItemGuard
