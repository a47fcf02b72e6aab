import ItemGuard.Event.Basic
import ItemGuard.Event.Player

/-!
# Events in JSON

An event is an object whose field `event` names its kind, and whose other fields are the player and
the ids of items that the kind asks for; an array with the name of the kind first and the fields in
their order does as well. All fields but the kind are read as values first and get their meaning
once the object has ended, so a fault anywhere in it comes before one in the meaning of a field.
-/

namespace ItemGuard

open Json (Fault Reads Value)

/-- The value as the id of an item. -/
def Json.Value.asItem : Value → Except Fault ItemId
  | number (.integer n) =>
    if 0 ≤ n && n < ItemId.bound then .ok (.ofNat n.toNat)
    else .error (.shape (.outOfRange n "u32"))
  | v => v.refuse "u32"

namespace Event

inductive Kind where
  | blockPlace
  | blockBreak
  | disconnect
  deriving DecidableEq

namespace Kind

def all : List Kind := [blockPlace, blockBreak, disconnect]

def name : Kind → String
  | blockPlace => "block_place"
  | blockBreak => "block_break"
  | disconnect => "disconnect"

/-- The names of the fields with ids of items, in their order behind the player. -/
def itemFields : Kind → List String
  | blockPlace => ["placed", "clicked", "held"]
  | blockBreak => ["held", "target"]
  | disconnect => []

/-- A number of elements in messages. -/
def elements (n : Nat) : String :=
  String.ofList (Text.decimal n) ++ (if n = 1 then " element" else " elements")

/-- The number of fields behind the kind. -/
def size (k : Kind) : Nat :=
  k.itemFields.length + 1

/-- What an array of the kind's fields is called in messages. -/
def expectedParts (k : Kind) : String :=
  let variant := match k with
    | blockPlace => "BlockPlace"
    | blockBreak => "BlockBreak"
    | disconnect => "Disconnect"
  "struct variant HostEvent::" ++ variant ++ " with " ++ elements k.size

/-- The event of the kind with a player and the ids of its items by the names of their fields. -/
def event (k : Kind) (player : Player) (item : String → Except Fault ItemId) :
    Except Fault Event := do
  match k with
  | blockPlace =>
    .ok (.blockPlace player (← item "placed") (← item "clicked") (← item "held"))
  | blockBreak => .ok (.blockBreak player (← item "held") (← item "target"))
  | disconnect => .ok (.disconnect player)

end Kind

def kind : Event → Kind
  | blockPlace .. => .blockPlace
  | blockBreak .. => .blockBreak
  | disconnect .. => .disconnect

/-- What an event is called in messages. -/
def expected : String := "internally tagged enum HostEvent"

def kindField : String := "event"

def readKind : Reads Kind := fun cs => do
  let (name, cs) ← Json.expectString "variant identifier" cs
  match Kind.all.find? fun k => k.name == name with
  | some k => .ok (k, cs)
  | none => .error (.shape (.unknownVariant name (Kind.all.map Kind.name)))

/-- Reads a value inside an event. -/
def readInner : Reads Value :=
  Json.readValue (Json.maxDepth - 1)

/-! ## Objects -/

/-- Reads a field of an event: its kind, or another field as a value, given the kind if it is known
and the other fields, the last one first. -/
def readField (read : Option Kind × List (String × Value)) (name : String) :
    Reads (Option Kind × List (String × Value)) := fun cs =>
  if name = kindField then
    if read.1.isSome then .error (.shape (.duplicateField name))
    else do
      let (k, cs) ← readKind (← Json.readColon cs)
      .ok ((some k, read.2), cs)
  else do
    let (fields, cs) ← Json.addMember readInner read.2 name cs
    .ok ((read.1, fields), cs)

/-- The fields of an event with their meaning, as far as they are known. -/
structure Parts where
  player : Option Player
  items : List (String × ItemId)

/-- Takes a field of an event of some kind; one with another name is left out. -/
def addField (k : Kind) (p : Parts) (field : String × Value) : Except Fault Parts :=
  if field.1 = "player" then
    if p.player.isSome then .error (.shape (.duplicateField field.1))
    else do .ok { p with player := some (← field.2.asPlayer) }
  else if k.itemFields.contains field.1 then
    if (p.items.lookup field.1).isSome then .error (.shape (.duplicateField field.1))
    else do .ok { p with items := (field.1, ← field.2.asItem) :: p.items }
  else .ok p

def ofFields (k : Kind) (fields : List (String × Value)) : Except Fault Event := do
  let parts ← fields.foldlM (addField k) ⟨none, []⟩
  match parts.player with
  | none => .error (.shape (.missingField "player"))
  | some player =>
    k.event player fun name =>
      match parts.items.lookup name with
      | some item => .ok item
      | none => .error (.shape (.missingField name))

/-! ## Arrays -/

/-- Reads an element of an array: the kind, or one of the values behind it, given the kind if it is
known and the values, the last one first. -/
def readElement (read : Option (Kind × List Value)) : Reads (Option (Kind × List Value)) :=
  fun cs =>
    match read with
    | none => do
      let (k, cs) ← readKind cs
      .ok (some (k, []), cs)
    | some (k, values) => do
      let (values, cs) ← Json.addElement readInner values cs
      .ok (some (k, values), cs)

/-- The element of an array with some position. -/
def element (k : Kind) (values : List Value) (position : Nat) : Except Fault Value :=
  match values[position]? with
  | some value => .ok value
  | none => .error (.shape (.wrongLength position k.expectedParts))

/-- The event of a kind with its fields in their order. -/
def ofElements (k : Kind) (values : List Value) : Except Fault Event := do
  let player ← (← element k values 0).asPlayer
  let event ← k.event player fun name => do
    (← element k values (k.itemFields.idxOf name + 1)).asItem
  if values.length ≤ k.size then .ok event
  else
    .error (.shape (.wrongLength values.length (Kind.elements k.size ++ " in sequence")))

/-! ## Texts -/

def read : Reads Event := fun cs =>
  match Json.skipBlanks cs with
  | '\x7b' :: cs => do
    let ((k, fields), cs) ← Json.readMembers readField (none, []) cs
    match k with
    | none => .error (.shape (.missingField kindField))
    | some k => .ok (← ofFields k fields.reverse, cs)
  | '[' :: cs => do
    let (elements, cs) ← Json.readElements readElement none cs
    match elements with
    | none => .error (.shape (.missingField kindField))
    | some (k, values) => .ok (← ofElements k values.reverse, cs)
  | cs => Json.refuse expected cs

def ofJson (text : String) : Except Fault Event := do
  let (event, cs) ← read text.toList
  Json.expectEnd cs
  .ok event

end Event
end ItemGuard
