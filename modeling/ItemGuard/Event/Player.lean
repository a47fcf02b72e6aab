import ItemGuard.Actor
import ItemGuard.Json.Skip

/-!
# Players in JSON

A player is an object with a name and, perhaps, groups, or an array of the two. Alone it is read
field by field, so the first thing that is wrong with a field comes before everything behind it.
`Json.Value.asPlayer` gives the player that a value stands for which was read as a whole.
-/

namespace ItemGuard

open Json (Fault Reads Value)

/-! ## Reading a text -/

namespace Player

/-- A player read in part. -/
structure Parts where
  name : Option String
  groups : Option (List String)

/-- Puts the parts of a player together; the groups may be missing. -/
def Parts.whole (p : Parts) : Except Fault Player :=
  match p.name with
  | some name => .ok ⟨name, p.groups.getD []⟩
  | none => .error (.shape (.missingField "name"))

/-- What a player is called in messages. -/
def expected : String := "struct Player"

def expectedParts : String := "struct Player with 2 elements"

def expectedString : String := "a string"

def expectedGroups : String := "a sequence"

/-- Adds a group to those already read, the last one first. -/
def addGroup (groups : List String) : Reads (List String) := fun cs => do
  let (group, cs) ← Json.expectString expectedString cs
  .ok (group :: groups, cs)

def readGroups : Reads (List String) := fun cs =>
  match Json.skipBlanks cs with
  | '[' :: cs => do
    let (groups, cs) ← Json.readElements addGroup [] cs
    .ok (groups.reverse, cs)
  | cs => Json.refuse expectedGroups cs

/-- Reads a field of a player; one with another name is passed over. -/
def readField (p : Parts) (name : String) : Reads Parts := fun cs =>
  if name = "name" then
    if p.name.isSome then .error (.shape (.duplicateField name))
    else do
      let (s, cs) ← Json.expectString expectedString (← Json.readColon cs)
      .ok ({ p with name := some s }, cs)
  else if name = "groups" then
    if p.groups.isSome then .error (.shape (.duplicateField name))
    else do
      let (groups, cs) ← readGroups (← Json.readColon cs)
      .ok ({ p with groups := some groups }, cs)
  else do
    let ((), cs) ← Json.skipValue (← Json.readColon cs)
    .ok (p, cs)

def readArrayEnd (cs : List Char) : Except Fault (List Char) :=
  match Json.skipBlanks cs with
  | [] => .error .truncated
  | ']' :: cs => .ok cs
  | _ :: _ => .error .malformed

/-- Reads the parts of a player in an array behind its bracket. -/
def readParts : Reads Player := fun cs =>
  match Json.skipBlanks cs with
  | ']' :: _ => .error (.shape (.wrongLength 0 expectedParts))
  | cs => do
    let (name, cs) ← Json.expectString expectedString cs
    match Json.skipBlanks cs with
    | ',' :: cs =>
      match Json.skipBlanks cs with
      | ']' :: _ => .error .malformed
      | cs => do
        let (groups, cs) ← readGroups cs
        .ok (⟨name, groups⟩, ← readArrayEnd cs)
    | cs => .ok (⟨name, []⟩, ← readArrayEnd cs)

def read : Reads Player := fun cs =>
  match Json.skipBlanks cs with
  | '\x7b' :: cs => do
    let (parts, cs) ← Json.readMembers readField ⟨none, none⟩ cs
    .ok (← parts.whole, cs)
  | '[' :: cs => readParts cs
  | cs => Json.refuse expected cs

def ofJson (text : String) : Except Fault Player := do
  let (player, cs) ← read text.toList
  Json.expectEnd cs
  .ok player

end Player

/-! ## The meaning of values -/

namespace Json.Value

def refuse {α : Type} (expected : String) (v : Value) : Except Fault α :=
  .error (.shape (.wrongType v.kind expected))

def asString : Value → Except Fault String
  | string s => .ok s
  | v => v.refuse Player.expectedString

def asGroups : Value → Except Fault (List String)
  | array values => values.mapM asString
  | v => v.refuse Player.expectedGroups

/-- Takes a field of a player; one with another name is left out. -/
def addPlayerField (p : Player.Parts) (field : String × Value) : Except Fault Player.Parts :=
  if field.1 = "name" then
    if p.name.isSome then .error (.shape (.duplicateField field.1))
    else do .ok { p with name := some (← field.2.asString) }
  else if field.1 = "groups" then
    if p.groups.isSome then .error (.shape (.duplicateField field.1))
    else do .ok { p with groups := some (← field.2.asGroups) }
  else .ok p

def asPlayer : Value → Except Fault Player
  | object fields => do (← fields.foldlM addPlayerField ⟨none, none⟩).whole
  | array [] => .error (.shape (.wrongLength 0 Player.expectedParts))
  | array [name] => do .ok ⟨← name.asString, []⟩
  | array (name :: groups :: more) => do
    let player : Player := ⟨← name.asString, ← groups.asGroups⟩
    if more.isEmpty then .ok player
    else .error (.shape (.wrongLength (more.length + 2) "2 elements in sequence"))
  | v => v.refuse Player.expected

end Json.Value

end ItemGuard
