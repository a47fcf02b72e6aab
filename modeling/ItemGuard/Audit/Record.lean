import ItemGuard.Action
import ItemGuard.Item.Id
import ItemGuard.Json.Quoted
import ItemGuard.Time.Timestamp

/-!
# Audit records

Every denial makes one record. A record is written as one JSON object in one line, its fields in a
fixed order and without blanks between them.
-/

namespace ItemGuard.Audit

/-- A denied action. -/
structure Record where
  time : Timestamp
  actor : String
  item : ItemId
  action : Action
  reason : String
  deriving DecidableEq

namespace Record

def level : String := "BLOCKED"

def decision : String := "deny"

/-- The record in one sentence. -/
def summary (r : Record) : String :=
  r.actor ++ " tried " ++ r.action.name ++ " on item " ++ r.item.text ++ ": " ++ decision

/-- A field of a JSON object: its name and the text of its value. -/
def field (name : String) (value : List Char) : List Char :=
  Json.quote name ++ ':' :: value

def fields (r : Record) : List (List Char) :=
  [field "timestamp" (Json.quote r.time.text),
   field "level" (Json.quote level),
   field "actor" (Json.quote r.actor),
   field "item" (Text.decimal r.item.toNat),
   field "action" (Json.quote r.action.name),
   field "decision" (Json.quote decision),
   field "reason" (Json.quote r.reason)]

def json (r : Record) : String :=
  String.ofList ('\x7b' :: [','].intercalate r.fields ++ ['\x7d'])

end Record
end ItemGuard.Audit
