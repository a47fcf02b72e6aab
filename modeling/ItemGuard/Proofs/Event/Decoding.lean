import ItemGuard.Event.Document
import ItemGuard.Proofs.Json.Fields
import ItemGuard.Proofs.Json.Nesting

/-!
# Events in all their texts

An object stands for an event if it has the kind, the player and the ids of the event once each,
whatever other fields it has and in whatever order (`Describes`). Every text that spells such an
object is read as the event (`ofJson_of_spells`).
-/

namespace ItemGuard

open Json (AtMostOnce Blanks Fault Gathers Listed SpellsMember SpellsValue Value valuesOf)

/-- The value stands for the player: an object with the name once, and with the groups once, unless
there are none and they are missing. -/
inductive DescribesPlayer (p : Player) : Value → Prop where
  | object {fields : List (String × Value)} (name : valuesOf fields "name" = [.string p.name])
    (groups : valuesOf fields "groups" = [.array (p.groups.map .string)] ∨
      p.groups = [] ∧ valuesOf fields "groups" = []) : DescribesPlayer p (.object fields)

namespace Event

/-- The names of the fields of an event with the ids of items that they have. -/
def itemsOf : Event → List (String × ItemId)
  | blockPlace _ placed clicked held => [("placed", placed), ("clicked", clicked), ("held", held)]
  | blockBreak _ held target => [("held", held), ("target", target)]
  | disconnect _ => []

def kindName : Event → String
  | blockPlace .. => "block_place"
  | blockBreak .. => "block_break"
  | disconnect _ => "disconnect"

/-- The fields stand for the event: its kind, its player and its ids occur once each. -/
structure Describes (e : Event) (fields : List (String × Value)) : Prop where
  kind : valuesOf fields "event" = [.string e.kindName]
  player : ∃ v, valuesOf fields "player" = [v] ∧ DescribesPlayer e.player v
  items : ∀ name item, (name, item) ∈ e.itemsOf →
    valuesOf fields name = [.number (.integer item.toNat)]

/-- The text is an object that stands for the event, with blanks around it. Its fields may nest as
deep as the reader goes. -/
inductive Spells (e : Event) : List Char → Prop where
  | object {before text behind : List Char} {fields : List (String × Value)}
    (hbefore : Blanks before)
    (h : Listed (SpellsMember (SpellsValue (Json.maxDepth - 1))) text fields)
    (hbehind : Blanks behind) (describes : e.Describes fields) :
    Spells e (before ++ '\x7b' :: (text ++ '\x7d' :: behind))

end Event

/-! ## Players -/

theorem asGroups_strings (groups : List String) :
    Value.asGroups (.array (groups.map .string)) = .ok groups := by
  have hmap : (groups.map Value.string).mapM Value.asString = .ok groups := by
    induction groups with
    | nil => rfl
    | cons group groups ih =>
      rw [List.map_cons, List.mapM_cons, ih]
      rfl
  exact hmap

namespace Player

/-- The value that a field of the player has. -/
structure IsField (p : Player) (field : String) (v : Value) : Prop where
  name : field = "name" → v = .string p.name
  groups : field = "groups" → v = .array (p.groups.map .string)

/-- The part of the player that a field gives is there if the field has been read. -/
structure Holds (p : Player) (parts : Parts) (field : String) (read : Bool) : Prop where
  name : field = "name" → parts.name = if read then some p.name else none
  groups : field = "groups" → parts.groups = if read then some p.groups else none

theorem gathers (p : Player) :
    Gathers Value.addPlayerField (fun name => name = "name" ∨ name = "groups") p.IsField
      p.Holds := by
  constructor
  case fill =>
    rintro parts name v (rfl | rfl) hfield hslot
    · obtain rfl := hfield.name rfl
      have hnone : parts.name = none := hslot.name rfl
      refine ⟨{ parts with name := some p.name }, ?_, ⟨fun _ => rfl, fun heq => ?_⟩, ?_⟩
      · simp [Value.addPlayerField, hnone, Value.asString, bind, Except.bind]
      · exact absurd heq (by decide)
      · exact fun other read _ hne hother => ⟨fun heq => absurd heq hne, hother.groups⟩
    · obtain rfl := hfield.groups rfl
      have hnone : parts.groups = none := hslot.groups rfl
      refine ⟨{ parts with groups := some p.groups }, ?_, ⟨fun heq => ?_, fun _ => rfl⟩, ?_⟩
      · simp only [Value.addPlayerField, hnone, asGroups_strings]
        rfl
      · exact absurd heq (by decide)
      · exact fun other read _ hne hother => ⟨hother.name, fun heq => absurd heq hne⟩
  case skip =>
    intro parts name v hname
    rw [not_or] at hname
    simp [Value.addPlayerField, hname]

end Player

theorem asPlayer_of_describes {p : Player} {v : Value} (h : DescribesPlayer p v) :
    v.asPlayer = .ok p := by
  obtain @⟨fields, hname, hgroups⟩ := h
  have honce : AtMostOnce (fun name => name = "name" ∨ name = "groups") p.IsField fields := by
    rintro name (rfl | rfl)
    · refine .inr ⟨_, hname, ⟨fun _ => rfl, fun heq => ?_⟩⟩
      exact absurd heq (by decide)
    · rcases hgroups with hgroups | ⟨-, hnone⟩
      · refine .inr ⟨_, hgroups, ⟨fun heq => ?_, fun _ => rfl⟩⟩
        exact absurd heq (by decide)
      · exact .inl hnone
  have hstart : ∀ name, name = "name" ∨ name = "groups" → p.Holds ⟨none, none⟩ name false :=
    fun name _ => ⟨fun _ => rfl, fun _ => rfl⟩
  obtain ⟨parts, hfold, hslots⟩ := p.gathers.foldlM hstart honce
  have hpartName := (hslots "name" (.inl rfl)).name rfl
  have hpartGroups := (hslots "groups" (.inr rfl)).groups rfl
  have hall : parts.groups.getD [] = p.groups := by
    rcases hgroups with hgroups | ⟨hempty, hnone⟩
    · rw [hpartGroups, hgroups]
      rfl
    · rw [hpartGroups, hnone, hempty]
      rfl
  rw [hname] at hpartName
  have hread : Value.asPlayer (.object fields) =
      fields.foldlM Value.addPlayerField ⟨none, none⟩ >>= Player.Parts.whole := rfl
  rw [hread, hfold]
  simp [bind, Except.bind, Player.Parts.whole, hpartName, hall]

/-! ## Events -/

theorem asItem_integer (item : ItemId) :
    Value.asItem (.number (.integer item.toNat)) = .ok item := by
  have hbound := item.toNat_lt_bound
  simp [Value.asItem, hbound]

namespace Event

/-- The value that a field of the event has. -/
structure IsField (e : Event) (field : String) (v : Value) : Prop where
  player : field = "player" → v.asPlayer = .ok e.player
  item : ∀ item, (field, item) ∈ e.itemsOf → v = .number (.integer item.toNat)

/-- The part of the event that a field gives is there if the field has been read. -/
structure Holds (e : Event) (parts : Parts) (field : String) (read : Bool) : Prop where
  player : field = "player" → parts.player = if read then some e.player else none
  item : ∀ item, (field, item) ∈ e.itemsOf →
    parts.items.lookup field = if read then some item else none

def Knows (e : Event) (name : String) : Prop :=
  name = "player" ∨ ∃ item, (name, item) ∈ e.itemsOf

theorem itemsOf_unique {e : Event} {name : String} {item : ItemId} (h : (name, item) ∈ e.itemsOf) :
    name ≠ "player" ∧ name ≠ "event" ∧ e.kind.itemFields.contains name = true ∧
      ∀ item', (name, item') ∈ e.itemsOf → item' = item := by
  cases e with
  | blockPlace player placed clicked held =>
    simp only [itemsOf, List.mem_cons, Prod.mk.injEq, List.not_mem_nil, or_false] at h
    rcases h with ⟨rfl, rfl⟩ | ⟨rfl, rfl⟩ | ⟨rfl, rfl⟩
    all_goals simp [itemsOf, kind, Kind.itemFields]
  | blockBreak player held target =>
    simp only [itemsOf, List.mem_cons, Prod.mk.injEq, List.not_mem_nil, or_false] at h
    rcases h with ⟨rfl, rfl⟩ | ⟨rfl, rfl⟩
    all_goals simp [itemsOf, kind, Kind.itemFields]
  | disconnect player => cases h

theorem itemFields_kind (e : Event) : e.kind.itemFields = e.itemsOf.map Prod.fst := by
  cases e <;> rfl

theorem gathers (e : Event) : Gathers (addField e.kind) e.Knows e.IsField e.Holds := by
  constructor
  case fill =>
    rintro parts name v (rfl | ⟨item, hitem⟩) hfield hslot
    · have hnone : parts.player = none := hslot.player rfl
      refine ⟨{ parts with player := some e.player }, ?_, ⟨fun _ => rfl, fun item hitem => ?_⟩, ?_⟩
      · simp [addField, hnone, hfield.player rfl, bind, Except.bind]
      · exact absurd rfl (itemsOf_unique hitem).1
      · exact fun other read _ hne hother => ⟨fun heq => absurd heq hne, hother.item⟩
    · obtain ⟨hplayer, -, hknown, hunique⟩ := itemsOf_unique hitem
      obtain rfl := hfield.item item hitem
      have hnone : parts.items.lookup name = none := hslot.item item hitem
      refine ⟨{ parts with items := (name, item) :: parts.items }, ?_,
        ⟨fun heq => absurd heq hplayer, fun item' hitem' => ?_⟩, ?_⟩
      · unfold addField
        dsimp only
        rw [if_neg hplayer, if_pos hknown, hnone, asItem_integer]
        rfl
      · rw [hunique item' hitem', List.lookup_cons_self]
        rfl
      · intro other read _ hne hother
        refine ⟨hother.player, fun item' hitem' => ?_⟩
        rw [List.lookup_cons, beq_false_of_ne hne]
        exact hother.item item' hitem'
  case skip =>
    intro parts name v hname
    unfold Knows at hname
    rw [not_or, not_exists] at hname
    have hunknown : name ∉ e.kind.itemFields := by
      rw [itemFields_kind]
      simpa using hname.2
    simp [addField, hname.1, hunknown]

/-- The fields but for the kind give the event, in whatever order. -/
theorem ofFields_of_describes {e : Event} {fields : List (String × Value)}
    (h : e.Describes fields) :
    ofFields e.kind (fields.filter fun f => f.1 ≠ "event") = .ok e := by
  obtain ⟨v, hv, hplayer⟩ := h.player
  have honce : AtMostOnce e.Knows e.IsField (fields.filter fun f => f.1 ≠ "event") := by
    rintro name (rfl | ⟨item, hitem⟩)
    · rw [Json.valuesOf_filter_ne (by decide)]
      refine .inr ⟨v, hv, ⟨fun _ => asPlayer_of_describes hplayer, fun item hitem => ?_⟩⟩
      exact absurd rfl (itemsOf_unique hitem).1
    · obtain ⟨hname, hkind, -, hunique⟩ := itemsOf_unique hitem
      rw [Json.valuesOf_filter_ne hkind]
      refine .inr ⟨_, h.items name item hitem, ⟨fun heq => absurd heq hname, ?_⟩⟩
      intro item' hitem'
      rw [hunique item' hitem']
  have hstart : ∀ name, e.Knows name → e.Holds ⟨none, []⟩ name false :=
    fun name _ => ⟨fun _ => rfl, fun _ _ => rfl⟩
  obtain ⟨parts, hfold, hslots⟩ := e.gathers.foldlM hstart honce
  have hpart : parts.player = some e.player := by
    have hslot := (hslots "player" (.inl rfl)).player rfl
    rwa [Json.valuesOf_filter_ne (by decide), hv] at hslot
  have hitems : ∀ name item, (name, item) ∈ e.itemsOf → parts.items.lookup name = some item := by
    intro name item hitem
    have hslot := (hslots name (.inr ⟨item, hitem⟩)).item item hitem
    rwa [Json.valuesOf_filter_ne (itemsOf_unique hitem).2.1, h.items name item hitem] at hslot
  unfold ofFields
  rw [hfold]
  simp only [bind, Except.bind, hpart]
  cases e with
  | blockPlace player placed clicked held =>
    have hplaced := hitems "placed" placed (by simp [itemsOf])
    have hclicked := hitems "clicked" clicked (by simp [itemsOf])
    have hheld := hitems "held" held (by simp [itemsOf])
    simp [kind, Kind.event, hplaced, hclicked, hheld, bind, Except.bind, Event.player]
  | blockBreak player held target =>
    have hheld := hitems "held" held (by simp [itemsOf])
    have htarget := hitems "target" target (by simp [itemsOf])
    simp [kind, Kind.event, hheld, htarget, bind, Except.bind, Event.player]
  | disconnect player => rfl

/-! ## Texts -/

/-- Adds a field of an event as it is read: the kind, or another field with its value. -/
def addRead (read : Option Kind × List (String × Value)) (field : String × Value) :
    Except Fault (Option Kind × List (String × Value)) :=
  if field.1 = "event" then
    match read.1, field.2 with
    | none, .string name =>
      match Kind.all.find? fun k => k.name == name with
      | some k => .ok (some k, read.2)
      | none => .error .malformed
    | _, _ => .error .malformed
  else .ok (read.1, field :: read.2)

theorem find?_kindName (e : Event) :
    (Kind.all.find? fun k => k.name == e.kindName) = some e.kind := by
  cases e <;> rfl

theorem readKind_of_spells {name : String} {k : Kind}
    (hk : (Kind.all.find? fun k => k.name == name) = some k) {text behind : List Char}
    (h : Json.Spells text name.toList) (hbehind : Blanks behind) (rest : List Char) :
    readKind (behind ++ '"' :: (text ++ '"' :: rest)) = .ok (k, rest) := by
  have hstring := Json.readString_of_spells h rest
  rw [String.ofList_toList] at hstring
  unfold readKind Json.expectString
  rw [Json.skipBlanks_append hbehind, Json.skipBlanks_cons (by decide)]
  simp [hstring, hk, bind, Except.bind]

theorem readsMembers_readField :
    Json.ReadsMembers (SpellsValue (Json.maxDepth - 1)) addRead readField := by
  intro between behind core rest s v read next hbetween hbehind hcore hadd hrest
  unfold addRead at hadd
  unfold readField kindField
  by_cases hs : s = "event"
  · rw [if_pos hs] at hadd ⊢
    split at hadd
    next name hnone hv =>
      obtain rfl : v = .string name := hv
      split at hadd
      next k hk =>
        cases hadd
        obtain ⟨text, htext, rfl⟩ := Json.spells_of_spellsValue hcore
        have hkind := readKind_of_spells hk htext hbehind rest
        have hfirst : read.1.isSome = false := by rw [hnone, Option.isSome_none]
        have hcolon := Json.readColon_append hbetween
          (behind ++ ('"' :: (text ++ ['"']) ++ rest))
        simp only [List.cons_append, List.append_assoc, List.nil_append] at hcolon ⊢
        simp [hfirst, hcolon, hkind, bind, Except.bind]
      next => cases hadd
    next => cases hadd
  · rw [if_neg hs] at hadd ⊢
    cases hadd
    have hvalues := (Json.readsValues_readValue (Json.maxDepth - 1)).readsMembers
    have hmember :=
      hvalues hbetween hbehind hcore (rfl : Except.ok _ = .ok ((s, v) :: read.2)) hrest
    simp only [readInner, hmember, bind, Except.bind]

theorem foldlM_addRead_of_absent {fields : List (String × Value)}
    (h : valuesOf fields "event" = []) (kind : Option Kind) (read : List (String × Value)) :
    fields.foldlM addRead (kind, read) =
      .ok (kind, (fields.filter fun f => f.1 ≠ "event").reverse ++ read) := by
  induction fields generalizing read with
  | nil => rfl
  | cons field fields ih =>
    obtain ⟨name, v⟩ := field
    by_cases hname : name = "event"
    · rw [hname, Json.valuesOf_cons_self] at h
      cases h
    · rw [Json.valuesOf_cons_of_ne hname] at h
      rw [List.foldlM_cons, addRead, if_neg hname]
      refine (ih h ((name, v) :: read)).trans ?_
      simp [hname]

/-- What is read of the fields is the kind and the other fields. -/
theorem foldlM_addRead {fields : List (String × Value)} {e : Event}
    (h : valuesOf fields "event" = [.string e.kindName]) (read : List (String × Value)) :
    fields.foldlM addRead (none, read) =
      .ok (some e.kind, (fields.filter fun f => f.1 ≠ "event").reverse ++ read) := by
  induction fields generalizing read with
  | nil => cases h
  | cons field fields ih =>
    obtain ⟨name, v⟩ := field
    by_cases hname : name = "event"
    · rw [hname, Json.valuesOf_cons_self, List.cons.injEq] at h
      obtain ⟨rfl, habsent⟩ := h
      have hadd : addRead (none, read) (name, .string e.kindName) = .ok (some e.kind, read) := by
        simp [addRead, hname, find?_kindName]
      rw [List.foldlM_cons, hadd]
      refine (foldlM_addRead_of_absent habsent (some e.kind) read).trans ?_
      simp [hname]
    · rw [Json.valuesOf_cons_of_ne hname] at h
      rw [List.foldlM_cons, addRead, if_neg hname]
      refine (ih h ((name, v) :: read)).trans ?_
      simp [hname]

/-- Every text of an event is read as the event. -/
theorem ofJson_of_spells {e : Event} {text : String} (h : e.Spells text.toList) :
    ofJson text = .ok e := by
  unfold ofJson
  generalize text.toList = cs at h
  obtain @⟨_, _, behind, _, hbefore, hlisted, hbehind, hdescribes⟩ := h
  have hmembers := Json.ReadsMembers.readMembers readsMembers_readField hlisted
    (foldlM_addRead hdescribes.kind [])
  have hfields := ofFields_of_describes hdescribes
  have hend : Json.expectEnd behind = .ok () := by
    have hblanks := Json.skipBlanks_append hbehind []
    rw [List.append_nil] at hblanks
    unfold Json.expectEnd
    rw [hblanks]
    rfl
  unfold read
  rw [Json.skipBlanks_append hbefore, Json.skipBlanks_cons (by decide)]
  simp only [hmembers, bind, Except.bind, List.append_nil, List.reverse_reverse, hfields, hend]

end Event

end ItemGuard
