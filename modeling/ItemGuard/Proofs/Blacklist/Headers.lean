import ItemGuard.Proofs.Blacklist.Ownership
import ItemGuard.Proofs.Item.Resolving

/-!
# What a header binds

A header binds the items of its tokens up to the first token that names none. They all go to one new
slot; without such items there is none, and with every token naming an item there is nothing to
complain about. Whatever else a draft holds stays (`header_binds_prefix`).
-/

namespace ItemGuard.Blacklist

open Text (splitOn trim)

/-- The tokens of a header with a text between its brackets: the fields between the commas, without
the blanks around them. Empty fields at the end do not count, unless there is nothing between the
brackets. -/
def tokensOf (inner : List Char) : List (List Char) :=
  (if inner = [] then [[]] else (splitOn ',' inner).rdropWhile List.isEmpty).map trim

/-- The longest row of tokens from the first one on that all name items. -/
def knownPrefix (registry : Registry) (tokens : List (List Char)) : List (List Char) :=
  tokens.takeWhile fun token => (registry.resolve (String.ofList token)).isSome

/-- A header with some tokens leads from a draft to a place, another draft and perhaps something
that is wrong. -/
structure OpensSection (registry : Registry) (tokens : List (List Char)) (d : Draft)
    (r : Place × Draft × Option Cause) : Prop where
  /-- The section has the next slot, unless its first token names no item. -/
  place_eq : r.1 =
    .within (if knownPrefix registry tokens = [] then none else some d.rules.length)
  rules_eq : r.2.1.rules =
    d.rules ++ if knownPrefix registry tokens = [] then [] else [.unrestricted]
  /-- The items that the known tokens name go to the slot, and no others. -/
  slots_eq : ∀ item : ItemId, r.2.1.slots[item]? =
    if ∃ token ∈ knownPrefix registry tokens,
        registry.resolve (String.ofList token) = some item then some d.rules.length
    else d.slots[item]?
  /-- The first token that names no item is what is wrong. -/
  cause_eq : r.2.2 =
    (tokens.find? fun token => (registry.resolve (String.ofList token)).isNone).map fun token =>
      .unknownItem (String.ofList token)
  warns_iff : r.2.2 ≠ none ↔ knownPrefix registry tokens ≠ tokens

variable {registry : Registry}

theorem knownPrefix_cons_of_none {token : List Char} (tokens : List (List Char))
    (h : registry.resolve (String.ofList token) = none) :
    knownPrefix registry (token :: tokens) = [] := by
  simp [knownPrefix, h]

theorem knownPrefix_cons_of_some {token : List Char} (tokens : List (List Char)) {item : ItemId}
    (h : registry.resolve (String.ofList token) = some item) :
    knownPrefix registry (token :: tokens) = token :: knownPrefix registry tokens := by
  simp [knownPrefix, h]

/-- The row of known tokens is all there is exactly if no token is unknown. -/
theorem knownPrefix_eq_self_iff {tokens : List (List Char)} :
    knownPrefix registry tokens = tokens ↔
      (tokens.find? fun token => (registry.resolve (String.ofList token)).isNone) = none := by
  induction tokens with
  | nil => simp [knownPrefix]
  | cons token tokens ih =>
    cases hname : registry.resolve (String.ofList token) with
    | none => simp [knownPrefix_cons_of_none tokens hname, hname]
    | some item => simpa [knownPrefix_cons_of_some tokens hname, hname] using ih

/-- The parser goes through the tokens up to the first unknown one. -/
theorem leadingItems_eq (registry : Registry) {tokens : List (List Char)}
    (htrim : ∀ token ∈ tokens, trim token = token) :
    (leadingItems registry tokens).1.map some =
        (knownPrefix registry tokens).map (fun token => registry.resolve (String.ofList token)) ∧
      (leadingItems registry tokens).2 =
        tokens.find? fun token => (registry.resolve (String.ofList token)).isNone := by
  induction tokens with
  | nil => exact ⟨rfl, rfl⟩
  | cons token tokens ih =>
    have hresolve : registry.resolveTrimmed token = registry.resolve (String.ofList token) := by
      rw [Registry.resolve, String.toList_ofList, htrim token List.mem_cons_self]
    obtain ⟨hitems, hstop⟩ := ih fun t ht => htrim t (List.mem_cons_of_mem _ ht)
    rw [leadingItems, hresolve]
    cases hname : registry.resolve (String.ofList token) with
    | none => simp [knownPrefix_cons_of_none tokens hname, hname]
    | some item =>
      simp [knownPrefix_cons_of_some tokens hname, hname, hitems, hstop]

/-- A text in brackets is a header, whatever stands between them. -/
theorem ofText_bracketed (inner : List Char) :
    Line.ofText ('[' :: inner ++ [']']) = .header (tokensOf inner) := by
  have htrim : trim ('[' :: inner ++ [']']) = '[' :: inner ++ [']'] := by
    apply Text.trim_of_ends
    · intro c hc
      obtain rfl : '[' = c := Option.some.inj hc
      decide
    · intro c hc
      rw [List.getLast?_concat] at hc
      obtain rfl : ']' = c := Option.some.inj hc
      decide
  have hinner : (trim ('[' :: inner ++ [']'])).tail.dropLast = inner := by
    rw [htrim, List.cons_append, List.tail_cons, List.dropLast_concat]
  have hheader : IsHeader ('[' :: inner ++ [']']) := by
    unfold IsHeader
    rw [htrim, List.getLast?_concat]
    simp
  refine ofText_eq_header_iff.2 ⟨hheader, ?_⟩
  unfold fieldsOf tokensOf
  dsimp only
  rw [hinner]

theorem trim_of_mem_tokensOf {inner token : List Char} (h : token ∈ tokensOf inner) :
    trim token = token := by
  obtain ⟨field, -, rfl⟩ := List.mem_map.1 h
  exact Text.trim_trim field

/-- One header. -/
theorem opensSection_readLine (registry : Registry) (inner : List Char) (place : Place)
    (d : Draft) :
    OpensSection registry (tokensOf inner) d
      (readLine registry place d (Line.ofText ('[' :: inner ++ [']']))) := by
  obtain ⟨hitems, hstop⟩ := leadingItems_eq registry fun token (h : token ∈ tokensOf inner) =>
    trim_of_mem_tokensOf h
  have hnil : (leadingItems registry (tokensOf inner)).1 = [] ↔
      knownPrefix registry (tokensOf inner) = [] := by
    rw [← List.map_eq_nil_iff, hitems, List.map_eq_nil_iff]
  have hmem : ∀ item, item ∈ (leadingItems registry (tokensOf inner)).1 ↔
      ∃ token ∈ knownPrefix registry (tokensOf inner),
        registry.resolve (String.ofList token) = some item := by
    intro item
    rw [← List.mem_map, ← hitems]
    simp
  have hdraft : (openSlot d (leadingItems registry (tokensOf inner)).1).2 =
      d.addSection ⟨(leadingItems registry (tokensOf inner)).1, []⟩ := by
    rw [← settle_openSlot, Place.settle_nil]
  have hcause : (readLine registry place d (Line.ofText ('[' :: inner ++ [']']))).2.2 =
      ((tokensOf inner).find? fun token =>
        (registry.resolve (String.ofList token)).isNone).map fun token =>
          .unknownItem (String.ofList token) := by
    rw [ofText_bracketed, ← hstop]
    rfl
  refine ⟨?_, ?_, fun item => ?_, hcause, ?_⟩
  · rw [ofText_bracketed]
    simp only [readLine, ← hnil]
    cases (leadingItems registry (tokensOf inner)).1 <;> rfl
  · rw [ofText_bracketed]
    simp only [readLine, hdraft, Draft.rules_addSection, hnil]
    rfl
  · rw [ofText_bracketed]
    simp only [readLine, hdraft, Draft.slots_addSection, hmem]
    rfl
  · rw [hcause, Ne, Option.map_eq_none_iff, Ne, knownPrefix_eq_self_iff]

/-- **What a header binds.** A numeral of an id names the id, with or without a plus sign, whatever
the registry; so each id is named by its digits. Any other token names the item of the registry, if
there is one. A header binds the items of the longest row of tokens that all name items, to a slot
of its own to which no item was bound by the lines above. -/
theorem header_binds_prefix (registry : Registry) :
    (∀ (token : String) (item : ItemId), registry.resolve token = some item ↔
      IsNumeral (trim token.toList) item.toNat ∨
        ((∀ n < ItemId.bound, ¬ IsNumeral (trim token.toList) n) ∧
          registry (String.ofList (trim token.toList)) = some item ∧ item.toNat ≠ 0)) ∧
    (∀ item : ItemId, registry.resolve item.text = some item) ∧
    (∀ (inner : List Char) (place : Place) (d : Draft),
      OpensSection registry (tokensOf inner) d
        (readLine registry place d (Line.ofText ('[' :: inner ++ [']'])))) ∧
    ∀ above : List (List Char),
      let d := (behind registry (.preamble, .empty) above).2
      ∀ item : ItemId, d.slots[item]? ≠ some d.rules.length := by
  refine ⟨fun _ _ => Registry.resolve_eq_some_iff, registry.resolve_text,
    opensSection_readLine registry, fun above => ?_⟩
  intro d item hslot
  obtain ⟨_, -, hnumbered⟩ := numbered_behind registry above
  exact absurd (hnumbered.closed item _ hslot) (Nat.lt_irrefl _)

/-- A plus sign and zeros do not count, a number that is no id is a name, and so is `-1`. -/
example :
    let registry : Registry := fun name => if name = "4294967296" then some ⟨5⟩ else none
    let d := (readLine registry .preamble .empty (Line.ofText "[ +007,4294967296,-1,9,]".toList)).2
    (d.1.slots[ItemId.ofNat 7]?, d.1.slots[ItemId.ofNat 5]?, d.1.slots[ItemId.ofNat 9]?, d.2) =
      (some 0, some 0, none, some (.unknownItem "-1")) := by
  decide +kernel

end ItemGuard.Blacklist
