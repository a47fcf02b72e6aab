import ItemGuard.Proofs.Blacklist.Reading
import ItemGuard.Proofs.Rule.Compaction

/-!
# A blacklist as a list of sections

Reading the lines of a blacklist one after the other changes the rule of the latest section again and
again, while earlier sections keep their slots. The draft that comes of it is the one made section by
section, each with the whole rule of its lines (`draft_readLines`). Hence an item has the rule of the
last section that binds it (`rule?_foldl_addSection`). `behind` is how far reading has come after some
lines; it goes on from there (`readLines_append`).
-/

namespace ItemGuard

open Blacklist

/-- A header and the lines below it: the items that the header binds, and those lines. -/
structure Section where
  items : List ItemId
  lines : List (List Char)

namespace Draft

/-- Adds a section with its whole rule; one that binds no item leaves nothing behind. -/
def addSection (d : Draft) (s : Section) : Draft :=
  if s.items = [] then d
  else
    { rules := d.rules ++ [ruleOf s.lines]
      slots := s.items.foldl (fun m item => m.insert item d.nextSlot) d.slots }

/-- Every bound slot exists. -/
def Closed (d : Draft) : Prop :=
  ∀ (item : ItemId) (n : Nat), d.slots[item]? = some n → n < d.rules.length

theorem closed_empty : empty.Closed := by
  intro item n h
  simp [empty] at h

/-- In a closed draft the bound items are those with a rule. -/
theorem Closed.rule?_eq_none_iff {d : Draft} (h : d.Closed) (item : ItemId) :
    d.rule? item = none ↔ d.slots[item]? = none := by
  unfold rule?
  cases hn : d.slots[item]? with
  | none => simp
  | some n => simpa using h item n hn

theorem getElem?_foldl_insert (items : List ItemId) (slot : Nat)
    (m : Std.ExtTreeMap ItemId Nat) (item : ItemId) :
    (items.foldl (fun m item => m.insert item slot) m)[item]? =
      if item ∈ items then some slot else m[item]? := by
  induction items generalizing m with
  | nil => simp
  | cons first items ih =>
    rw [List.foldl_cons, ih, Std.ExtTreeMap.getElem?_insert]
    by_cases hitem : item ∈ items
    · simp [hitem]
    · by_cases hfirst : first = item
      · simp [hfirst]
      · simp [hitem, hfirst, Ne.symm hfirst]

theorem slots_addSection (d : Draft) (s : Section) (item : ItemId) :
    (d.addSection s).slots[item]? =
      if item ∈ s.items then some d.nextSlot else d.slots[item]? := by
  unfold addSection
  split
  · next hnil => simp [hnil]
  · exact getElem?_foldl_insert s.items d.nextSlot d.slots item

theorem rules_addSection (d : Draft) (s : Section) :
    (d.addSection s).rules = d.rules ++ if s.items = [] then [] else [ruleOf s.lines] := by
  unfold addSection
  split <;> simp

theorem length_rules_addSection (d : Draft) {s : Section} (h : s.items ≠ []) :
    (d.addSection s).rules.length = d.rules.length + 1 := by
  simp [rules_addSection, h]

theorem Closed.addSection {d : Draft} (h : d.Closed) (s : Section) : (d.addSection s).Closed := by
  intro item n hn
  rw [slots_addSection] at hn
  split at hn
  · next hitem =>
    cases hn
    rw [length_rules_addSection d (List.ne_nil_of_mem hitem)]
    exact Nat.lt_succ_self _
  · have hold := h item n hn
    by_cases hnil : s.items = []
    · simpa [Draft.addSection, hnil] using hold
    · rw [length_rules_addSection d hnil]
      exact Nat.lt_succ_of_lt hold

/-- A section gives its rule to the items that it binds, and no other item notices it. -/
theorem Closed.rule?_addSection {d : Draft} (h : d.Closed) (s : Section) (item : ItemId) :
    (d.addSection s).rule? item =
      if item ∈ s.items then some (ruleOf s.lines) else d.rule? item := by
  by_cases hnil : s.items = []
  · simp [Draft.addSection, hnil]
  · have hrules : (d.addSection s).rules = d.rules ++ [ruleOf s.lines] := by
      rw [rules_addSection, if_neg hnil]
    unfold rule?
    rw [slots_addSection, hrules]
    split
    · simp [nextSlot]
    · cases hn : d.slots[item]? with
      | none => rfl
      | some n => simp [List.getElem?_append_left (h item n hn)]

/-- After some sections, an item has the rule of the last one that binds it. -/
theorem rule?_foldl_addSection (sections : List Section) {d : Draft} (h : d.Closed)
    (item : ItemId) :
    (sections.foldl addSection d).Closed ∧
      (sections.foldl addSection d).rule? item =
        ((sections.filter fun s => item ∈ s.items).getLast?.map fun s => ruleOf s.lines).or
          (d.rule? item) := by
  induction sections generalizing d with
  | nil => exact ⟨h, by simp⟩
  | cons s sections ih =>
    obtain ⟨hclosed, hrule⟩ := ih (h.addSection s)
    refine ⟨hclosed, ?_⟩
    rw [List.foldl_cons, hrule, h.rule?_addSection]
    by_cases hitem : item ∈ s.items
    · rw [List.filter_cons_of_pos (by simpa using hitem), List.getLast?_cons]
      cases (sections.filter fun s => item ∈ s.items).getLast? <;> simp [hitem]
    · rw [List.filter_cons_of_neg (by simpa using hitem)]
      simp [hitem]

end Draft

namespace Blacklist

/-- The lines before the next header. -/
def linesBelow (lines : List (List Char)) : List (List Char) :=
  lines.takeWhile fun raw => !decide (IsHeader raw)

/-- The sections of a blacklist. -/
def sectionsOf (registry : Registry) : List (List Char) → List Section
  | [] => []
  | raw :: rest =>
    match Line.ofText raw with
    | .header tokens => ⟨(leadingItems registry tokens).1, linesBelow rest⟩ :: sectionsOf registry rest
    | _ => sectionsOf registry rest

/-- A line that is no header belongs to the section before it. -/
theorem linesBelow_cons_of_not_header {raw : List Char} (rest : List (List Char))
    (h : ¬ IsHeader raw) : linesBelow (raw :: rest) = raw :: linesBelow rest := by
  simp [linesBelow, h]

theorem linesBelow_cons_of_header {raw : List Char} (rest : List (List Char)) (h : IsHeader raw) :
    linesBelow (raw :: rest) = [] := by
  simp [linesBelow, h]

/-- The parser takes as a header only what is one. -/
theorem not_isHeader_of_ofText {raw : List Char}
    (h : ∀ tokens, Line.ofText raw ≠ .header tokens) : ¬ IsHeader raw :=
  fun hheader => h _ (ofText_eq_header_iff.2 ⟨hheader, rfl⟩)

theorem sectionsOf_cons_of_not_header (registry : Registry) {raw : List Char}
    (rest : List (List Char)) (h : ∀ tokens, Line.ofText raw ≠ .header tokens) :
    sectionsOf registry (raw :: rest) = sectionsOf registry rest := by
  rw [sectionsOf]
  split
  · next tokens htokens => exact absurd htokens (h tokens)
  · rfl

/-! ## Reading section by section -/

/-- What the lines of the section at a place change in the draft. -/
def Place.settle (place : Place) (d : Draft) (lines : List (List Char)) : Draft :=
  match place with
  | .within (some slot) => d.edit slot fun r => lines.foldl (fun r raw => change raw r) r
  | _ => d

@[simp] theorem Place.settle_nil (place : Place) (d : Draft) : place.settle d [] = d := by
  unfold settle
  split
  · next slot =>
    have hid : d.rules.modify slot (fun r => r) = d.rules := List.modify_id slot d.rules
    simp [Draft.edit, hid]
  · rfl

theorem edit_edit (d : Draft) (slot : Nat) (f g : Rule → Rule) :
    (d.edit slot f).edit slot g = d.edit slot (g ∘ f) := by
  simp [Draft.edit, List.modify_modify_eq]

/-- A line that is no header does its part of what the lines of the section do. -/
theorem settle_readLine (registry : Registry) (place : Place) (d : Draft) {raw : List Char}
    (rest : List (List Char)) (h : ∀ tokens, Line.ofText raw ≠ .header tokens) :
    let r := readLine registry place d (Line.ofText raw)
    r.1 = place ∧ place.settle r.2.1 rest = place.settle d (raw :: rest) := by
  cases hraw : Line.ofText raw with
  | header tokens => exact absurd hraw (h tokens)
  | silent =>
    refine ⟨rfl, ?_⟩
    have hchange : change raw = id := by
      funext r
      rw [change, hraw]
      rfl
    simp [readLine, Place.settle, hchange]
  | option text =>
    cases place with
    | preamble => exact ⟨rfl, rfl⟩
    | within slot =>
      cases hread : readOption text with
      | error cause =>
        have hchange : change raw = id := by
          funext r
          rw [change, hraw]
          simp [hread]
        cases slot <;> simp [readLine, hread, Place.settle, hchange]
      | ok option =>
        obtain ⟨key, groups⟩ := option
        have hchange : change raw = key.apply groups := by
          funext r
          rw [change, hraw]
          simp [hread]
        cases slot with
        | none => simp [readLine, hread, Place.settle]
        | some n => simp [readLine, hread, Place.settle, edit_edit, hchange, Function.comp_def]

/-- A header opens its section; the lines below make the rule. -/
theorem settle_openSlot (d : Draft) (items : List ItemId) (lines : List (List Char)) :
    (Place.within (openSlot d items).1).settle (openSlot d items).2 lines =
      d.addSection ⟨items, lines⟩ := by
  have hbind : ∀ (items : List ItemId) (e : Draft) (slot : Nat),
      items.foldl (fun d item => d.bind item slot) e =
        ⟨e.rules, items.foldl (fun m item => m.insert item slot) e.slots⟩ := by
    intro items
    induction items with
    | nil => intro e slot; rfl
    | cons item items ih => intro e slot; exact ih _ _
  cases items with
  | nil => rfl
  | cons item items =>
    have hlast : ∀ f : Rule → Rule,
        (d.rules ++ [Rule.unrestricted]).modify d.rules.length f =
          d.rules ++ [f .unrestricted] := by
      intro f
      rw [List.modify_eq_take_cons_drop (by simp)]
      simp
    simp only [openSlot, Place.settle, hbind, Draft.addSection, Draft.edit, Draft.add,
      Draft.nextSlot, hlast, foldl_change_unrestricted]
    rfl

/-- Reading line by line makes the draft that the sections make. -/
theorem draft_readLines (registry : Registry) (n : Nat) (place : Place) (d : Draft)
    (lines : List (List Char)) :
    (readLines registry n place d lines).1 =
      (sectionsOf registry lines).foldl Draft.addSection (place.settle d (linesBelow lines)) := by
  induction lines generalizing n place d with
  | nil => simp [readLines, sectionsOf, linesBelow]
  | cons raw rest ih =>
    rw [readLines]
    dsimp only
    rw [ih]
    by_cases hraw : ∃ tokens, Line.ofText raw = .header tokens
    · obtain ⟨tokens, htokens⟩ := hraw
      have hheader := (ofText_eq_header_iff.1 htokens).1
      rw [linesBelow_cons_of_header rest hheader, Place.settle_nil, sectionsOf, htokens]
      dsimp only
      rw [List.foldl_cons, ← settle_openSlot]
      rfl
    · have hno : ∀ tokens, Line.ofText raw ≠ .header tokens := fun tokens h => hraw ⟨tokens, h⟩
      obtain ⟨hplace, hsettle⟩ := settle_readLine registry place d (linesBelow rest) hno
      rw [sectionsOf_cons_of_not_header registry rest hno,
        linesBelow_cons_of_not_header rest (not_isHeader_of_ofText hno), ← hsettle, hplace]

/-! ## Reading up to a line -/

/-- The place and the draft behind a line. -/
def pass (registry : Registry) (reached : Place × Draft) (raw : List Char) : Place × Draft :=
  let r := readLine registry reached.1 reached.2 (Line.ofText raw)
  (r.1, r.2.1)

/-- The place and the draft behind some lines. -/
def behind (registry : Registry) (start : Place × Draft) (ls : List (List Char)) : Place × Draft :=
  ls.foldl (pass registry) start

section

variable {registry : Registry}

theorem behind_append (start : Place × Draft) (as bs : List (List Char)) :
    behind registry start (as ++ bs) = behind registry (behind registry start as) bs :=
  List.foldl_append

variable (registry) in
/-- Reading goes on at the place behind the first lines. -/
theorem readLines_append (n : Nat) (start : Place × Draft) (as bs : List (List Char)) :
    (readLines registry n start.1 start.2 (as ++ bs)).1 =
      (readLines registry (n + as.length) (behind registry start as).1
        (behind registry start as).2 bs).1 := by
  induction as generalizing n start with
  | nil => rfl
  | cons raw as ih =>
    rw [List.cons_append, readLines, List.length_cons, Nat.add_comm as.length, ← Nat.add_assoc]
    exact ih (n + 1) (pass registry start raw)

variable (registry) in
/-- A header adds a section without lines. -/
theorem pass_of_tokens {raw : List Char} {tokens : List (List Char)}
    (h : Line.ofText raw = .header tokens) (reached : Place × Draft) :
    (pass registry reached raw).2 =
      reached.2.addSection ⟨(leadingItems registry tokens).1, []⟩ := by
  rw [← settle_openSlot, Place.settle_nil, pass, h]
  rfl

variable (registry) in
/-- A line that is no header leaves the place as it is, and all slots. -/
theorem pass_of_not_header {raw : List Char} (h : ¬ IsHeader raw) (reached : Place × Draft) :
    (pass registry reached raw).1 = reached.1 ∧
      (pass registry reached raw).2.slots = reached.2.slots ∧
      (pass registry reached raw).2.rules.length = reached.2.rules.length := by
  obtain ⟨place, d⟩ := reached
  unfold pass
  cases hraw : Line.ofText raw with
  | header tokens => exact absurd (ofText_eq_header_iff.1 hraw).1 h
  | silent => exact ⟨rfl, rfl, rfl⟩
  | option text =>
    cases place with
    | preamble => exact ⟨rfl, rfl, rfl⟩
    | within slot =>
      cases hread : readOption text with
      | error cause => simp [readLine, hread]
      | ok option => cases slot <;> simp [readLine, hread, Draft.edit]

end

end Blacklist
end ItemGuard
