import ItemGuard.Proofs.Blacklist.Sections

/-!
# What a blacklist means

An item has a rule if some header binds it. Its rule is made by the lines between the last such
header and the next header, whatever stands elsewhere (`read_iff_lastBelow`).
-/

namespace ItemGuard.Blacklist

open Text (lines)

/-- The given lines stand between the last header that binds the item and the next header. -/
def LastBelow (registry : Registry) (item : ItemId) (ls below : List (List Char)) : Prop :=
  ∃ before header after, ls = before ++ header :: after ∧ Binds registry header item ∧
    (∀ raw ∈ after, ¬ Binds registry raw item) ∧ linesBelow after = below

section

variable {registry : Registry} {item : ItemId}

/-- A first line matters only if it binds the item and no later line does. -/
theorem lastBelow_cons {raw : List Char} {rest below : List (List Char)} :
    LastBelow registry item (raw :: rest) below ↔
      (Binds registry raw item ∧ (∀ r ∈ rest, ¬ Binds registry r item) ∧
        linesBelow rest = below) ∨ LastBelow registry item rest below := by
  constructor
  · rintro ⟨_ | ⟨first, before⟩, header, after, heq, h⟩
    · obtain ⟨rfl, rfl⟩ := List.cons.inj heq
      exact .inl h
    · obtain ⟨-, htail⟩ := List.cons.inj heq
      exact .inr ⟨before, header, after, htail, h⟩
  · rintro (h | ⟨before, header, after, rfl, h⟩)
    · exact ⟨[], raw, rest, rfl, h⟩
    · exact ⟨raw :: before, header, after, rfl, h⟩

variable (registry item) in
/-- The sections that bind an item. -/
def sectionsWith (ls : List (List Char)) : List Section :=
  (sectionsOf registry ls).filter fun s => item ∈ s.items

theorem sectionsWith_cons_of_binds {raw : List Char} (rest : List (List Char))
    (h : Binds registry raw item) :
    ∃ items, sectionsWith registry item (raw :: rest) =
      ⟨items, linesBelow rest⟩ :: sectionsWith registry item rest := by
  obtain ⟨tokens, htokens, hitem⟩ := binds_iff.1 h
  refine ⟨(leadingItems registry tokens).1, ?_⟩
  unfold sectionsWith
  rw [sectionsOf, htokens]
  exact List.filter_cons_of_pos (by simpa using hitem)

theorem sectionsWith_cons_of_not_binds {raw : List Char} (rest : List (List Char))
    (h : ¬ Binds registry raw item) :
    sectionsWith registry item (raw :: rest) = sectionsWith registry item rest := by
  unfold sectionsWith
  rw [sectionsOf]
  split
  · next tokens htokens =>
    refine List.filter_cons_of_neg ?_
    simpa using fun hitem => h (binds_iff.2 ⟨tokens, htokens, hitem⟩)
  · rfl

/-- No section binds an item that no line binds. -/
theorem sectionsWith_eq_nil_iff {ls : List (List Char)} :
    sectionsWith registry item ls = [] ↔ ∀ raw ∈ ls, ¬ Binds registry raw item := by
  induction ls with
  | nil => simp [sectionsWith, sectionsOf]
  | cons raw rest ih =>
    by_cases hraw : Binds registry raw item
    · obtain ⟨items, hcons⟩ := sectionsWith_cons_of_binds rest hraw
      simp [hcons, hraw]
    · rw [sectionsWith_cons_of_not_binds rest hraw, ih]
      simp [hraw]

/-- The last section that binds an item has the lines below the last header that binds it. -/
theorem getLast?_sectionsWith {ls below : List (List Char)} :
    (sectionsWith registry item ls).getLast?.map Section.lines = some below ↔
      LastBelow registry item ls below := by
  induction ls with
  | nil => simp [sectionsWith, sectionsOf, LastBelow]
  | cons raw rest ih =>
    rw [lastBelow_cons, ← ih]
    by_cases hraw : Binds registry raw item
    · obtain ⟨items, hcons⟩ := sectionsWith_cons_of_binds rest hraw
      rw [hcons, List.getLast?_cons]
      cases hlast : (sectionsWith registry item rest).getLast? with
      | none =>
        have hrest := sectionsWith_eq_nil_iff.1 (List.getLast?_eq_none_iff.1 hlast)
        simpa [hraw] using fun _ => hrest
      | some s =>
        have hrest : ¬ ∀ r ∈ rest, ¬ Binds registry r item := by
          rw [← sectionsWith_eq_nil_iff, ← List.getLast?_eq_none_iff, hlast]
          simp
        simp [hrest]
    · rw [sectionsWith_cons_of_not_binds rest hraw]
      simp [hraw]

variable (registry) in
/-- The draft that a whole blacklist makes. -/
def draftOf (ls : List (List Char)) : Draft :=
  (readLines registry 1 .preamble .empty ls).1

theorem draftOf_eq (ls : List (List Char)) :
    draftOf registry ls = (sectionsOf registry ls).foldl Draft.addSection .empty := by
  unfold draftOf
  rw [draft_readLines]
  rfl

variable (registry) in
theorem closed_draftOf (ls : List (List Char)) : (draftOf registry ls).Closed := by
  rw [draftOf_eq]
  exact (Draft.rule?_foldl_addSection _ Draft.closed_empty default).1

/-- In the draft an item has the rule of the last section that binds it. -/
theorem rule?_draftOf (ls : List (List Char)) :
    (draftOf registry ls).rule? item =
      (sectionsWith registry item ls).getLast?.map fun s => ruleOf s.lines := by
  have hempty : Draft.empty.rule? item = none := (Draft.closed_empty.rule?_eq_none_iff item).2 rfl
  rw [draftOf_eq, (Draft.rule?_foldl_addSection _ Draft.closed_empty item).2, hempty,
    Option.or_none]
  rfl

theorem rule?_draftOf_eq_some_iff {ls : List (List Char)} {rule : Rule} :
    (draftOf registry ls).rule? item = some rule ↔
      ∃ below, LastBelow registry item ls below ∧ ruleOf below = rule := by
  rw [rule?_draftOf]
  simp only [← getLast?_sectionsWith]
  cases (sectionsWith registry item ls).getLast? <;> simp

theorem rule?_draftOf_eq_none_iff {ls : List (List Char)} :
    (draftOf registry ls).rule? item = none ↔ ∀ raw ∈ ls, ¬ Binds registry raw item := by
  rw [rule?_draftOf, Option.map_eq_none_iff, List.getLast?_eq_none_iff, sectionsWith_eq_nil_iff]

/-- A blacklist gives every item what its draft gives it. -/
theorem rule?_read (text : String) :
    ((read registry text).ruleset?.bind fun s => s.rule? item) =
        (draftOf registry (lines text.toList)).rule? item ∧
      ((read registry text).ruleset?.any fun s => s.contains item) =
        ((draftOf registry (lines text.toList)).rule? item).isSome := by
  have hread : (read registry text).ruleset? = (draftOf registry (lines text.toList)).build? := rfl
  have hclosed := closed_draftOf registry (lines text.toList)
  rw [hread]
  generalize draftOf registry (lines text.toList) = d at hclosed
  cases hb : d.build? with
  | none =>
    have hslot := Draft.build?_eq_none_iff.1 hb item
    simp [(hclosed.rule?_eq_none_iff item).2 hslot]
  | some s => exact ⟨Draft.rule?_of_build? hb item, Draft.contains_of_build? hb item⟩

end

/-- **The meaning of a blacklist.** There is no ruleset exactly if no line binds an item. An item has
a rule exactly if some line binds it, and the rule is made by the lines between the last such header
and the next header. -/
theorem read_iff_lastBelow (registry : Registry) (text : String) :
    let ls := lines text.toList
    let ruleset? := (read registry text).ruleset?
    (ruleset? = none ↔ ∀ raw ∈ ls, ∀ item, ¬ Binds registry raw item) ∧
    ∀ item,
      ((ruleset?.any fun s => s.contains item) = true ↔ ∃ raw ∈ ls, Binds registry raw item) ∧
      (ruleset?.bind fun s => s.rule? item).isSome = ruleset?.any (fun s => s.contains item) ∧
      ∀ rule, (ruleset?.bind fun s => s.rule? item) = some rule ↔
        ∃ below, LastBelow registry item ls below ∧ ruleOf below = rule := by
  dsimp only
  refine ⟨?_, fun item => ⟨?_, ?_, fun rule => ?_⟩⟩
  · have hclosed := closed_draftOf registry (lines text.toList)
    refine Draft.build?_eq_none_iff.trans ⟨fun h raw hraw item => ?_, fun h item => ?_⟩
    · exact rule?_draftOf_eq_none_iff.1 ((hclosed.rule?_eq_none_iff item).2 (h item)) raw hraw
    · have hnone : ∀ raw ∈ lines text.toList, ¬ Binds registry raw item :=
        fun raw hraw => h raw hraw item
      exact (hclosed.rule?_eq_none_iff item).1 (rule?_draftOf_eq_none_iff.2 hnone)
  · rw [(rule?_read text).2, ← not_iff_not, Bool.not_eq_true, Option.isSome_eq_false_iff,
      Option.isNone_iff_eq_none, rule?_draftOf_eq_none_iff]
    simp
  · rw [(rule?_read text).1, (rule?_read text).2]
  · rw [(rule?_read text).1, rule?_draftOf_eq_some_iff]

end ItemGuard.Blacklist
