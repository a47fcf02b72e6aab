import ItemGuard.Proofs.Blacklist.Flaws
import ItemGuard.Proofs.Blacklist.Meaning

/-!
# Sections without items

The options below a header that binds no item are passed over, so that a mistake in a header may lift
all restrictions of its section. Such a header has a notice of its own, unless it has no field at all:
commas alone between the brackets count as no field, and bind nothing without a notice
(`binds_or_warned_iff`).
-/

namespace ItemGuard.Blacklist

open Text (lines splitOn trim)

/-- Commas stand between the brackets of the line, and nothing else. -/
def ListsNothing (raw : List Char) : Prop :=
  let inner := (trim raw).tail.dropLast
  inner ≠ [] ∧ ∀ c ∈ inner, c = ','

variable {registry : Registry} {raw : List Char}

/-! ## Headers without fields -/

theorem eq_nil_of_mem_splitOn {sep : Char} {cs field : List Char} (h : ∀ c ∈ cs, c = sep)
    (hfield : field ∈ splitOn sep cs) : field = [] := by
  induction cs with
  | nil => simpa [splitOn] using hfield
  | cons c cs ih =>
    rw [splitOn, if_pos (h c List.mem_cons_self)] at hfield
    rcases List.mem_cons.1 hfield with rfl | hrest
    · rfl
    · exact ih (fun d hd => h d (List.mem_cons_of_mem _ hd)) hrest

theorem fieldsOf_eq_nil_iff : fieldsOf raw = [] ↔ ListsNothing raw := by
  unfold fieldsOf ListsNothing
  dsimp only
  generalize (trim raw).tail.dropLast = inner
  by_cases hinner : inner = []
  · simp [hinner]
  · rw [if_neg hinner, List.rdropWhile_eq_nil_iff]
    simp only [List.isEmpty_iff]
    constructor
    · intro hempty
      refine ⟨hinner, fun c hc => ?_⟩
      rw [← Text.intercalate_splitOn ',' inner] at hc
      rcases Text.eq_or_mem_of_mem_intercalate hc with hcomma | ⟨field, hfield, hcf⟩
      · exact hcomma
      · rw [hempty field hfield] at hcf
        cases hcf
    · rintro ⟨-, hcommas⟩ field hfield
      exact eq_nil_of_mem_splitOn hcommas hfield

/-- The first field of a header is bound, or it stops the header. -/
theorem leadingItems_eq_empty_iff {tokens : List (List Char)} :
    leadingItems registry tokens = ([], none) ↔ tokens = [] := by
  cases tokens with
  | nil => simp [leadingItems]
  | cons token tokens =>
    rw [leadingItems]
    cases registry.resolveTrimmed token <;> simp

theorem exists_binds_iff {tokens : List (List Char)} (h : Line.ofText raw = .header tokens) :
    (∃ item, Binds registry raw item) ↔ (leadingItems registry tokens).1 ≠ [] := by
  simp only [binds_iff, h, Line.header.injEq, exists_eq_left']
  exact ⟨fun ⟨_, hitem⟩ => List.ne_nil_of_mem hitem, List.exists_mem_of_ne_nil _⟩

/-! ## Notices of single lines -/

theorem mem_notices_iff {text : String} {above below : List (List Char)} {cause : Cause}
    (h : lines text.toList = above ++ raw :: below) :
    ⟨above.length + 1, cause⟩ ∈ (read registry text).notices ↔
      causeOf registry (above.any fun line => decide (IsHeader line)) raw = some cause := by
  have hfilter := (filter_noticesFrom registry 1 false above raw below).1
  rw [← h, ← notices_read, Bool.false_or, Nat.add_comm 1] at hfilter
  have hmem : ⟨above.length + 1, cause⟩ ∈ (read registry text).notices ↔
      ⟨above.length + 1, cause⟩ ∈
        (read registry text).notices.filter fun n => n.line = above.length + 1 := by
    simp
  rw [hmem, hfilter]
  simp

/-- A header has a notice for the token that stops it. -/
theorem warned_iff {text : String} {above below tokens : List (List Char)}
    (h : lines text.toList = above ++ raw :: below) (htokens : Line.ofText raw = .header tokens) :
    (∃ token, ⟨above.length + 1, .unknownItem token⟩ ∈ (read registry text).notices) ↔
      (leadingItems registry tokens).2 ≠ none := by
  simp only [mem_notices_iff h, causeOf, htokens]
  cases (leadingItems registry tokens).2 <;> simp

/-! ## The section that a line stands in -/

variable (registry) in
theorem behind_of_not_header {ls : List (List Char)} (h : ∀ line ∈ ls, ¬ IsHeader line)
    (start : Place × Draft) :
    (behind registry start ls).1 = start.1 ∧
      (behind registry start ls).2.slots = start.2.slots ∧
      (behind registry start ls).2.rules.length = start.2.rules.length := by
  induction ls generalizing start with
  | nil => exact ⟨rfl, rfl, rfl⟩
  | cons raw rest ih =>
    obtain ⟨hplace, hslots, hrules⟩ := pass_of_not_header registry (h raw List.mem_cons_self) start
    obtain ⟨hplace', hslots', hrules'⟩ :=
      ih (fun line hline => h line (List.mem_cons_of_mem _ hline)) (pass registry start raw)
    exact ⟨hplace'.trans hplace, hslots'.trans hslots, hrules'.trans hrules⟩

/-- The section of the header has the slot, to which the items of the header are bound. -/
structure Opened (registry : Registry) (header : List Char) (slot : Nat) (reached : Place × Draft) :
    Prop where
  place_eq : reached.1 = .within (some slot)
  slot_lt : slot < reached.2.rules.length
  slot_of_binds : ∀ item, Binds registry header item → reached.2.slots[item]? = some slot

variable (registry) in
/-- A header that binds an item opens a slot, and any other header a section without one. -/
theorem pass_of_header (h : IsHeader raw) (reached : Place × Draft) :
    ((∃ item, Binds registry raw item) →
      ∃ slot, Opened registry raw slot (pass registry reached raw)) ∧
    ((∀ item, ¬ Binds registry raw item) → (pass registry reached raw).1 = .within none) := by
  obtain ⟨tokens, htokens⟩ := isHeader_iff_ofText.1 h
  have hplace : (pass registry reached raw).1 =
      .within (openSlot reached.2 (leadingItems registry tokens).1).1 := by
    rw [pass, htokens]
    rfl
  rw [← not_exists, exists_binds_iff htokens, not_not]
  constructor
  · intro hne
    refine ⟨reached.2.nextSlot, ?_, ?_, fun item hitem => ?_⟩
    · rw [hplace]
      cases hitems : (leadingItems registry tokens).1 with
      | nil => exact absurd hitems hne
      | cons item items => rfl
    · rw [pass_of_tokens registry htokens, Draft.length_rules_addSection _ hne]
      exact Nat.lt_succ_self _
    · obtain ⟨tokens', htokens', hmem⟩ := binds_iff.1 hitem
      obtain rfl : tokens = tokens' := Line.header.inj (htokens.symm.trans htokens')
      rw [pass_of_tokens registry htokens, Draft.slots_addSection, if_pos hmem]
  · intro hnil
    rw [hplace, hnil]
    rfl

variable (registry) in
/-- Between a header and the next one, the place is the section of the header. -/
theorem behind_header (above : List (List Char)) {between : List (List Char)} (h : IsHeader raw)
    (hbetween : ∀ line ∈ between, ¬ IsHeader line) :
    let reached := behind registry (.preamble, .empty) (above ++ raw :: between)
    ((∃ item, Binds registry raw item) → ∃ slot, Opened registry raw slot reached) ∧
      ((∀ item, ¬ Binds registry raw item) → reached.1 = .within none) := by
  dsimp only
  rw [behind_append]
  generalize behind registry (.preamble, .empty) above = start
  obtain ⟨hopened, hnone⟩ := pass_of_header registry h start
  obtain ⟨hplace, hslots, hrules⟩ :=
    behind_of_not_header registry hbetween (pass registry start raw)
  constructor
  · intro hbinds
    obtain ⟨slot, hslot⟩ := hopened hbinds
    refine ⟨slot, hplace.trans hslot.place_eq, ?_, fun item hitem => ?_⟩
    · exact Nat.lt_of_lt_of_eq hslot.slot_lt hrules.symm
    · exact (congrArg (·[item]?) hslots).trans (hslot.slot_of_binds item hitem)
  · exact fun hbinds => hplace.trans (hnone hbinds)

/-- An option that can be read changes the rule in the slot of its section, if there is a slot. -/
theorem readLine_of_readOption {key : OptionKey} {groups : List String}
    (h : readOption (trim raw) = .ok (key, groups)) (slot : Option Nat) (d : Draft) :
    readLine registry (.within slot) d (Line.ofText raw) =
      (.within slot, slot.elim d fun n => d.edit n (key.apply groups), none) := by
  rw [ofText_of_readOption h, readLine, h]
  cases slot <;> rfl

/-- A header without a bound item or a notice lists nothing. -/
theorem binds_or_warned_header_iff {text : String} {above below : List (List Char)}
    (h : lines text.toList = above ++ raw :: below) (hheader : IsHeader raw) :
    ((∃ item, Binds registry raw item) ∨
      ∃ token, ⟨above.length + 1, .unknownItem token⟩ ∈ (read registry text).notices) ↔
        ¬ ListsNothing raw := by
  have htokens := ofText_eq_header_iff.2 ⟨hheader, rfl⟩
  rw [exists_binds_iff htokens, warned_iff h htokens, ← fieldsOf_eq_nil_iff,
    ← List.map_eq_nil_iff (f := trim), ← leadingItems_eq_empty_iff, Prod.ext_iff]
  exact not_and_or.symm

/-- **Sections without items.** A header binds an item or has a notice, exactly if there is anything
but commas between its brackets. An option below it that can be read changes the rule in its slot,
the one to which its items are bound. Only if it binds none is the option passed over. -/
theorem binds_or_warned_iff (registry : Registry) (text : String) :
    let report := read registry text
    (∀ above header below, lines text.toList = above ++ header :: below → IsHeader header →
      (((∃ item, Binds registry header item) ∨
        ∃ token, ⟨above.length + 1, .unknownItem token⟩ ∈ report.notices) ↔
          ¬ ListsNothing header)) ∧
    ∀ above header between raw below key groups,
      lines text.toList = (above ++ header :: between) ++ raw :: below → IsHeader header →
      (∀ line ∈ between, ¬ IsHeader line) → readOption (trim raw) = .ok (key, groups) →
      let reached := behind registry (.preamble, .empty) (above ++ header :: between)
      let r := readLine registry reached.1 reached.2 (Line.ofText raw)
      (report.ruleset? =
        (readLines registry ((above ++ header :: between).length + 2) r.1 r.2.1 below).1.build?) ∧
      (((∃ item, Binds registry header item) ∧
          ∃ slot, Opened registry header slot reached ∧
            r = (reached.1, reached.2.edit slot (key.apply groups), none)) ∨
        ((∀ item, ¬ Binds registry header item) ∧ r = (reached.1, reached.2, none) ∧
          (¬ ListsNothing header →
            ∃ token, ⟨above.length + 1, .unknownItem token⟩ ∈ report.notices))) := by
  intro report
  refine ⟨fun above header below => binds_or_warned_header_iff, ?_⟩
  intro above header between raw below key groups hls hsection hbetween hread reached r
  obtain ⟨hopened, hnone⟩ := behind_header registry above hsection hbetween
  constructor
  · refine congrArg Draft.build? ?_
    rw [hls, readLines_append registry 1 (.preamble, .empty), readLines, Nat.add_comm 1]
  · by_cases hbinds : ∃ item, Binds registry header item
    · obtain ⟨slot, hslot⟩ := hopened hbinds
      have hplace : reached.1 = .within (some slot) := hslot.place_eq
      refine .inl ⟨hbinds, slot, hslot, ?_⟩
      dsimp only [r]
      rw [hplace, readLine_of_readOption hread, Option.elim_some]
    · have hplace : reached.1 = .within none := hnone (not_exists.1 hbinds)
      refine .inr ⟨not_exists.1 hbinds, ?_, fun hlists => ?_⟩
      · dsimp only [r]
        rw [hplace, readLine_of_readOption hread, Option.elim_none]
      · have hline : lines text.toList = above ++ header :: (between ++ raw :: below) := by
          rw [hls, List.append_assoc, List.cons_append]
        exact ((binds_or_warned_header_iff hline hsection).2 hlists).resolve_left hbinds

/-- The token of a header names no item, and the option below it is passed over. -/
theorem binds_or_warned_unknown :
    let text := "[bogus]\n\non-left = mods\n"
    let registry : Registry := fun _ => none
    let reached := behind registry (.preamble, .empty) ["[bogus]".toList, []]
    (∃ token, ⟨1, .unknownItem token⟩ ∈ (read registry text).notices) ∧
      readLine registry reached.1 reached.2 (Line.ofText "on-left = mods".toList) =
        (reached.1, reached.2, none) := by
  intro text registry reached
  have hls : lines text.toList =
      ([] ++ "[bogus]".toList :: [[]]) ++ "on-left = mods".toList :: [] := by decide
  have hread : readOption (trim "on-left = mods".toList) = .ok (.restrict .leftClick, ["mods"]) := by
    decide
  have hbinds : ¬ ∃ item, Binds registry "[bogus]".toList item := by
    have htokens : Line.ofText "[bogus]".toList = .header ["bogus".toList] := by decide
    rw [exists_binds_iff htokens]
    decide
  obtain ⟨-, h⟩ :=
    (binds_or_warned_iff registry text).2 _ _ _ _ _ _ _ hls (by decide) (by decide) hread
  rcases h with ⟨hsome, -⟩ | ⟨-, hpassed, hwarned⟩
  · exact absurd hsome hbinds
  · exact ⟨hwarned (mt fieldsOf_eq_nil_iff.2 (by decide)), hpassed⟩

/-- Nothing is wrong with a header of a comma, and the option below it is passed over. -/
theorem binds_or_warned_commas :
    let text := "[,]\non-destroy=mods\n"
    let registry : Registry := fun _ => none
    lines text.toList = ["[,]".toList, "on-destroy=mods".toList] ∧ IsHeader "[,]".toList ∧
      readOption "on-destroy=mods".toList = .ok (.restrict .destroy, ["mods"]) ∧
      (read registry text).notices = [] ∧ (read registry text).ruleset? = none := by
  intro text registry
  have hls : lines text.toList = ["[,]".toList, "on-destroy=mods".toList] := by decide
  have hheader : Line.ofText "[,]".toList = .header [] := by decide
  have hoption : Line.ofText "on-destroy=mods".toList = .option "on-destroy=mods".toList := by decide
  have hread : readOption "on-destroy=mods".toList = .ok (.restrict .destroy, ["mods"]) := by decide
  have hdraft : draftOf registry (lines text.toList) = .empty := by
    rw [hls, draftOf]
    simp only [readLines, hheader, hoption, readLine, leadingItems, openSlot, hread]
  have hruleset : (read registry text).ruleset? = (draftOf registry (lines text.toList)).build? :=
    rfl
  refine ⟨hls, by decide, hread, by decide, ?_⟩
  rw [hruleset, hdraft, Draft.build?_eq_none_iff]
  exact fun item => Std.ExtTreeMap.getElem?_empty

end ItemGuard.Blacklist
