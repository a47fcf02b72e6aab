import ItemGuard.Proofs.Blacklist.Meaning
import ItemGuard.Proofs.Blacklist.Notices

/-!
# One blacklist behind another

A text that begins with a header says the same behind another text: its sections get slots of their
own above those that are there already (`stacks_draftOf_append`), and take over the items that they bind.
What comes of both texts is the second report laid over the first (`overlays_append`).
-/

namespace ItemGuard

open Blacklist

namespace Draft

/-- Of the lines of a section, only the rule that they make counts. -/
theorem addSection_congr (d : Draft) {items : List ItemId} {ls ls' : List (List Char)}
    (h : ruleOf ls = ruleOf ls') : d.addSection ⟨items, ls⟩ = d.addSection ⟨items, ls'⟩ := by
  unfold addSection
  dsimp only
  rw [h]

/-- A draft has the rules of two others in a row. Its items are those of both; where both bind an
item, the upper one counts. -/
structure Stacks (d below above : Draft) : Prop where
  rules_eq : d.rules = below.rules ++ above.rules
  slots_eq : ∀ item : ItemId, d.slots[item]? =
    (above.slots[item]?.map (below.rules.length + ·)).or below.slots[item]?

/-- Sections that are added to a draft get the slots behind it, and take over their items. -/
theorem stacks_foldl_addSection (sections : List Section) (d : Draft) :
    (sections.foldl addSection d).Stacks d (sections.foldl addSection empty) := by
  induction sections using List.reverseRecOn with
  | nil => exact ⟨by simp [empty], fun item => by simp [empty]⟩
  | append_singleton sections s ih =>
    rw [List.foldl_concat, List.foldl_concat]
    refine ⟨by rw [rules_addSection, rules_addSection, ih.rules_eq, List.append_assoc],
      fun item => ?_⟩
    rw [slots_addSection, slots_addSection, nextSlot, nextSlot, ih.rules_eq, List.length_append]
    by_cases hitem : item ∈ s.items
    · simp [hitem]
    · simp [hitem, ih.slots_eq]

namespace Stacks

variable {d below above : Draft}

theorem rule?_of_some (h : d.Stacks below above) {item : ItemId} {n : Nat}
    (hn : above.slots[item]? = some n) : d.rule? item = above.rule? item := by
  simp [rule?, h.slots_eq, h.rules_eq, hn, List.getElem?_append_right]

theorem rule?_of_none (h : d.Stacks below above) (hclosed : below.Closed) {item : ItemId}
    (hnone : above.slots[item]? = none) : d.rule? item = below.rule? item := by
  unfold rule?
  rw [h.slots_eq, h.rules_eq, hnone, Option.map_none, Option.none_or]
  cases hn : below.slots[item]? with
  | none => rfl
  | some n => simp [List.getElem?_append_left (hclosed item n hn)]

/-- The slots of the two drafts are apart. -/
theorem shares_iff (h : d.Stacks below above) (hclosed : below.Closed) (x y : ItemId) :
    (∃ n, d.slots[x]? = some n ∧ d.slots[y]? = some n) ↔
      (∃ n, above.slots[x]? = some n ∧ above.slots[y]? = some n) ∨
        (above.slots[x]? = none ∧ above.slots[y]? = none ∧
          ∃ n, below.slots[x]? = some n ∧ below.slots[y]? = some n) := by
  rw [h.slots_eq, h.slots_eq]
  cases hx : above.slots[x]? with
  | none =>
    cases hy : above.slots[y]? with
    | none => simp
    | some m =>
      have hapart : below.slots[x]? ≠ some (below.rules.length + m) := by
        intro hn
        exact absurd (hclosed x _ hn) (by omega)
      simpa using hapart
  | some n =>
    cases hy : above.slots[y]? with
    | none =>
      have hapart : below.slots[y]? ≠ some (below.rules.length + n) := by
        intro hn
        exact absurd (hclosed y _ hn) (by omega)
      simpa using hapart
    | some m => simp

end Stacks

end Draft

namespace Blacklist

open Text (Terminated lines)

variable {registry : Registry}

/-! ## Lines between two headers -/

theorem setting?_of_isSilent {raw : List Char} (h : IsSilent raw) (key : OptionKey) :
    setting? key raw = none := by
  rw [setting?_eq]
  cases hread : readOption (Text.trim raw) with
  | error cause => rfl
  | ok option =>
    have hoption := ofText_of_readOption hread
    rw [ofText_eq_silent_iff.2 h] at hoption
    cases hoption

/-- Blank lines and comments at the end of a section set nothing. -/
theorem ruleOf_append_of_isSilent (ls : List (List Char)) {silent : List (List Char)}
    (h : ∀ raw ∈ silent, IsSilent raw) : ruleOf (ls ++ silent) = ruleOf ls := by
  have hlast : ∀ key, lastSetting? key (ls ++ silent) = lastSetting? key ls := by
    intro key
    have hnone : silent.filterMap (setting? key) = [] :=
      List.filterMap_eq_nil_iff.2 fun raw hraw => setting?_of_isSilent (h raw hraw) key
    unfold lastSetting?
    rw [List.filterMap_append, hnone, List.append_nil]
  simp only [ruleOf, hlast]

theorem isSilent_of_mem_linesBelow {ls : List (List Char)} (h : BeginsWithHeader ls) :
    ∀ raw ∈ linesBelow ls, IsSilent raw := by
  induction ls with
  | nil => simp [linesBelow]
  | cons first rest ih =>
    rcases h.cons with hheader | ⟨hsilent, hrest⟩
    · simp [linesBelow_cons_of_header rest hheader]
    · rw [linesBelow_cons_of_not_header rest (not_isHeader_of_isSilent hsilent)]
      intro raw hraw
      rcases List.mem_cons.1 hraw with rfl | hraw
      · exact hsilent
      · exact ih hrest raw hraw

/-- The last section of a text gets no more than blank lines and comments from the text behind. -/
theorem ruleOf_linesBelow_append (as : List (List Char)) {bs : List (List Char)}
    (h : BeginsWithHeader bs) : ruleOf (linesBelow (as ++ bs)) = ruleOf (linesBelow as) := by
  have hsilent := isSilent_of_mem_linesBelow h
  unfold linesBelow at hsilent ⊢
  rw [List.takeWhile_append]
  split
  next hall =>
    -- no header in the first lines, so their section goes on up to the header behind
    rw [(List.takeWhile_prefix _).eq_of_length hall, ruleOf_append_of_isSilent as hsilent]
  next => rfl

theorem foldl_sectionsOf_append (as : List (List Char)) {bs : List (List Char)}
    (h : BeginsWithHeader bs) (d : Draft) :
    (sectionsOf registry (as ++ bs)).foldl Draft.addSection d =
      (sectionsOf registry bs).foldl Draft.addSection
        ((sectionsOf registry as).foldl Draft.addSection d) := by
  induction as generalizing d with
  | nil => rfl
  | cons raw as ih =>
    rw [List.cons_append, sectionsOf, sectionsOf]
    split
    · rw [List.foldl_cons, List.foldl_cons, ih,
        Draft.addSection_congr d (ruleOf_linesBelow_append as h)]
    · exact ih d

variable (registry) in
/-- The draft of both texts has that of the second one on top of that of the first. -/
theorem stacks_draftOf_append (as : List (List Char)) {bs : List (List Char)}
    (h : BeginsWithHeader bs) :
    (draftOf registry (as ++ bs)).Stacks (draftOf registry as) (draftOf registry bs) := by
  rw [draftOf_eq, draftOf_eq, draftOf_eq, foldl_sectionsOf_append as h]
  exact Draft.stacks_foldl_addSection _ _

/-! ## Reports -/

namespace Report

/-- The item has a rule; where there is no ruleset, none has. -/
def Configures (r : Report) (item : ItemId) : Prop :=
  (r.ruleset?.any fun s => s.contains item) = true

def rule? (r : Report) (item : ItemId) : Option Rule :=
  r.ruleset?.bind fun s => s.rule? item

/-- Two items are in the same slot. -/
def Shares (r : Report) (x y : ItemId) : Prop :=
  ∃ s, r.ruleset? = some s ∧ s.Shares x y

/-- A report is that of a text of some lines and, laid over it, that of another text. -/
structure Overlays (r below above : Report) (lines : Nat) : Prop where
  none_iff : r.ruleset? = none ↔ below.ruleset? = none ∧ above.ruleset? = none
  configures_iff : ∀ item, r.Configures item ↔ below.Configures item ∨ above.Configures item
  rule_above : ∀ item, above.Configures item → r.rule? item = above.rule? item
  rule_below : ∀ item, ¬ above.Configures item → r.rule? item = below.rule? item
  shares_iff : ∀ x y, r.Shares x y ↔
    above.Shares x y ∨ (¬ above.Configures x ∧ ¬ above.Configures y ∧ below.Shares x y)
  notices_eq : r.notices = below.notices ++ above.notices.map (Notice.shift lines)

end Report

section

variable (registry) (text : String)

theorem ruleset?_read :
    (read registry text).ruleset? = (draftOf registry (lines text.toList)).build? := rfl

theorem configures_read_iff (item : ItemId) :
    (read registry text).Configures item ↔
      (draftOf registry (lines text.toList)).slots[item]?.isSome := by
  have hclosed := closed_draftOf registry (lines text.toList)
  unfold Report.Configures
  rw [(rule?_read text).2, Option.isSome_iff_ne_none, Option.isSome_iff_ne_none, Ne, Ne,
    hclosed.rule?_eq_none_iff]

theorem shares_read_iff (x y : ItemId) :
    (read registry text).Shares x y ↔
      ∃ n, (draftOf registry (lines text.toList)).slots[x]? = some n ∧
        (draftOf registry (lines text.toList)).slots[y]? = some n := by
  have hclosed := closed_draftOf registry (lines text.toList)
  unfold Report.Shares
  rw [ruleset?_read]
  constructor
  · rintro ⟨s, hs, hshares⟩
    obtain ⟨n, -, hxy⟩ := (Draft.shares_of_build? hs).1 hshares
    exact ⟨n, hxy⟩
  · rintro ⟨n, hx, hy⟩
    cases hb : (draftOf registry (lines text.toList)).build? with
    | none =>
      rw [Draft.build?_eq_none_iff.1 hb x] at hx
      cases hx
    | some s => exact ⟨s, rfl, (Draft.shares_of_build? hb).2 ⟨n, hclosed x n hx, hx, hy⟩⟩

end

/-- **One text behind another.** Let a text be empty or end with a line feed, and let another one say
nothing before its first header. Both in a row mean what the second one means, laid over what the
first one means, and the notices of the second one follow with their lines counted on. -/
theorem overlays_append (registry : Registry) (a b : String) (ha : Terminated a.toList)
    (hb : BeginsWithHeader (lines b.toList)) :
    (read registry (a ++ b)).Overlays (read registry a) (read registry b)
      (lines a.toList).length := by
  have hlines : lines (a ++ b).toList = lines a.toList ++ lines b.toList := by
    rw [String.toList_append, Text.lines_append _ ha]
  have hstacks := stacks_draftOf_append registry (lines a.toList) hb
  have hclosed := closed_draftOf registry (lines a.toList)
  rw [← hlines] at hstacks
  have habove : ∀ item, ¬ (read registry b).Configures item →
      (draftOf registry (lines b.toList)).slots[item]? = none := by
    intro item hno
    rwa [configures_read_iff, Option.not_isSome_iff_eq_none] at hno
  refine ⟨?_, fun item => ?_, fun item hitem => ?_, fun item hitem => ?_, fun x y => ?_, ?_⟩
  · simp only [ruleset?_read, Draft.build?_eq_none_iff, hstacks.slots_eq]
    simp [forall_and, and_comm]
  · rw [configures_read_iff, configures_read_iff, configures_read_iff, hstacks.slots_eq]
    simp [or_comm]
  · rw [configures_read_iff] at hitem
    obtain ⟨n, hn⟩ := Option.isSome_iff_exists.1 hitem
    rw [Report.rule?, Report.rule?, (rule?_read _).1, (rule?_read _).1, hstacks.rule?_of_some hn]
  · rw [Report.rule?, Report.rule?, (rule?_read _).1, (rule?_read _).1,
      hstacks.rule?_of_none hclosed (habove item hitem)]
  · rw [shares_read_iff, shares_read_iff, shares_read_iff, hstacks.shares_iff hclosed]
    simp only [configures_read_iff, Option.not_isSome_iff_eq_none]
  · rw [notices_read, notices_read, notices_read, hlines, noticesFrom_append,
      noticesFrom_of_beginsWithHeader hb, noticesFrom_add]

/-- A text that takes over one of two items that shared a slot, and has a line in it without a
value. -/
theorem overlays_append_takeover :
    let a := "[1,2]\non-left=mods\n"
    let b := "\n; later\n[2,3]\non-right\n"
    let registry : Registry := fun _ => none
    Terminated a.toList ∧ BeginsWithHeader (lines b.toList) ∧
      (read registry (a ++ b)).Overlays (read registry a) (read registry b) 2 := by
  intro a b registry
  have ha : Terminated a.toList := by
    intro c hc
    have hlast : a.toList.getLast? = some '\n' := by decide
    rw [hlast] at hc
    exact (Option.some.inj hc).symm
  have hb : BeginsWithHeader (lines b.toList) := by
    unfold BeginsWithHeader
    decide
  have hlength : (lines a.toList).length = 2 := by decide
  have hoverlays := overlays_append registry a b ha hb
  rw [hlength] at hoverlays
  exact ⟨ha, hb, hoverlays⟩

end Blacklist
end ItemGuard
