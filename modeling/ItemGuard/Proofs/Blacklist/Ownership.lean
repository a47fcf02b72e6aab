import ItemGuard.Proofs.Blacklist.Meaning
import ItemGuard.Proofs.Rule.Canonical

/-!
# The lines that own items

The last line to bind an item owns it. While a blacklist is read, every slot belongs to one line, and
the slots come in the order of their lines (`numbered_behind`). Lines all of whose items go to later
lines lose their slots at the end, and the other slots close up (`canonical_read`).
-/

namespace ItemGuard

namespace Draft.Numbered

variable {owns owns' : Nat → ItemId → Prop} {owners : List Nat} {d e : Draft}

theorem congr (h : d.Numbered owns owners) (hslots : e.slots = d.slots)
    (hrules : e.rules.length = d.rules.length) (howns : ∀ k item, owns' k item ↔ owns k item) :
    e.Numbered owns' owners where
  ascending := h.ascending
  length_eq := h.length_eq.trans hrules.symm
  closed item n := by
    rw [hslots, hrules]
    exact h.closed item n
  owns_iff item k := by
    rw [hslots, howns]
    exact h.owns_iff item k

/-- A section behind all others gets the next slot, and takes its items over. -/
theorem addSection (h : d.Numbered owns owners) {s : Section} (hne : s.items ≠ []) {k : Nat}
    (hlast : ∀ j ∈ owners, j < k)
    (howns : ∀ j item, owns' j item ↔ if item ∈ s.items then j = k else owns j item) :
    (d.addSection s).Numbered owns' (owners ++ [k]) where
  ascending := by
    refine List.pairwise_append.2 ⟨h.ascending, List.pairwise_singleton _ _, fun j hj i hi => ?_⟩
    rw [List.mem_singleton.1 hi]
    exact hlast j hj
  length_eq := by
    rw [length_rules_addSection d hne, List.length_append, h.length_eq, List.length_singleton]
  closed item n hn := Closed.addSection h.closed s item n hn
  owns_iff item j := by
    rw [howns, slots_addSection]
    split
    · simp only [nextSlot, ← h.length_eq, Option.some.injEq, exists_eq_left', List.getElem?_concat_length]
      exact eq_comm
    · rw [h.owns_iff]
      refine exists_congr fun n => and_congr_right fun hn => ?_
      rw [List.getElem?_append_left (Nat.lt_of_lt_of_eq (h.closed item n hn) h.length_eq.symm)]

end Draft.Numbered

namespace Blacklist

open Text (lines)

/-- The line with the index is the last to bind the item. -/
def Owns (registry : Registry) (ls : List (List Char)) (k : Nat) (item : ItemId) : Prop :=
  ∃ before header after, ls = before ++ header :: after ∧ before.length = k ∧
    Binds registry header item ∧ ∀ raw ∈ after, ¬ Binds registry raw item

section

variable {registry : Registry} {ls : List (List Char)} {raw : List Char} {item : ItemId} {k : Nat}

/-- A line stands in the last place, or the last line is one of those behind it. -/
theorem concat_eq_append_cons {before after : List (List Char)} {header : List Char}
    (h : ls ++ [raw] = before ++ header :: after) :
    (ls = before ∧ raw = header ∧ after = []) ∨
      ∃ after', after = after' ++ [raw] ∧ ls = before ++ header :: after' := by
  rcases after.eq_nil_or_concat' with rfl | ⟨after', last, rfl⟩
  · obtain ⟨hls, hraw⟩ := List.append_inj' h rfl
    exact .inl ⟨hls, List.singleton_inj.1 hraw, rfl⟩
  · rw [← List.cons_append, ← List.append_assoc] at h
    obtain ⟨hls, hraw⟩ := List.append_inj' h rfl
    exact .inr ⟨after', by rw [List.singleton_inj.1 hraw], hls⟩

theorem owns_concat_of_binds (h : Binds registry raw item) :
    Owns registry (ls ++ [raw]) k item ↔ k = ls.length := by
  constructor
  · rintro ⟨before, header, after, heq, rfl, -, hafter⟩
    rcases concat_eq_append_cons heq with ⟨rfl, -, -⟩ | ⟨after', rfl, -⟩
    · rfl
    · exact absurd h (hafter raw (List.mem_append_right _ (List.mem_singleton_self _)))
  · rintro rfl
    exact ⟨ls, raw, [], rfl, rfl, h, fun _ hmem => absurd hmem List.not_mem_nil⟩

theorem owns_concat_of_not_binds (h : ¬ Binds registry raw item) :
    Owns registry (ls ++ [raw]) k item ↔ Owns registry ls k item := by
  constructor
  · rintro ⟨before, header, after, heq, rfl, hheader, hafter⟩
    rcases concat_eq_append_cons heq with ⟨-, rfl, -⟩ | ⟨after', rfl, rfl⟩
    · exact absurd hheader h
    · exact ⟨before, header, after', rfl, rfl, hheader,
        fun r hr => hafter r (List.mem_append_left _ hr)⟩
  · rintro ⟨before, header, after, rfl, rfl, hheader, hafter⟩
    refine ⟨before, header, after ++ [raw], by simp, rfl, hheader, fun r hr => ?_⟩
    rcases List.mem_append.1 hr with hr | hr
    · exact hafter r hr
    · rwa [List.mem_singleton.1 hr]

/-- A line that binds nothing leaves all slots as they are. -/
theorem pass_of_not_binds (h : ∀ item, ¬ Binds registry raw item) (reached : Place × Draft) :
    (pass registry reached raw).2.slots = reached.2.slots ∧
      (pass registry reached raw).2.rules.length = reached.2.rules.length := by
  by_cases hheader : ∃ tokens, Line.ofText raw = .header tokens
  · obtain ⟨tokens, htokens⟩ := hheader
    have hnil : (leadingItems registry tokens).1 = [] :=
      List.eq_nil_iff_forall_not_mem.2 fun item hitem => h item (binds_iff.2 ⟨tokens, htokens, hitem⟩)
    rw [pass_of_tokens registry htokens, Draft.addSection, if_pos hnil]
    exact ⟨rfl, rfl⟩
  · exact (pass_of_not_header registry (not_isHeader_of_ofText (not_exists.1 hheader)) reached).2

/-! ## Slots and their lines -/

theorem numbered_empty : Draft.empty.Numbered (Owns registry []) [] where
  ascending := .nil
  length_eq := rfl
  closed := Draft.closed_empty
  owns_iff item k := by
    constructor
    · rintro ⟨before, header, after, heq, -⟩
      simp at heq
    · rintro ⟨n, -, hn⟩
      cases hn

/-- One line more: a line that binds an item owns the next slot. -/
theorem numbered_pass {reached : Place × Draft} {owners : List Nat}
    (h : reached.2.Numbered (Owns registry ls) owners) (hlast : ∀ j ∈ owners, j < ls.length)
    (raw : List Char) :
    ∃ owners', (∀ j ∈ owners', j < (ls ++ [raw]).length) ∧
      (pass registry reached raw).2.Numbered (Owns registry (ls ++ [raw])) owners' := by
  rw [List.length_append, List.length_singleton]
  by_cases hbinds : ∃ item, Binds registry raw item
  · obtain ⟨first, hfirst⟩ := hbinds
    obtain ⟨tokens, htokens, hmem⟩ := binds_iff.1 hfirst
    have hitems : ∀ item, Binds registry raw item ↔ item ∈ (leadingItems registry tokens).1 := by
      intro item
      simp [binds_iff, htokens]
    refine ⟨owners ++ [ls.length], fun j hj => ?_, ?_⟩
    · rcases List.mem_append.1 hj with hj | hj
      · exact Nat.lt_succ_of_lt (hlast j hj)
      · rw [List.mem_singleton.1 hj]
        exact Nat.lt_succ_self _
    · rw [pass_of_tokens registry htokens]
      refine h.addSection (List.ne_nil_of_mem hmem) hlast fun j item => ?_
      split
      · next hitem => exact owns_concat_of_binds ((hitems item).2 hitem)
      · next hitem => exact owns_concat_of_not_binds (mt (hitems item).1 hitem)
  · have hnone := not_exists.1 hbinds
    obtain ⟨hslots, hrules⟩ := pass_of_not_binds hnone reached
    exact ⟨owners, fun j hj => Nat.lt_succ_of_lt (hlast j hj),
      h.congr hslots hrules fun k item => owns_concat_of_not_binds (hnone item)⟩

variable (registry ls) in
/-- Behind any lines, the slots follow the lines that own them so far. -/
theorem numbered_behind :
    ∃ owners, (∀ j ∈ owners, j < ls.length) ∧
      (behind registry (.preamble, .empty) ls).2.Numbered (Owns registry ls) owners := by
  -- the owners lie above the next line, so that line comes last in their order
  induction ls using List.reverseRecOn with
  | nil => exact ⟨[], fun j hj => absurd hj List.not_mem_nil, numbered_empty⟩
  | append_singleton ls raw ih =>
    obtain ⟨owners, hlast, hnumbered⟩ := ih
    rw [behind_append]
    exact numbered_pass hnumbered hlast raw

variable (registry ls) in
theorem draftOf_eq_behind :
    draftOf registry ls = (behind registry (.preamble, .empty) ls).2 := by
  have hread := readLines_append registry 1 (.preamble, .empty) ls []
  rwa [List.append_nil] at hread

/-- A blacklist makes a ruleset whose slots follow the lines that own them. -/
theorem canonical_read {text : String} {s : Ruleset} (h : (read registry text).ruleset? = some s) :
    s.Canonical (Owns registry (lines text.toList)) := by
  obtain ⟨owners, -, hnumbered⟩ := numbered_behind registry (lines text.toList)
  rw [← draftOf_eq_behind] at hnumbered
  exact Draft.canonical_of_build? hnumbered h

end

end Blacklist
end ItemGuard
