import ItemGuard.Rule.Draft
import Mathlib.Data.List.Induction
import Mathlib.Data.List.Sort

/-!
# New slots for old ones

The slots that items are bound to are sorted and met once each, and the rule of every slot that exists
moves to the next new slot (`Moved.move`). So a slot gets its place among the used slots as its new
number, in whatever order the bindings come (`buildFrom?_eq`).
-/

namespace ItemGuard

/-! ## Slots in ascending order -/

/-- The places of ascending numbers are in the order of the numbers. -/
theorem lt_iff_of_ascending {ns : List Nat} (h : ns.Pairwise (· < ·)) {i j m n : Nat}
    (hm : ns[i]? = some m) (hn : ns[j]? = some n) : i < j ↔ m < n := by
  obtain ⟨hi, rfl⟩ := List.getElem?_eq_some_iff.1 hm
  obtain ⟨hj, rfl⟩ := List.getElem?_eq_some_iff.1 hn
  have hlt : ∀ {i j : Nat} (hi : i < ns.length) (hj : j < ns.length), i < j → ns[i] < ns[j] :=
    fun hi hj hij => List.pairwise_iff_getElem.1 h _ _ hi hj hij
  refine ⟨hlt hi hj, fun hmn => Nat.lt_of_not_le fun hji => ?_⟩
  rcases Nat.lt_or_eq_of_le hji with hji | rfl
  · exact Nat.lt_asymm hmn (hlt hj hi hji)
  · exact Nat.lt_irrefl _ hmn

/-- What the loop keeps of ascending numbers is strictly ascending. -/
theorem eraseReps_loop {n : Nat} {ns : List Nat} (h : (n :: ns).Pairwise (· ≤ ·))
    (acc : List Nat) :
    ∃ kept, List.eraseRepsBy.loop (· == ·) n ns acc = acc.reverse ++ kept ∧
      kept.Pairwise (· < ·) ∧ ∀ m, m ∈ kept ↔ m ∈ n :: ns := by
  induction ns generalizing n acc with
  | nil => exact ⟨[n], by simp [List.eraseRepsBy.loop], by simp, fun m => Iff.rfl⟩
  | cons next ns ih =>
    obtain ⟨hle, htail⟩ := List.pairwise_cons.1 h
    by_cases heq : n = next
    · subst heq
      obtain ⟨kept, hkept, hascending, hmem⟩ := ih htail acc
      refine ⟨kept, by simpa [List.eraseRepsBy.loop] using hkept, hascending, fun m => ?_⟩
      simp [hmem]
    · have hne : (n == next) = false := by simpa using heq
      obtain ⟨kept, hkept, hascending, hmem⟩ := ih htail (n :: acc)
      refine ⟨n :: kept, by simpa [List.eraseRepsBy.loop, hne] using hkept, ?_, fun m => ?_⟩
      · refine List.pairwise_cons.2 ⟨fun m hm => ?_, hascending⟩
        have hnext := hle next List.mem_cons_self
        have hlater : next ≤ m := by
          rcases List.mem_cons.1 ((hmem m).1 hm) with rfl | hm
          · exact Nat.le_refl _
          · exact (List.pairwise_cons.1 htail).1 m hm
        omega
      · rw [List.mem_cons, List.mem_cons (l := next :: ns), hmem]

/-- Without repetitions, numbers in ascending order are in strictly ascending order. -/
theorem ascending_eraseReps {ns : List Nat} (h : ns.Pairwise (· ≤ ·)) :
    ns.eraseReps.Pairwise (· < ·) ∧ ∀ m, m ∈ ns.eraseReps ↔ m ∈ ns := by
  cases ns with
  | nil => exact ⟨.nil, fun m => Iff.rfl⟩
  | cons n ns =>
    obtain ⟨kept, hkept, hascending, hmem⟩ := eraseReps_loop h []
    have heq : (n :: ns).eraseReps = kept := hkept
    rw [heq]
    exact ⟨hascending, hmem⟩

theorem ascending_sort (ns : List Nat) :
    (ns.mergeSort Nat.ble).eraseReps.Pairwise (· < ·) ∧
      ∀ m, m ∈ (ns.mergeSort Nat.ble).eraseReps ↔ m ∈ ns := by
  have hsorted : (ns.mergeSort Nat.ble).Pairwise (· ≤ ·) := by
    have h : (ns.mergeSort Nat.ble).Pairwise fun a b => Nat.ble a b = true :=
      List.pairwise_mergeSort
        (fun a b c hab hbc => by rw [Nat.ble_eq] at *; exact Nat.le_trans hab hbc)
        (fun a b => by simpa using Nat.le_total a b) ns
    exact h.imp fun hle => Nat.ble_eq.mp hle
  obtain ⟨hascending, hmem⟩ := ascending_eraseReps hsorted
  exact ⟨hascending, fun m => (hmem m).trans List.mem_mergeSort⟩

/-! ## Rules that move -/

namespace Renumbering

/-- The slots with a rule, out of those that have been met. -/
def existing (rules : List Rule) (met : List Nat) : List Nat :=
  met.filter fun n => decide (n < rules.length)

/-- The rules of the slots that have been met have moved, in their order. -/
structure Moved (rules : List Rule) (met : List Nat) (r : Renumbering) : Prop where
  waiting : ∀ n, r.waiting[n]?.join = if n ∈ met then none else rules[n]?
  rules_eq : r.rules.map some = (existing rules met).map fun n => rules[n]?
  newSlots : ∀ n i : Nat, r.newSlots[n]? = some i ↔ (existing rules met)[i]? = some n

theorem moved_start (rules : List Rule) : Moved rules [] (start rules) where
  waiting n := by
    cases h : rules[n]? <;> simp [start, h]
  rules_eq := rfl
  newSlots n i := by simp [start, existing]

/-- A new number at the end has the last place, and the others keep theirs. -/
theorem getElem?_concat_eq_some_iff {ns : List Nat} {last : Nat} (hnew : last ∉ ns) (n i : Nat) :
    (ns ++ [last])[i]? = some n ↔ if last = n then i = ns.length else ns[i]? = some n := by
  by_cases hlast : last = n
  · subst hlast
    rw [if_pos rfl]
    constructor
    · intro hi
      obtain ⟨hlt, hget⟩ := List.getElem?_eq_some_iff.1 hi
      have hend : ¬ i < ns.length := fun hin => by
        rw [List.getElem_append_left hin] at hget
        exact hnew (hget ▸ List.getElem_mem hin)
      rw [List.length_append, List.length_singleton] at hlt
      omega
    · rintro rfl
      simp
  · rw [if_neg hlast]
    rcases Nat.lt_or_ge i ns.length with hin | hend
    · rw [List.getElem?_append_left hin]
    · rw [List.getElem?_append_right hend, List.getElem?_eq_none hend]
      cases hi : i - ns.length <;> simp [hlast]

/-- The rule of a slot that is met for the first time moves, if the slot exists. -/
theorem Moved.move {rules : List Rule} {met : List Nat} {r : Renumbering} {n : Nat}
    (h : Moved rules met r) (hnew : n ∉ met) : Moved rules (met ++ [n]) (r.move n) := by
  have hwaiting := h.waiting n
  rw [if_neg hnew] at hwaiting
  cases hrule : rules[n]? with
  | none =>
    have hmissing : existing rules (met ++ [n]) = existing rules met := by
      simpa [existing] using List.getElem?_eq_none_iff.1 hrule
    have hstays : r.move n = r := by
      unfold Renumbering.move
      rw [hwaiting, hrule]
    rw [hstays]
    refine ⟨fun m => ?_, by rw [hmissing, h.rules_eq], by rw [hmissing]; exact h.newSlots⟩
    rw [h.waiting]
    by_cases hm : m = n
    · simp [hm, hrule]
    · simp [hm]
  | some rule =>
    obtain ⟨hlt, -⟩ := List.getElem?_eq_some_iff.1 hrule
    have hexists : existing rules (met ++ [n]) = existing rules met ++ [n] := by
      simp [existing, hlt]
    have hmoves : r.move n =
        ⟨r.waiting.set n none, r.rules ++ [rule], r.newSlots.insert n r.rules.length⟩ := by
      unfold Renumbering.move
      rw [hwaiting, hrule]
    have hlength : r.rules.length = (existing rules met).length := by
      simpa using congrArg List.length h.rules_eq
    have hfresh : n ∉ existing rules met := fun hmem => hnew (List.mem_of_mem_filter hmem)
    rw [hmoves]
    refine ⟨fun m => ?_, ?_, fun m i => ?_⟩
    · by_cases hm : m = n
      · subst hm
        rw [List.getElem?_set_self', if_pos (by simp)]
        cases r.waiting[m]? <;> rfl
      · rw [List.getElem?_set_ne (Ne.symm hm), h.waiting]
        simp [hm]
    · rw [hexists, List.map_append, List.map_append, h.rules_eq, List.map_singleton,
        List.map_singleton, hrule]
    · rw [hexists, getElem?_concat_eq_some_iff hfresh, Std.ExtTreeMap.getElem?_insert, hlength]
      by_cases hm : n = m
      · simp [hm, eq_comm]
      · simpa [hm] using h.newSlots m i

theorem moved_foldl {rules : List Rule} {met : List Nat} (hnodup : met.Nodup) :
    Moved rules met (met.foldl move (start rules)) := by
  induction met using List.reverseRecOn with
  | nil => exact moved_start rules
  | append_singleton met n ih =>
    obtain ⟨hmet, -, hnew⟩ := List.nodup_append.1 hnodup
    rw [List.foldl_concat]
    exact (ih hmet).move fun hmem => hnew n hmem n List.mem_cons_self rfl

end Renumbering

/-! ## Bindings in any order -/

section

variable {m : Std.ExtTreeMap ItemId Nat} {bindings : List (ItemId × Nat)}
  (h : bindings.Perm m.toList)
include h

theorem mem_bindings_iff (item : ItemId) (n : Nat) : (item, n) ∈ bindings ↔ m[item]? = some n := by
  rw [h.mem_iff, Std.ExtTreeMap.mem_toList_iff_getElem?_eq_some]

theorem distinct_bindings : bindings.Pairwise fun a b => ¬ compare a.1 b.1 = .eq :=
  (h.pairwise_iff fun hne heq => hne (Std.OrientedCmp.eq_comm.1 heq)).2
    Std.ExtTreeMap.distinct_keys_toList

end

theorem getElem?_ofList_eq_some_iff {bindings : List (ItemId × Nat)}
    (hdistinct : bindings.Pairwise fun a b => ¬ compare a.1 b.1 = .eq) (item : ItemId) (n : Nat) :
    (Std.ExtTreeMap.ofList bindings)[item]? = some n ↔ (item, n) ∈ bindings := by
  have hmem : ∀ m, (item, m) ∈ bindings → (Std.ExtTreeMap.ofList bindings)[item]? = some m :=
    fun m hm => Std.ExtTreeMap.getElem?_ofList_of_mem Std.ReflCmp.compare_self hdistinct hm
  refine ⟨fun h => ?_, hmem n⟩
  by_cases hthere : (bindings.map Prod.fst).contains item = true
  · obtain ⟨⟨_, m⟩, hm, rfl⟩ := List.mem_map.1 (List.contains_iff_mem.1 hthere)
    rw [hmem m hm] at h
    cases h
    exact hm
  · rw [Std.ExtTreeMap.getElem?_ofList_of_contains_eq_false (Bool.eq_false_iff.2 hthere)] at h
    cases h

namespace Draft

/-- The slots that exist and have a bound item, in ascending order. -/
def usedSlots (d : Draft) : List Nat :=
  let bound := d.slots.toList.map Prod.snd
  (List.range d.rules.length).filter fun n => bound.contains n

theorem mem_usedSlots {d : Draft} {n : Nat} :
    n ∈ d.usedSlots ↔ n < d.rules.length ∧ ∃ item : ItemId, d.slots[item]? = some n := by
  unfold usedSlots
  simp only [List.mem_filter, List.mem_range, List.contains_iff_mem, List.mem_map]
  refine and_congr_right fun _ => ⟨?_, ?_⟩
  · rintro ⟨⟨item, m⟩, hm, rfl⟩
    exact ⟨item, Std.ExtTreeMap.mem_toList_iff_getElem?_eq_some.1 hm⟩
  · rintro ⟨item, hn⟩
    exact ⟨(item, n), Std.ExtTreeMap.mem_toList_iff_getElem?_eq_some.2 hn, rfl⟩

theorem ascending_usedSlots (d : Draft) : d.usedSlots.Pairwise (· < ·) :=
  List.pairwise_lt_range.filter _

section

variable {d : Draft} {bindings : List (ItemId × Nat)} (h : bindings.Perm d.slots.toList)
include h

theorem moved_renumber :
    ∃ met, Renumbering.existing d.rules met = d.usedSlots ∧
      Renumbering.Moved d.rules met (d.renumber bindings) := by
  obtain ⟨hascending, hmem⟩ := ascending_sort (bindings.map Prod.snd)
  refine ⟨_, ?_, Renumbering.moved_foldl (hascending.imp Nat.ne_of_lt)⟩
  refine (hascending.filter _).eq_of_mem_iff d.ascending_usedSlots fun n => ?_
  rw [List.mem_filter, hmem, mem_usedSlots, decide_eq_true_eq, and_comm]
  refine and_congr_right fun _ => ?_
  constructor
  · intro hn
    obtain ⟨⟨item, _⟩, hitem, rfl⟩ := List.mem_map.1 hn
    exact ⟨item, (mem_bindings_iff h item _).1 hitem⟩
  · rintro ⟨item, hn⟩
    exact List.mem_map.2 ⟨(item, n), (mem_bindings_iff h item n).2 hn, rfl⟩

theorem isEmpty_bindings : bindings.isEmpty = true ↔ ∀ item : ItemId, d.slots[item]? = none := by
  rw [List.isEmpty_iff, List.eq_nil_iff_forall_not_mem]
  constructor
  · intro hnone item
    rw [Option.eq_none_iff_forall_ne_some]
    intro n hn
    exact hnone (item, n) ((mem_bindings_iff h item n).2 hn)
  · rintro hnone ⟨item, n⟩ hmem
    rw [mem_bindings_iff h, hnone item] at hmem
    cases hmem

theorem buildFrom?_eq_none_iff :
    d.buildFrom? bindings = none ↔ ∀ item : ItemId, d.slots[item]? = none := by
  rw [← isEmpty_bindings h]
  unfold buildFrom?
  split <;> simp_all

/-- The rules of the used slots are kept in their order. A bound slot gets its place among the used
slots as its new number. -/
theorem buildFrom?_eq_some {s : Ruleset} (hs : d.buildFrom? bindings = some s) :
    s.rules.map some = d.usedSlots.map (fun n => d.rules[n]?) ∧
      ∀ item i, s.slot? item = some i ↔
        ∃ n, d.slots[item]? = some n ∧ d.usedSlots[i]? = some n := by
  obtain ⟨met, hused, hmoved⟩ := moved_renumber h
  unfold buildFrom? at hs
  split at hs
  · cases hs
  · cases hs
    refine ⟨by rw [hmoved.rules_eq, hused], fun item i => ?_⟩
    have hkept : (bindings.filterMap fun b => (d.renumber bindings).newSlots[b.2]?.map fun n =>
        (b.1, n)).Pairwise fun a b => ¬ compare a.1 b.1 = .eq := by
      refine (distinct_bindings h).filterMap _ ?_
      intro a b hne a' ha' b' hb'
      obtain ⟨_, -, rfl⟩ := Option.map_eq_some_iff.1 ha'
      obtain ⟨_, -, rfl⟩ := Option.map_eq_some_iff.1 hb'
      exact hne
    unfold Ruleset.slot?
    rw [getElem?_ofList_eq_some_iff hkept, List.mem_filterMap]
    constructor
    · rintro ⟨⟨_, n⟩, hmem, hnew⟩
      obtain ⟨_, hi, heq⟩ := Option.map_eq_some_iff.1 hnew
      cases heq
      rw [hmoved.newSlots, hused] at hi
      exact ⟨n, (mem_bindings_iff h _ n).1 hmem, hi⟩
    · rintro ⟨n, hn, hi⟩
      refine ⟨(item, n), (mem_bindings_iff h item n).2 hn, ?_⟩
      rw [← hused, ← hmoved.newSlots] at hi
      rw [hi]
      rfl

/-- The order in which the bindings are met plays no part. -/
theorem buildFrom?_eq : d.buildFrom? bindings = d.build? := by
  unfold build?
  have hself := List.Perm.refl d.slots.toList
  cases hs : d.buildFrom? bindings with
  | none => exact ((buildFrom?_eq_none_iff hself).2 ((buildFrom?_eq_none_iff h).1 hs)).symm
  | some s =>
    cases ht : d.buildFrom? d.slots.toList with
    | none =>
      rw [(buildFrom?_eq_none_iff h).2 ((buildFrom?_eq_none_iff hself).1 ht)] at hs
      cases hs
    | some t =>
      obtain ⟨hrules, hslots⟩ := buildFrom?_eq_some h hs
      obtain ⟨hrules', hslots'⟩ := buildFrom?_eq_some hself ht
      refine congrArg some (Ruleset.ext_slots ?_ fun item => Option.ext fun i => ?_)
      · exact List.map_injective_iff.2 (Option.some_injective _) (hrules.trans hrules'.symm)
      · exact (hslots item i).trans (hslots' item i).symm

end

end Draft

end ItemGuard
