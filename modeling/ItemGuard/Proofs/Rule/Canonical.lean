import ItemGuard.Proofs.Rule.Compaction

/-!
# Well-formed rulesets

A ruleset is canonical for the lines that own its items if its slots are numbered without a gap in the
order of those lines, one slot for each of them (`Ruleset.Canonical`). A draft whose slots follow the
order of their lines makes such a ruleset, although slots may have lost their items
(`canonical_of_build?`).
-/

namespace ItemGuard

namespace Ruleset

/-! ## Aliases -/

section

variable {s : Ruleset} {bindings : List (ItemId × Nat)} (h : bindings.Perm s.slots.toList)
include h

theorem mem_aliasesFrom (item x : ItemId) : x ∈ s.aliasesFrom bindings item ↔ s.Shares item x := by
  unfold aliasesFrom Shares
  cases hn : s.slot? item with
  | none => simp
  | some n =>
    simp only [List.mem_mergeSort, List.mem_map, List.mem_filter, beq_iff_eq, Option.some.injEq,
      exists_eq_left']
    constructor
    · rintro ⟨⟨_, _⟩, ⟨hmem, rfl⟩, rfl⟩
      exact (mem_bindings_iff h _ _).1 hmem
    · intro hx
      exact ⟨(x, n), ⟨(mem_bindings_iff h x n).2 hx, rfl⟩, rfl⟩

/-- The aliases come in ascending order, each of them once. -/
theorem ascending_aliasesFrom (item : ItemId) :
    (s.aliasesFrom bindings item).Pairwise fun x y => x.val < y.val := by
  unfold aliasesFrom
  cases s.slot? item with
  | none => exact .nil
  | some n =>
    have hsorted : (((bindings.filter fun b => b.2 == n).map Prod.fst).mergeSort
        ItemId.isAtMost).Pairwise fun x y => x.isAtMost y = true :=
      List.pairwise_mergeSort
        (fun x y z => by simpa only [ItemId.isAtMost_iff] using UInt32.le_trans)
        (fun x y => by
          simpa only [Bool.or_eq_true, ItemId.isAtMost_iff] using UInt32.le_total x.val y.val) _
    have hnodup : (((bindings.filter fun b => b.2 == n).map Prod.fst).mergeSort
        ItemId.isAtMost).Nodup := by
      refine (List.mergeSort_perm _ _).nodup_iff.2 ?_
      refine List.pairwise_map.2 (((distinct_bindings h).filter _).imp ?_)
      intro a b hne heq
      exact hne (by rw [heq]; exact Std.ReflCmp.compare_self)
    refine (hsorted.and hnodup).imp fun {x y} hxy => ?_
    refine UInt32.lt_of_le_of_ne (ItemId.isAtMost_iff.1 hxy.1) fun heq => hxy.2 ?_
    cases x
    cases y
    exact congrArg ItemId.mk heq

end

/-! ## Numbering -/

/-- The slots are numbered without a gap in the order of the lines that own their items, one slot for
each line. In whatever order the items are met, the aliases of an item are those in its slot. -/
structure Canonical (owns : Nat → ItemId → Prop) (s : Ruleset) : Prop where
  size_pos : 0 < s.size
  slot_lt : ∀ item n, s.slot? item = some n → n < s.ruleCount
  exists_item : ∀ n < s.ruleCount, ∃ item, s.slot? item = some n
  contains_iff : ∀ item, s.contains item = true ↔ ∃ k, owns k item
  lt_iff : ∀ x y m n j k, s.slot? x = some m → s.slot? y = some n → owns j x → owns k y →
    (m < n ↔ j < k)
  slot?_eq_iff : ∀ x y j k, owns j x → owns k y → (s.slot? x = s.slot? y ↔ j = k)
  mem_aliases_iff : ∀ bindings, bindings.Perm s.slots.toList → ∀ item, s.contains item = true →
    ∀ x, x ∈ s.aliasesFrom bindings item ↔ s.slot? x = s.slot? item
  mem_aliases_self : ∀ bindings, bindings.Perm s.slots.toList → ∀ item, s.contains item = true →
    item ∈ s.aliasesFrom bindings item
  ascending_aliases : ∀ bindings, bindings.Perm s.slots.toList → ∀ item,
    (s.aliasesFrom bindings item).Pairwise fun x y => x.val < y.val
  aliases_eq_nil : ∀ bindings item, s.contains item = false → s.aliasesFrom bindings item = []

end Ruleset

namespace Draft

/-- The slots follow the lines that own their items: `owners` are the lines of the slots. -/
structure Numbered (owns : Nat → ItemId → Prop) (owners : List Nat) (d : Draft) : Prop where
  ascending : owners.Pairwise (· < ·)
  length_eq : owners.length = d.rules.length
  closed : ∀ (item : ItemId) (n : Nat), d.slots[item]? = some n → n < d.rules.length
  owns_iff : ∀ item k, owns k item ↔ ∃ n, d.slots[item]? = some n ∧ owners[n]? = some k

variable {owns : Nat → ItemId → Prop} {owners : List Nat} {d : Draft} {s : Ruleset}

namespace Numbered

theorem exists_owner (h : d.Numbered owns owners) {item : ItemId} {n : Nat}
    (hn : d.slots[item]? = some n) : ∃ k, owners[n]? = some k ∧ owns k item := by
  have hlt : n < owners.length := Nat.lt_of_lt_of_eq (h.closed item n hn) h.length_eq.symm
  have hk : owners[n]? = some owners[n] := List.getElem?_eq_getElem hlt
  exact ⟨_, hk, (h.owns_iff item _).2 ⟨n, hn, hk⟩⟩

theorem contains_iff (h : d.Numbered owns owners) (hb : d.build? = some s) (item : ItemId) :
    s.contains item = true ↔ ∃ k, owns k item := by
  rw [contains_iff_of_build? hb]
  constructor
  · rintro ⟨n, -, hn⟩
    obtain ⟨k, -, hk⟩ := h.exists_owner hn
    exact ⟨k, hk⟩
  · rintro ⟨k, hk⟩
    obtain ⟨n, hn, -⟩ := (h.owns_iff item k).1 hk
    exact ⟨n, h.closed item n hn, hn⟩

theorem lt_iff (h : d.Numbered owns owners) (hb : d.build? = some s) {x y : ItemId} {m n j k : Nat}
    (hm : s.slot? x = some m) (hn : s.slot? y = some n) (hj : owns j x) (hk : owns k y) :
    m < n ↔ j < k := by
  obtain ⟨m', hm', hj⟩ := (h.owns_iff x j).1 hj
  obtain ⟨n', hn', hk⟩ := (h.owns_iff y k).1 hk
  rw [lt_iff_of_build? hb hm hn hm' hn', lt_iff_of_ascending h.ascending hj hk]

end Numbered

/-- A draft whose slots follow their lines makes a ruleset whose slots do. -/
theorem canonical_of_build? (h : d.Numbered owns owners) (hb : d.build? = some s) :
    s.Canonical owns where
  size_pos := by
    refine Nat.pos_of_ne_zero fun hzero => ?_
    have hmissing := (keeps_of_build? hb).size_eq_zero_iff.1 hzero
    have hnone : d.build? = none := build?_eq_none_iff.2 fun item => by
      rw [Option.eq_none_iff_forall_ne_some]
      intro n hn
      exact absurd (h.closed item n hn) (Nat.not_lt.2 (hmissing item n hn))
    rw [hb] at hnone
    cases hnone
  slot_lt _ _ := slot_lt_of_build? hb
  exists_item _ := exists_item_of_build? hb
  contains_iff := h.contains_iff hb
  lt_iff _ _ _ _ _ _ := h.lt_iff hb
  slot?_eq_iff x y j k hj hk := by
    obtain ⟨m, hm⟩ := Option.isSome_iff_exists.1
      ((s.contains_eq x).symm.trans ((h.contains_iff hb x).2 ⟨j, hj⟩))
    obtain ⟨n, hn⟩ := Option.isSome_iff_exists.1
      ((s.contains_eq y).symm.trans ((h.contains_iff hb y).2 ⟨k, hk⟩))
    have hlt := h.lt_iff hb hm hn hj hk
    have hgt := h.lt_iff hb hn hm hk hj
    rw [hm, hn, Option.some_inj]
    omega
  mem_aliases_iff bindings hbindings item hitem x := by
    rw [Ruleset.contains_eq, Option.isSome_iff_exists] at hitem
    obtain ⟨n, hn⟩ := hitem
    rw [Ruleset.mem_aliasesFrom hbindings]
    simp [Ruleset.Shares, hn]
  mem_aliases_self bindings hbindings item hitem := by
    rw [Ruleset.contains_eq, Option.isSome_iff_exists] at hitem
    obtain ⟨n, hn⟩ := hitem
    exact (Ruleset.mem_aliasesFrom hbindings item item).2 ⟨n, hn, hn⟩
  ascending_aliases _ hbindings := Ruleset.ascending_aliasesFrom hbindings
  aliases_eq_nil bindings item hitem := by
    rw [Ruleset.contains_eq, Option.isSome_eq_false_iff, Option.isNone_iff_eq_none] at hitem
    rw [Ruleset.aliasesFrom, hitem]

end Draft
end ItemGuard
