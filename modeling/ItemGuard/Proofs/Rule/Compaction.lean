import ItemGuard.Proofs.Rule.Renumbering

/-!
# What finishing a draft keeps

`Draft.build?` drops the slots that no item is bound to and numbers the others anew. No item notices
it: an item has in the ruleset the rule that it has in the draft (`rule?_of_build?`), it has a slot
there exactly if its slot exists in the draft (`contains_of_build?`), and two items that share a slot
go on sharing one (`shares_of_build?`). The slots stay in their order (`lt_iff_of_build?`). All this
holds in whatever order the bindings of the draft are met (`buildFrom?_keeps`).
-/

namespace ItemGuard

/-- Two items are in the same slot. -/
def Ruleset.Shares (s : Ruleset) (x y : ItemId) : Prop :=
  ∃ n, s.slot? x = some n ∧ s.slot? y = some n

theorem Ruleset.contains_eq (s : Ruleset) (item : ItemId) :
    s.contains item = (s.slot? item).isSome := by
  rw [contains, slot?, Bool.eq_iff_iff, Std.ExtTreeMap.contains_iff_mem,
    Std.ExtTreeMap.mem_iff_isSome_getElem?]

theorem Ruleset.size_eq_zero_iff (s : Ruleset) :
    s.size = 0 ↔ ∀ item, s.contains item = false := by
  simp only [size, contains, ← Std.ExtTreeMap.eq_empty_iff_size_eq_zero]
  constructor
  · intro h item
    simp [h]
  · intro h
    ext item n
    simp [Std.ExtTreeMap.getElem?_eq_none_of_contains_eq_false (h item)]

namespace Draft

/-- The rule in the slot of an item, if that slot exists. -/
def rule? (d : Draft) (item : ItemId) : Option Rule :=
  d.slots[item]?.bind fun n => d.rules[n]?

theorem build?_eq_none_iff {d : Draft} :
    d.build? = none ↔ ∀ item : ItemId, d.slots[item]? = none :=
  buildFrom?_eq_none_iff (.refl _)

variable {d : Draft} {s : Ruleset}

/-! ## Slots -/

/-- A bound slot gets its place among the used slots as its new number. -/
theorem slot?_of_build? (h : d.build? = some s) {item : ItemId} {i : Nat} :
    s.slot? item = some i ↔ ∃ n, d.slots[item]? = some n ∧ d.usedSlots[i]? = some n :=
  (buildFrom?_eq_some (.refl _) h).2 item i

/-- A used slot has its rule at its place among the used slots. -/
theorem getElem?_rules_of_build? (h : d.build? = some s) {n i : Nat}
    (hn : d.usedSlots[i]? = some n) : s.rules[i]? = d.rules[n]? := by
  have hrules := congrArg (·[i]?) (buildFrom?_eq_some (.refl _) h).1
  simp only [List.getElem?_map, hn, Option.map_some] at hrules
  cases hr : s.rules[i]? with
  | none => simp [hr] at hrules
  | some r => simpa [hr] using hrules

theorem ruleCount_of_build? (h : d.build? = some s) : s.ruleCount = d.usedSlots.length := by
  have hrules := congrArg List.length (buildFrom?_eq_some (.refl _) h).1
  rwa [List.length_map, List.length_map] at hrules

/-- An item whose slot exists goes on to have a slot. -/
theorem exists_slot_of_build? (h : d.build? = some s) {item : ItemId} {n : Nat}
    (hn : d.slots[item]? = some n) (hlt : n < d.rules.length) :
    ∃ i, s.slot? item = some i ∧ d.usedSlots[i]? = some n := by
  obtain ⟨i, hi⟩ := List.mem_iff_getElem?.1 (mem_usedSlots.2 ⟨hlt, item, hn⟩)
  exact ⟨i, (slot?_of_build? h).2 ⟨n, hn, hi⟩, hi⟩

theorem slot?_eq_none_of_build? (h : d.build? = some s) {item : ItemId}
    (hmissing : ∀ n, d.slots[item]? = some n → d.rules.length ≤ n) : s.slot? item = none := by
  rw [Option.eq_none_iff_forall_ne_some]
  intro i hi
  obtain ⟨n, hn, hused⟩ := (slot?_of_build? h).1 hi
  have hlt := (mem_usedSlots.1 (List.mem_of_getElem? hused)).1
  exact absurd hlt (Nat.not_lt.2 (hmissing n hn))

/-! ## Items -/

theorem rule?_of_build? (h : d.build? = some s) (item : ItemId) : s.rule? item = d.rule? item := by
  unfold Ruleset.rule? rule?
  by_cases hthere : ∃ n < d.rules.length, d.slots[item]? = some n
  · obtain ⟨n, hlt, hn⟩ := hthere
    obtain ⟨i, hi, hused⟩ := exists_slot_of_build? h hn hlt
    rw [hi, hn, Option.bind_some, Option.bind_some, getElem?_rules_of_build? h hused]
  · have hmissing : ∀ n, d.slots[item]? = some n → d.rules.length ≤ n :=
      fun n hn => Nat.not_lt.1 fun hlt => hthere ⟨n, hlt, hn⟩
    rw [slot?_eq_none_of_build? h hmissing]
    cases hn : d.slots[item]? with
    | none => rfl
    | some n => simp [hmissing n hn]

theorem contains_iff_of_build? (h : d.build? = some s) (item : ItemId) :
    s.contains item = true ↔ ∃ n < d.rules.length, d.slots[item]? = some n := by
  rw [Ruleset.contains_eq, Option.isSome_iff_exists]
  constructor
  · rintro ⟨i, hi⟩
    obtain ⟨n, hn, hused⟩ := (slot?_of_build? h).1 hi
    exact ⟨n, (mem_usedSlots.1 (List.mem_of_getElem? hused)).1, hn⟩
  · rintro ⟨n, hlt, hn⟩
    obtain ⟨i, hi, -⟩ := exists_slot_of_build? h hn hlt
    exact ⟨i, hi⟩

/-- The items of the ruleset are those whose slot exists. -/
theorem contains_of_build? (h : d.build? = some s) (item : ItemId) :
    s.contains item = (d.rule? item).isSome := by
  rw [Bool.eq_iff_iff, contains_iff_of_build? h, rule?]
  cases d.slots[item]? <;> simp

/-- Two items are in the same slot if they are bound to the same slot and it exists. -/
theorem shares_of_build? (h : d.build? = some s) {x y : ItemId} :
    s.Shares x y ↔ ∃ n < d.rules.length, d.slots[x]? = some n ∧ d.slots[y]? = some n := by
  constructor
  · rintro ⟨i, hx, hy⟩
    obtain ⟨n, hx, hn⟩ := (slot?_of_build? h).1 hx
    obtain ⟨m, hy, hm⟩ := (slot?_of_build? h).1 hy
    obtain rfl : n = m := Option.some.inj (hn.symm.trans hm)
    exact ⟨n, (mem_usedSlots.1 (List.mem_of_getElem? hn)).1, hx, hy⟩
  · rintro ⟨n, hlt, hx, hy⟩
    obtain ⟨i, hi, hused⟩ := exists_slot_of_build? h hx hlt
    exact ⟨i, hi, (slot?_of_build? h).2 ⟨n, hy, hused⟩⟩

/-- The slots stay in their order. -/
theorem lt_iff_of_build? (h : d.build? = some s) {x y : ItemId} {i j m n : Nat}
    (hi : s.slot? x = some i) (hj : s.slot? y = some j) (hm : d.slots[x]? = some m)
    (hn : d.slots[y]? = some n) : i < j ↔ m < n := by
  obtain ⟨m', hm', hi⟩ := (slot?_of_build? h).1 hi
  obtain ⟨n', hn', hj⟩ := (slot?_of_build? h).1 hj
  obtain rfl : m = m' := Option.some.inj (hm.symm.trans hm')
  obtain rfl : n = n' := Option.some.inj (hn.symm.trans hn')
  exact lt_iff_of_ascending d.ascending_usedSlots hi hj

theorem slot_lt_of_build? (h : d.build? = some s) {item : ItemId} {i : Nat}
    (hi : s.slot? item = some i) : i < s.ruleCount := by
  obtain ⟨n, -, hused⟩ := (slot?_of_build? h).1 hi
  rw [ruleCount_of_build? h]
  exact (List.getElem?_eq_some_iff.1 hused).1

/-- No slot is without an item. -/
theorem exists_item_of_build? (h : d.build? = some s) {i : Nat} (hi : i < s.ruleCount) :
    ∃ item, s.slot? item = some i := by
  rw [ruleCount_of_build? h] at hi
  obtain ⟨-, item, hitem⟩ := mem_usedSlots.1 (List.getElem_mem hi)
  exact ⟨item, (slot?_of_build? h).2 ⟨_, hitem, List.getElem?_eq_getElem hi⟩⟩

end Draft

/-! ## The whole ruleset -/

/-- The ruleset says of every item what the draft says. Slots that do not exist are passed over, and
so are those without an item; the others are numbered on in their order. -/
structure Ruleset.Keeps (s : Ruleset) (d : Draft) : Prop where
  contains_iff : ∀ item,
    s.contains item = true ↔ ∃ n < d.rules.length, d.slots[item]? = some n
  rule?_eq : ∀ item n, d.slots[item]? = some n → s.rule? item = d.rules[n]?
  slot?_eq_iff : ∀ x y, s.contains x = true → s.contains y = true →
    (s.slot? x = s.slot? y ↔ d.slots[x]? = d.slots[y]?)
  lt_iff : ∀ x y i j m n, s.slot? x = some i → s.slot? y = some j → d.slots[x]? = some m →
    d.slots[y]? = some n → (i < j ↔ m < n)
  /-- There are as many rules as there are different slots that exist and have an item. -/
  ruleCount_eq : ∃ used : List Nat, used.Nodup ∧
    (∀ n, n ∈ used ↔ n < d.rules.length ∧ ∃ item : ItemId, d.slots[item]? = some n) ∧
    s.ruleCount = used.length
  slot_lt : ∀ item i, s.slot? item = some i → i < s.ruleCount
  size_eq_zero_iff : s.size = 0 ↔
    ∀ (item : ItemId) n, d.slots[item]? = some n → d.rules.length ≤ n

theorem Draft.keeps_of_build? {d : Draft} {s : Ruleset} (h : d.build? = some s) : s.Keeps d where
  contains_iff := contains_iff_of_build? h
  rule?_eq item n hn := by
    rw [rule?_of_build? h, rule?, hn, Option.bind_some]
  slot?_eq_iff x y hx hy := by
    obtain ⟨m, hm, hx⟩ := (contains_iff_of_build? h x).1 hx
    obtain ⟨n, hn, hy⟩ := (contains_iff_of_build? h y).1 hy
    obtain ⟨i, hi, hused⟩ := exists_slot_of_build? h hx hm
    obtain ⟨j, hj, hused'⟩ := exists_slot_of_build? h hy hn
    have hlt := lt_iff_of_build? h hi hj hx hy
    have hgt := lt_iff_of_build? h hj hi hy hx
    rw [hi, hj, hx, hy, Option.some_inj, Option.some_inj]
    omega
  lt_iff x y i j m n := lt_iff_of_build? h
  ruleCount_eq := ⟨d.usedSlots, d.ascending_usedSlots.imp Nat.ne_of_lt, fun n => mem_usedSlots,
    ruleCount_of_build? h⟩
  slot_lt item i := slot_lt_of_build? h
  size_eq_zero_iff := by
    rw [Ruleset.size_eq_zero_iff]
    refine forall_congr' fun item => ?_
    rw [← Bool.not_eq_true, contains_iff_of_build? h item]
    constructor
    · intro hmissing n hn
      exact Nat.not_lt.1 fun hlt => hmissing ⟨n, hlt, hn⟩
    · rintro hmissing ⟨n, hlt, hn⟩
      exact absurd hlt (Nat.not_lt.2 (hmissing n hn))

/-- **Finishing a draft.** Whatever was added to a draft, bound and edited, and in whatever order its
bindings are met: there is no ruleset exactly if no item is bound. Otherwise there is one and the
same ruleset, which keeps what the draft says. -/
theorem Draft.buildFrom?_keeps (d : Draft) (bindings : List (ItemId × Nat))
    (h : bindings.Perm d.slots.toList) :
    (d.buildFrom? bindings = none ↔ ∀ item : ItemId, d.slots[item]? = none) ∧
      d.buildFrom? bindings = d.build? ∧
      ∀ s, d.buildFrom? bindings = some s → s.Keeps d := by
  refine ⟨buildFrom?_eq_none_iff h, buildFrom?_eq h, fun s hs => keeps_of_build? ?_⟩
  rw [← buildFrom?_eq h, hs]

/-- One item is bound to a slot that does not exist, another has left its first slot, and the
bindings are met backwards. -/
theorem Draft.buildFrom?_keeps_dangling :
    let d := (((empty.add.add.bind (.ofNat 5) 0).bind (.ofNat 5) 1).bind (.ofNat 7) 9).edit 1
      fun rule => rule.restrict .destroy []
    d.slots.toList.reverse.Perm d.slots.toList ∧
      ∃ s, d.buildFrom? d.slots.toList.reverse = some s ∧ s.Keeps d := by
  intro d
  have hperm : d.slots.toList.reverse.Perm d.slots.toList := List.reverse_perm _
  obtain ⟨hnone, -, hkeeps⟩ := buildFrom?_keeps d d.slots.toList.reverse hperm
  refine ⟨hperm, ?_⟩
  cases hs : d.buildFrom? d.slots.toList.reverse with
  | none => exact absurd (hnone.1 hs (.ofNat 5)) (by simp [d, bind, edit, empty, add])
  | some s => exact ⟨s, rfl, hkeeps s hs⟩

end ItemGuard
