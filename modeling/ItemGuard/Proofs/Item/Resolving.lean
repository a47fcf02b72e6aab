import ItemGuard.Item.Registry
import ItemGuard.Proofs.Text.Trimming
import Mathlib.Data.List.Induction
import Mathlib.Data.Nat.Digits.Defs

/-!
# What tokens name

`IsNumeral` says which texts are numerals of a number. A token that is a numeral of an id names it,
whatever the registry; all other tokens are up to the registry (`resolve_eq_some_iff`).
-/

namespace ItemGuard

open Text (decimal digitValue digitsValue dropPlus trim unsigned?)

/-- The text consists of one or more decimal digits, with or without a plus sign before them, and
has the number as its value. -/
def IsNumeral (text : List Char) (n : Nat) : Prop :=
  ∃ digits, (text = digits ∨ text = '+' :: digits) ∧ digits ≠ [] ∧
    (∀ c ∈ digits, '0' ≤ c ∧ c ≤ '9') ∧
    Nat.ofDigits 10 (digits.reverse.map fun c => c.toNat - '0'.toNat) = n

theorem isDigit_iff {c : Char} : c.isDigit = true ↔ '0' ≤ c ∧ c ≤ '9' := by
  simp [Char.isDigit, Char.le_def]

theorem digitsValue_eq_ofDigits (digits : List Char) :
    digitsValue digits = Nat.ofDigits 10 (digits.reverse.map digitValue) := by
  induction digits using List.reverseRecOn with
  | nil => rfl
  | append_singleton digits c ih =>
    rw [List.reverse_concat, List.map_cons, Nat.ofDigits_cons, ← ih, Text.digitsValue_append,
      List.foldl_cons, List.foldl_nil, Nat.add_comm]

theorem dropPlus_of_isDigit {digits : List Char} (h : ∀ c ∈ digits, c.isDigit = true) :
    dropPlus digits = digits := by
  cases digits with
  | nil => rfl
  | cons c cs =>
    have hc : c ≠ '+' := by
      rintro rfl
      exact absurd (h '+' List.mem_cons_self) (by decide)
    simp [dropPlus, hc]

theorem eq_or_eq_dropPlus (text : List Char) :
    text = dropPlus text ∨ text = '+' :: dropPlus text := by
  unfold dropPlus
  split
  · exact .inr rfl
  · exact .inl rfl

theorem unsigned?_eq_some_iff {bound n : Nat} {text : List Char} :
    unsigned? bound text = some n ↔ n < bound ∧ IsNumeral text n := by
  unfold unsigned? Text.isNumeral
  dsimp only
  constructor
  · intro h
    split at h
    next hcond =>
      cases h
      simp only [Bool.and_eq_true, Bool.not_eq_true', List.isEmpty_eq_false_iff,
        List.all_eq_true, decide_eq_true_eq] at hcond
      obtain ⟨⟨hne, hdigits⟩, hlt⟩ := hcond
      exact ⟨hlt, dropPlus text, eq_or_eq_dropPlus text, hne,
        fun c hc => isDigit_iff.1 (hdigits c hc), (digitsValue_eq_ofDigits _).symm⟩
    next => cases h
  · rintro ⟨hlt, digits, htext, hne, hdigits, rfl⟩
    have hall : ∀ c ∈ digits, c.isDigit = true := fun c hc => isDigit_iff.2 (hdigits c hc)
    have hdrop : dropPlus text = digits := by
      rcases htext with rfl | rfl
      · exact dropPlus_of_isDigit hall
      · rfl
    have hvalue : digitsValue digits =
        Nat.ofDigits 10 (digits.reverse.map fun c => c.toNat - '0'.toNat) :=
      digitsValue_eq_ofDigits digits
    rw [hdrop, hvalue, if_pos]
    simp only [Bool.and_eq_true, Bool.not_eq_true', List.isEmpty_eq_false_iff, List.all_eq_true,
      decide_eq_true_eq]
    exact ⟨⟨hne, hall⟩, hlt⟩

namespace Registry

/-- A numeral of an id names the id, and any other token what the registry answers, unless that is
no item. -/
theorem resolve_eq_some_iff {registry : Registry} {token : String} {item : ItemId} :
    registry.resolve token = some item ↔
      IsNumeral (trim token.toList) item.toNat ∨
        ((∀ n < ItemId.bound, ¬ IsNumeral (trim token.toList) n) ∧
          registry (String.ofList (trim token.toList)) = some item ∧ item.toNat ≠ 0) := by
  have hzero : item.isNone = false ↔ item.toNat ≠ 0 := by
    unfold ItemId.isNone ItemId.toNat
    rw [beq_eq_false_iff_ne, ← UInt32.toNat_inj.ne]
    rfl
  unfold resolve resolveTrimmed
  generalize trim token.toList = text
  cases hread : unsigned? ItemId.bound text with
  | some n =>
    obtain ⟨hlt, hn⟩ := unsigned?_eq_some_iff.1 hread
    dsimp only
    constructor
    · intro h
      cases h
      rw [ItemId.toNat_ofNat hlt]
      exact .inl hn
    · rintro (hitem | ⟨hno, -⟩)
      · have hsame := unsigned?_eq_some_iff.2 ⟨item.toNat_lt_bound, hitem⟩
        rw [hread] at hsame
        rw [Option.some.inj hsame, ItemId.ofNat_toNat]
      · exact absurd hn (hno n hlt)
  | none =>
    have hno : ∀ n < ItemId.bound, ¬ IsNumeral text n := by
      intro n hlt hn
      rw [unsigned?_eq_some_iff.2 ⟨hlt, hn⟩] at hread
      cases hread
    dsimp only
    rw [Option.filter_eq_some_iff, Bool.not_eq_true', hzero]
    constructor
    · exact fun h => .inr ⟨hno, h⟩
    · rintro (hitem | ⟨-, h⟩)
      · exact absurd hitem (hno _ item.toNat_lt_bound)
      · exact h

/-- Every id is named by its own text. -/
theorem resolve_text (registry : Registry) (item : ItemId) :
    registry.resolve item.text = some item := by
  unfold resolve resolveTrimmed ItemId.text
  rw [String.toList_ofList, Text.trim_decimal, Text.unsigned?_decimal item.toNat_lt_bound]
  exact congrArg some item.ofNat_toNat

end Registry
end ItemGuard
