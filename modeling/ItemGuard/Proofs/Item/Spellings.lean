import ItemGuard.Item.Names
import ItemGuard.Proofs.Text.Trimming
import Mathlib.Data.List.Forall2

/-!
# Spellings of one name

Two names have one normal form exactly if they are spelled alike: up to the blanks around them, the
case of the letters `A` to `Z`, and which of space, hyphen and underscore stands between their words
(`normalName_eq_iff`). A normal form is its own normal form (`normalName_normalName`), because a
name is trimmed before its spaces become underscores.
-/

namespace ItemGuard

open Text (isBlank trim)

/-- What may stand between the words of a name. -/
def IsJoint (c : Char) : Prop :=
  c = ' ' ∨ c = '-' ∨ c = '_'

/-- The characters make no difference in a name. -/
def SameChar (c d : Char) : Prop :=
  c.toLower = d.toLower ∨ (IsJoint c ∧ IsJoint d)

/-- The names differ at most in the blanks around them and in characters that make no difference. -/
def SpelledAlike (name other : String) : Prop :=
  List.Forall₂ SameChar (trim name.toList) (trim other.toList)

theorem toNat_toLower (c : Char) :
    c.toLower.toNat = if 65 ≤ c.toNat ∧ c.toNat ≤ 90 then c.toNat + 32 else c.toNat := by
  have hrange : ('A'.val ≤ c.val ∧ c.val ≤ 'Z'.val) ↔ 65 ≤ c.toNat ∧ c.toNat ≤ 90 := by
    simp only [UInt32.le_iff_toNat_le]
    rfl
  unfold Char.toLower
  split
  next h =>
    rw [if_pos (hrange.1 h)]
    change (c.val + 32).toNat = c.toNat + 32
    have hle : c.val.toNat ≤ 90 := (hrange.1 h).2
    rw [UInt32.toNat_add]
    change (c.val.toNat + 32) % 2 ^ 32 = c.val.toNat + 32
    omega
  next h => rw [if_neg (mt hrange.2 h)]

theorem toLower_toLower (c : Char) : c.toLower.toLower = c.toLower := by
  apply Char.toNat_inj.1
  rw [toNat_toLower c.toLower, if_neg]
  rw [toNat_toLower c]
  split <;> omega

/-- No capital letter becomes a joint, so a joint stands for itself. -/
theorem isJoint_toLower {c : Char} : IsJoint c.toLower ↔ IsJoint c := by
  have hself : ∀ d : Char, (d.toNat < 65 ∨ 90 < d.toNat ∧ d.toNat < 97) →
      (c.toLower = d ↔ c = d) := by
    intro d hd
    rw [← Char.toNat_inj, ← Char.toNat_inj, toNat_toLower]
    split <;> omega
  unfold IsJoint
  rw [hself ' ' (by decide), hself '-' (by decide), hself '_' (by decide)]

theorem isBlank_toLower (c : Char) : isBlank c.toLower = isBlank c := by
  unfold isBlank
  rw [toNat_toLower, Bool.eq_iff_iff]
  simp only [Bool.or_eq_true, Bool.and_eq_true, decide_eq_true_eq, beq_iff_eq]
  split <;> omega

/-! ## Characters -/

theorem normalChar_of_isJoint {c : Char} (h : IsJoint c) : normalChar c = '_' := by
  rcases h with rfl | rfl | rfl <;> decide

theorem normalChar_of_not_isJoint {c : Char} (h : ¬ IsJoint c) : normalChar c = c.toLower := by
  unfold normalChar
  exact if_neg fun hc => h (hc.imp_right .inl)

theorem normalChar_normalChar (c : Char) : normalChar (normalChar c) = normalChar c := by
  by_cases h : IsJoint c
  · rw [normalChar_of_isJoint h]
    rfl
  · rw [normalChar_of_not_isJoint h, normalChar_of_not_isJoint (mt isJoint_toLower.1 h),
      toLower_toLower]

theorem normalChar_eq_iff {c d : Char} : normalChar c = normalChar d ↔ SameChar c d := by
  have hmixed : ∀ {c d : Char}, IsJoint c → ¬ IsJoint d →
      normalChar c ≠ normalChar d ∧ c.toLower ≠ d.toLower := by
    intro c d hc hd
    rw [normalChar_of_isJoint hc, normalChar_of_not_isJoint hd]
    constructor
    · exact fun h => hd (isJoint_toLower.1 (h ▸ .inr (.inr rfl)))
    · exact fun h => hd (isJoint_toLower.1 (h ▸ isJoint_toLower.2 hc))
  unfold SameChar
  by_cases hc : IsJoint c <;> by_cases hd : IsJoint d
  · simp [normalChar_of_isJoint hc, normalChar_of_isJoint hd, hc, hd]
  · simp [hmixed hc hd, hd]
  · simp [(hmixed hd hc).1.symm, (hmixed hd hc).2.symm, hc]
  · simp [normalChar_of_not_isJoint hc, normalChar_of_not_isJoint hd, hc]

/-- The blanks within a name that stay have no other form that is blank. -/
theorem isBlank_normalChar {c : Char} (h : isBlank c = false) : isBlank (normalChar c) = false := by
  by_cases hc : IsJoint c
  · rw [normalChar_of_isJoint hc]
    decide
  · rw [normalChar_of_not_isJoint hc, isBlank_toLower, h]

/-! ## Names -/

theorem trim_map_normalChar (cs : List Char) :
    trim ((trim cs).map normalChar) = (trim cs).map normalChar := by
  apply Text.trim_of_ends
  · intro c hc
    rw [List.head?_map, Option.map_eq_some_iff] at hc
    obtain ⟨d, hd, rfl⟩ := hc
    exact isBlank_normalChar (Text.isBlank_head_trim hd)
  · intro c hc
    rw [List.getLast?_map, Option.map_eq_some_iff] at hc
    obtain ⟨d, hd, rfl⟩ := hc
    exact isBlank_normalChar (Text.isBlank_last_trim hd)

@[simp] theorem normalName_normalName (name : String) :
    normalName (normalName name) = normalName name := by
  unfold normalName
  rw [String.toList_ofList, trim_map_normalChar, List.map_map]
  congr 1
  exact List.map_congr_left fun c _ => normalChar_normalChar c

theorem normalName_eq_iff {name other : String} :
    normalName name = normalName other ↔ SpelledAlike name other := by
  unfold normalName SpelledAlike
  rw [String.ofList_inj, ← List.forall₂_eq_eq_eq, List.forall₂_map_left_iff,
    List.forall₂_map_right_iff]
  simp only [normalChar_eq_iff]

end ItemGuard
