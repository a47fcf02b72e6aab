import ItemGuard.Text.Blank
import ItemGuard.Text.Numeral

/-!
# Blanks around a text

A trimmed text has no blank at either end (`isBlank_head_trim`, `isBlank_last_trim`), and blanks put
around a text are trimmed away again (`trim_surround`).
-/

namespace ItemGuard.Text

variable {as bs cs : List Char}

theorem trimEnd_eq_nil (h : ∀ c ∈ cs, isBlank c = true) : trimEnd cs = [] := by
  induction cs with
  | nil => rfl
  | cons c cs ih =>
    rw [trimEnd, ih fun d hd => h d (List.mem_cons_of_mem _ hd)]
    simp [h c List.mem_cons_self]

theorem trimEnd_append_of_blank (cs : List Char) (h : ∀ c ∈ bs, isBlank c = true) :
    trimEnd (cs ++ bs) = trimEnd cs := by
  induction cs with
  | nil => exact trimEnd_eq_nil h
  | cons c cs ih => rw [List.cons_append, trimEnd, trimEnd, ih]

/-- Blanks around a text do not count. -/
theorem trim_surround (cs : List Char) (has : ∀ c ∈ as, isBlank c = true)
    (hbs : ∀ c ∈ bs, isBlank c = true) : trim (as ++ cs ++ bs) = trim cs := by
  unfold trim
  rw [List.append_assoc, List.dropWhile_append_of_pos has, List.dropWhile_append]
  cases hcs : cs.dropWhile isBlank with
  | nil =>
    have hnil : (bs ++ []).dropWhile isBlank = [].dropWhile isBlank :=
      List.dropWhile_append_of_pos hbs
    rw [List.append_nil, List.dropWhile_nil] at hnil
    rw [List.isEmpty_nil, if_pos rfl, hnil]
  | cons d ds =>
    rw [List.isEmpty_cons, if_neg Bool.false_ne_true]
    exact trimEnd_append_of_blank _ hbs

theorem isBlank_last_trimEnd {c : Char} (h : (trimEnd cs).getLast? = some c) :
    isBlank c = false := by
  induction cs with
  | nil => cases h
  | cons d ds ih =>
    rw [trimEnd] at h
    cases hds : trimEnd ds with
    | nil =>
      rw [hds] at h
      dsimp only at h
      split at h
      next => cases h
      next hd =>
        obtain rfl : d = c := Option.some.inj h
        exact Bool.eq_false_iff.2 hd
    | cons e es =>
      rw [hds] at h ih
      exact ih (by simpa [List.getLast?_cons_cons] using h)

theorem isBlank_head_trim {c : Char} (h : (trim cs).head? = some c) : isBlank c = false := by
  obtain ⟨ds, hds⟩ := List.head?_eq_some_iff.1 h
  exact isBlank_of_trim_eq_cons hds

theorem isBlank_last_trim {c : Char} (h : (trim cs).getLast? = some c) : isBlank c = false :=
  isBlank_last_trimEnd h

@[simp] theorem trim_trim (cs : List Char) : trim (trim cs) = trim cs :=
  trim_of_ends (fun _ => isBlank_head_trim) (fun _ => isBlank_last_trim)

/-! ## Numerals -/

theorem isBlank_of_isDigit {c : Char} (h : c.isDigit = true) : isBlank c = false := by
  have hrange := toNat_of_isDigit h
  unfold isBlank
  simp only [Bool.or_eq_false_iff, Bool.and_eq_false_iff, decide_eq_false_iff_not,
    beq_eq_false_iff_ne]
  omega

theorem trim_decimal (n : Nat) : trim (decimal n) = decimal n := by
  apply trim_of_ends
  · intro c hc
    exact isBlank_of_isDigit (isDigit_of_mem_decimal (List.mem_of_mem_head? hc))
  · intro c hc
    exact isBlank_of_isDigit (isDigit_of_mem_decimal (List.mem_of_mem_getLast? hc))

end ItemGuard.Text
