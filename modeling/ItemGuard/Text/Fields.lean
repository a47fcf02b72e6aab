/-!
# Fields between separators

`splitOn` cuts a text at every separator and always gives at least one field; `cut?` cuts it at
the first separator only. `splitOn_of_not_mem` and `splitOn_append_cons` determine the fields of
a text from its separators.
-/

namespace ItemGuard.Text

/-- The fields of a text between its separators; without a separator the text is its one field. -/
def splitOn (sep : Char) : List Char → List (List Char)
  | [] => [[]]
  | c :: cs =>
    if c = sep then [] :: splitOn sep cs
    else
      match splitOn sep cs with
      | [] => [[c]]
      | f :: fs => (c :: f) :: fs

/-- The text before the first separator and the text behind it. -/
def cut? (sep : Char) : List Char → Option (List Char × List Char)
  | [] => none
  | c :: cs =>
    if c = sep then some ([], cs)
    else (cut? sep cs).map fun p => (c :: p.1, p.2)

theorem splitOn_ne_nil (sep : Char) (cs : List Char) : splitOn sep cs ≠ [] := by
  cases cs with
  | nil => simp [splitOn]
  | cons c cs =>
    rw [splitOn]
    split
    · simp
    · split <;> simp

theorem splitOn_of_not_mem {sep : Char} : ∀ {cs : List Char}, sep ∉ cs → splitOn sep cs = [cs]
  | [], _ => rfl
  | c :: cs, h => by
    have hc : c ≠ sep := fun e => h (by simp [e])
    have ih : splitOn sep cs = [cs] := splitOn_of_not_mem fun m => h (by simp [m])
    rw [splitOn, if_neg hc, ih]

/-- A separator ends the field before it. -/
theorem splitOn_append_cons {sep : Char} : ∀ {as : List Char} (bs : List Char), sep ∉ as →
    splitOn sep (as ++ sep :: bs) = as :: splitOn sep bs
  | [], bs, _ => by simp [splitOn]
  | a :: as, bs, h => by
    have ha : a ≠ sep := fun e => h (by simp [e])
    have ih : splitOn sep (as ++ sep :: bs) = as :: splitOn sep bs :=
      splitOn_append_cons bs fun m => h (by simp [m])
    rw [List.cons_append, splitOn, if_neg ha, ih]

/-- The fields on both sides of a separator. -/
theorem splitOn_append_sep (sep : Char) (as bs : List Char) :
    splitOn sep (as ++ sep :: bs) = splitOn sep as ++ splitOn sep bs := by
  induction as with
  | nil => simp [splitOn]
  | cons a as ih =>
    rw [List.cons_append, splitOn, splitOn, ih]
    cases hfields : splitOn sep as with
    | nil => exact absurd hfields (splitOn_ne_nil sep as)
    | cons field fields => split <;> rfl

theorem not_mem_of_mem_splitOn {sep : Char} {cs field : List Char} (h : field ∈ splitOn sep cs) :
    sep ∉ field := by
  induction cs generalizing field with
  | nil => simp_all [splitOn]
  | cons c cs ih =>
    rw [splitOn] at h
    cases hfields : splitOn sep cs with
    | nil => exact absurd hfields (splitOn_ne_nil sep cs)
    | cons first fields =>
      rw [hfields] at h ih
      split at h
      next =>
        rcases List.mem_cons.1 h with rfl | hmem
        · exact List.not_mem_nil
        · exact ih hmem
      next hc =>
        rcases List.mem_cons.1 h with rfl | hmem
        · exact List.not_mem_cons_of_ne_of_not_mem (Ne.symm hc) (ih List.mem_cons_self)
        · exact ih (List.mem_cons_of_mem _ hmem)

/-- A text without a separator behind another one belongs to its last field, which is empty only
behind a separator. -/
theorem splitOn_append {sep : Char} {bs : List Char} (hbs : sep ∉ bs) (as : List Char) :
    ∃ before last, splitOn sep as = before ++ [last] ∧
      splitOn sep (as ++ bs) = before ++ [last ++ bs] ∧
      (last = [] → as = [] ∨ as.getLast? = some sep) := by
  induction as with
  | nil => exact ⟨[], [], rfl, splitOn_of_not_mem hbs, fun _ => .inl rfl⟩
  | cons c cs ih =>
    obtain ⟨before, last, hcs, hcsbs, hempty⟩ := ih
    by_cases hc : c = sep
    · refine ⟨[] :: before, last, by simp [splitOn, hc, hcs], by simp [splitOn, hc, hcsbs], ?_⟩
      intro hlast
      rcases hempty hlast with hnil | hend
      · exact .inr (by simp [hnil, hc])
      · exact .inr (by simp [List.getLast?_cons, hend])
    · cases before with
      | nil =>
        refine ⟨[], c :: last, by simp [splitOn, hc, hcs], by simp [splitOn, hc, hcsbs], ?_⟩
        intro hlast
        cases hlast
      | cons f fs =>
        refine ⟨(c :: f) :: fs, last, by simp [splitOn, hc, hcs], by simp [splitOn, hc, hcsbs], ?_⟩
        intro hlast
        rcases hempty hlast with hnil | hend
        · simp [hnil, splitOn] at hcs
        · exact .inr (by simp [List.getLast?_cons, hend])

/-! ## Joining fields -/

theorem intercalate_concat (sep : Char) {fields : List (List Char)} (hne : fields ≠ [])
    (field : List Char) :
    [sep].intercalate (fields ++ [field]) = [sep].intercalate fields ++ sep :: field := by
  induction fields with
  | nil => exact absurd rfl hne
  | cons first fields ih =>
    cases fields with
    | nil => simp
    | cons second fields =>
      rw [List.cons_append, List.cons_append, List.intercalate_cons_cons,
        List.intercalate_cons_cons, ← List.cons_append, ih (List.cons_ne_nil _ _)]
      simp only [List.append_assoc]

theorem eq_or_mem_of_mem_intercalate {sep c : Char} {fields : List (List Char)}
    (h : c ∈ [sep].intercalate fields) : c = sep ∨ ∃ f ∈ fields, c ∈ f := by
  induction fields with
  | nil => cases h
  | cons first fields ih =>
    cases fields with
    | nil => exact .inr ⟨first, List.mem_singleton_self _, by simpa using h⟩
    | cons second fields =>
      rw [List.intercalate_cons_cons, List.mem_append, List.mem_append] at h
      rcases h with (hfirst | hsep) | hrest
      · exact .inr ⟨first, List.mem_cons_self, hfirst⟩
      · exact .inl (List.mem_singleton.1 hsep)
      · exact (ih hrest).imp_right fun ⟨f, hf, hc⟩ => ⟨f, List.mem_cons_of_mem _ hf, hc⟩

theorem intercalate_splitOn (sep : Char) (cs : List Char) :
    [sep].intercalate (splitOn sep cs) = cs := by
  induction cs with
  | nil => rfl
  | cons c cs ih =>
    rw [splitOn]
    cases hfields : splitOn sep cs with
    | nil => exact absurd hfields (splitOn_ne_nil _ _)
    | cons field fields =>
      rw [hfields] at ih
      split
      next hc => rw [List.intercalate_cons_cons, ih, hc, List.nil_append, List.singleton_append]
      next => rw [List.intercalate_cons_cons_left, ih]

theorem splitOn_intercalate {sep : Char} {fields : List (List Char)} (hne : fields ≠ [])
    (h : ∀ f ∈ fields, sep ∉ f) : splitOn sep ([sep].intercalate fields) = fields := by
  induction fields with
  | nil => exact absurd rfl hne
  | cons first fields ih =>
    have hfirst : sep ∉ first := h first List.mem_cons_self
    cases fields with
    | nil => simpa using splitOn_of_not_mem hfirst
    | cons second fields =>
      have hrest := ih (List.cons_ne_nil _ _) fun f hf => h f (List.mem_cons_of_mem _ hf)
      rw [List.intercalate_cons_cons, List.append_assoc, List.singleton_append,
        splitOn_append_cons _ hfirst, hrest]

/-! ## Cutting -/

theorem cut?_append_cons {sep : Char} : ∀ {as : List Char} (bs : List Char), sep ∉ as →
    cut? sep (as ++ sep :: bs) = some (as, bs)
  | [], bs, _ => by simp [cut?]
  | a :: as, bs, h => by
    have ha : a ≠ sep := fun e => h (by simp [e])
    have ih : cut? sep (as ++ sep :: bs) = some (as, bs) :=
      cut?_append_cons bs fun m => h (by simp [m])
    simp [cut?, ha, ih]

theorem cut?_eq_none_iff {sep : Char} {cs : List Char} : cut? sep cs = none ↔ sep ∉ cs := by
  induction cs with
  | nil => simp [cut?]
  | cons c cs ih =>
    by_cases hc : c = sep
    · simp [cut?, hc]
    · simp [cut?, hc, ih, Ne.symm hc]

theorem eq_append_of_cut? {sep : Char} {cs as bs : List Char} (h : cut? sep cs = some (as, bs)) :
    cs = as ++ sep :: bs := by
  induction cs generalizing as with
  | nil => cases h
  | cons c cs ih =>
    rw [cut?] at h
    split at h
    · next hc =>
      cases h
      rw [hc, List.nil_append]
    · obtain ⟨⟨ds, es⟩, hcut, heq⟩ := Option.map_eq_some_iff.1 h
      cases heq
      rw [ih hcut, List.cons_append]

theorem not_mem_of_cut? {sep : Char} {cs as bs : List Char} (h : cut? sep cs = some (as, bs)) :
    sep ∉ as := by
  induction cs generalizing as with
  | nil => cases h
  | cons c cs ih =>
    rw [cut?] at h
    split at h
    · cases h
      exact List.not_mem_nil
    · next hc =>
      obtain ⟨⟨ds, es⟩, hcut, heq⟩ := Option.map_eq_some_iff.1 h
      cases heq
      exact List.not_mem_cons_of_ne_of_not_mem (Ne.symm hc) (ih hcut)

/-- The cut is at the first separator. -/
theorem cut?_eq_some_iff {sep : Char} {cs as bs : List Char} :
    cut? sep cs = some (as, bs) ↔ cs = as ++ sep :: bs ∧ sep ∉ as :=
  ⟨fun h => ⟨eq_append_of_cut? h, not_mem_of_cut? h⟩,
    fun ⟨heq, hmem⟩ => heq ▸ cut?_append_cons bs hmem⟩

end ItemGuard.Text
