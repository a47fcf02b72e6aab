/-!
# Lines

A line feed ends the line before it, so a text that ends with one has no further, empty line after
it. `lines_append` says that a text which is empty or ends with a line feed has its lines before
those of any text put behind it.
-/

namespace ItemGuard.Text

/-- The lines of a text, without the line feeds that end them. -/
def lines : List Char → List (List Char)
  | [] => []
  | c :: cs =>
    if c = '\n' then [] :: lines cs
    else
      match lines cs with
      | [] => [[c]]
      | l :: ls => (c :: l) :: ls

@[simp] theorem lines_nil : lines [] = [] := rfl

@[simp] theorem lines_newline (cs : List Char) : lines ('\n' :: cs) = [] :: lines cs := by
  simp [lines]

/-- A text that is empty or ends with a line feed. -/
def Terminated (cs : List Char) : Prop :=
  ∀ c, cs.getLast? = some c → c = '\n'

theorem lines_ne_nil {c : Char} {cs : List Char} : lines (c :: cs) ≠ [] := by
  rw [lines]
  split
  · simp
  · split <;> simp

theorem lines_cons_of_ne {c : Char} {cs l : List Char} {ls : List (List Char)} (hc : c ≠ '\n')
    (h : lines cs = l :: ls) : lines (c :: cs) = (c :: l) :: ls := by
  rw [lines, if_neg hc, h]

/-- The lines of a terminated text stand before those of the text behind it. -/
theorem lines_append : ∀ {as : List Char} (bs : List Char), Terminated as →
    lines (as ++ bs) = lines as ++ lines bs
  | [], _, _ => rfl
  | [c], bs, h => by
    obtain rfl : c = '\n' := h c rfl
    simp
  | c :: d :: ds, bs, h => by
    have ih : lines (d :: ds ++ bs) = lines (d :: ds) ++ lines bs :=
      lines_append bs fun e he => h e (by simpa [List.getLast?_cons_cons] using he)
    by_cases hc : c = '\n'
    · subst hc
      simpa using ih
    · cases hl : lines (d :: ds) with
      | nil => exact absurd hl lines_ne_nil
      | cons l ls =>
        have ih' : lines (d :: ds ++ bs) = l :: (ls ++ lines bs) := ih.trans (by rw [hl]; rfl)
        rw [lines_cons_of_ne hc hl, List.cons_append, lines_cons_of_ne hc ih']
        rfl

theorem lines_append_newline {l : List Char} (h : '\n' ∉ l) (cs : List Char) :
    lines (l ++ '\n' :: cs) = l :: lines cs := by
  induction l with
  | nil => exact lines_newline cs
  | cons c l ih =>
    have hc : c ≠ '\n' := fun heq => h (heq ▸ List.mem_cons_self)
    exact lines_cons_of_ne hc (ih fun hmem => h (List.mem_cons_of_mem _ hmem))

/-- Lines that are each ended by a line feed are the lines of their text. -/
theorem lines_flatMap_newline {ls : List (List Char)} (h : ∀ l ∈ ls, '\n' ∉ l) :
    lines (ls.flatMap fun l => l ++ ['\n']) = ls := by
  induction ls with
  | nil => rfl
  | cons l ls ih =>
    rw [List.flatMap_cons, List.append_assoc, List.singleton_append,
      lines_append_newline (h l List.mem_cons_self),
      ih fun l' hl' => h l' (List.mem_cons_of_mem _ hl')]

theorem terminated_flatMap_newline (ls : List (List Char)) :
    Terminated (ls.flatMap fun l => l ++ ['\n']) := by
  induction ls with
  | nil =>
    intro c hc
    cases hc
  | cons l ls ih =>
    intro c hc
    rw [List.flatMap_cons, List.getLast?_append] at hc
    cases hlast : (ls.flatMap fun l => l ++ ['\n']).getLast? with
    | none =>
      rw [hlast, Option.none_or, List.getLast?_concat] at hc
      exact (Option.some.inj hc).symm
    | some d =>
      rw [hlast, Option.some_or] at hc
      exact Option.some.inj hc ▸ ih d hlast

end ItemGuard.Text
