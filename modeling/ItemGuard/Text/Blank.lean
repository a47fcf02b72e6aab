/-!
# Blank characters

`isBlank` is the Unicode property White_Space, and `trim` drops the blanks at both ends of a text.
The names, keys and values of this library are all read trimmed, so a carriage return before a
line feed never reaches any of them. `trim_of_ends` says that a text with no blank at either end
is left as it is.
-/

namespace ItemGuard.Text

/-- The characters with the Unicode property White_Space. -/
def isBlank (c : Char) : Bool :=
  let n := c.toNat
  (9 ≤ n && n ≤ 13) || n == 0x20 || n == 0x85 || n == 0xA0 || n == 0x1680
    || (0x2000 ≤ n && n ≤ 0x200A) || n == 0x2028 || n == 0x2029 || n == 0x202F
    || n == 0x205F || n == 0x3000

/-- The blanks of ASCII other than the vertical tab and the form feed are blanks. -/
theorem isBlank_of_isWhitespace {c : Char} (h : c.isWhitespace = true) : isBlank c = true := by
  simp only [Char.isWhitespace, Bool.or_eq_true, decide_eq_true_eq] at h
  rcases h with ((rfl | rfl) | rfl) | rfl <;> decide

/-- Drops the blanks at the end of a text. -/
def trimEnd : List Char → List Char
  | [] => []
  | c :: cs =>
    match trimEnd cs with
    | [] => if isBlank c then [] else [c]
    | d :: ds => c :: d :: ds

/-- Drops the blanks at both ends of a text. -/
def trim (cs : List Char) : List Char :=
  trimEnd (cs.dropWhile isBlank)

def trimString (s : String) : String :=
  String.ofList (trim s.toList)

@[simp] theorem trim_nil : trim [] = [] := rfl

theorem trimEnd_cons_of_ne_nil {c : Char} {cs : List Char} (h : trimEnd cs ≠ []) :
    trimEnd (c :: cs) = c :: trimEnd cs := by
  rw [trimEnd]
  cases hc : trimEnd cs with
  | nil => exact absurd hc h
  | cons d ds => rfl

theorem trimEnd_of_getLast? : ∀ {cs : List Char}, (∀ c, cs.getLast? = some c → isBlank c = false) →
    trimEnd cs = cs
  | [], _ => rfl
  | [c], h => by simp [trimEnd, h c rfl]
  | c :: d :: ds, h => by
    have ih : trimEnd (d :: ds) = d :: ds :=
      trimEnd_of_getLast? fun e he => h e (by simpa [List.getLast?_cons_cons] using he)
    rw [trimEnd_cons_of_ne_nil (by simp [ih]), ih]

theorem trim_of_ends {cs : List Char} (hhead : ∀ c, cs.head? = some c → isBlank c = false)
    (hlast : ∀ c, cs.getLast? = some c → isBlank c = false) : trim cs = cs := by
  have hdrop : cs.dropWhile isBlank = cs := by
    cases cs with
    | nil => rfl
    | cons c cs => simp [hhead c rfl]
  rw [trim, hdrop, trimEnd_of_getLast? hlast]

theorem trimEnd_cons_of_not_blank {c : Char} (cs : List Char) (h : isBlank c = false) :
    trimEnd (c :: cs) = c :: trimEnd cs := by
  cases hcs : trimEnd cs with
  | nil => simp [trimEnd, hcs, h]
  | cons d ds => rw [trimEnd_cons_of_ne_nil (by simp [hcs]), hcs]

theorem trim_cons_of_not_blank {c : Char} (cs : List Char) (h : isBlank c = false) :
    trim (c :: cs) = c :: trimEnd cs := by
  rw [trim, List.dropWhile_cons_of_neg (by simp [h]), trimEnd_cons_of_not_blank cs h]

theorem isBlank_of_trim_eq_cons {cs ds : List Char} {c : Char} (h : trim cs = c :: ds) :
    isBlank c = false := by
  unfold trim at h
  cases hd : cs.dropWhile isBlank with
  | nil => simp [hd, trimEnd] at h
  | cons e es =>
    have hne : cs.dropWhile isBlank ≠ [] := by simp [hd]
    have he : isBlank e = false := by simpa [hd] using List.head_dropWhile_not isBlank hne
    rw [hd, trimEnd_cons_of_not_blank es he] at h
    exact (List.cons.inj h).1 ▸ he

end ItemGuard.Text
