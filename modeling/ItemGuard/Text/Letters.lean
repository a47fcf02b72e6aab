/-!
# Letter case

Group names, item names and option keys are compared without regard to the case of the letters
`A` to `Z`; all other characters have to agree exactly.
-/

namespace ItemGuard.Text

/-- The text with the letters `A` to `Z` made small. -/
def foldCase (s : String) : String :=
  String.ofList (s.toList.map Char.toLower)

/-- Equality up to the case of the letters `A` to `Z`. -/
def sameLetters (s t : String) : Bool :=
  foldCase s == foldCase t

theorem sameLetters_iff {s t : String} : sameLetters s t = true ↔ foldCase s = foldCase t := by
  simp [sameLetters]

@[simp] theorem sameLetters_self (s : String) : sameLetters s s = true := by
  simp [sameLetters]

end ItemGuard.Text
