import ItemGuard.Proofs.Blacklist.Reading

/-!
# What the notices depend on

Whether something is wrong with a line, and what, depends on the line itself and on whether a header
stands somewhere above it (`causeOf`), but on no slot and no rule. So the notices of a text can be
told line by line (`notices_readLines`), and a text that begins with a header has the same notices
wherever it stands, with other numbers (`noticesFrom_of_beginsWithHeader`, `noticesFrom_add`).
-/

namespace ItemGuard.Blacklist

/-- What is wrong with a line that stands below a header or before the first one. -/
def causeOf (registry : Registry) (headed : Bool) (raw : List Char) : Option Cause :=
  match Line.ofText raw with
  | .silent => none
  | .header tokens =>
    (leadingItems registry tokens).2.map fun token => .unknownItem (String.ofList token)
  | .option text =>
    if headed then
      match readOption text with
      | .error cause => some cause
      | .ok _ => none
    else some (.noSection (String.ofList text))

/-- The notices of lines that are numbered from a number on. -/
def noticesFrom (registry : Registry) : Nat → Bool → List (List Char) → List Notice
  | _, _, [] => []
  | n, headed, raw :: rest =>
    ((causeOf registry headed raw).map fun c => ⟨n, c⟩).toList ++
      noticesFrom registry (n + 1) (headed || decide (IsHeader raw)) rest

/-- A header stands above the place. -/
def Place.headed : Place → Bool
  | .preamble => false
  | .within _ => true

/-- The notice with its line a number of lines further down. -/
def Notice.shift (lines : Nat) (n : Notice) : Notice :=
  { n with line := n.line + lines }

variable {registry : Registry}

theorem isHeader_iff_ofText {raw : List Char} :
    IsHeader raw ↔ ∃ tokens, Line.ofText raw = .header tokens := by
  simp only [ofText_eq_header_iff]
  exact ⟨fun h => ⟨_, h, rfl⟩, fun ⟨_, h, _⟩ => h⟩

theorem not_isHeader_of_isSilent {raw : List Char} (h : IsSilent raw) : ¬ IsHeader raw := by
  intro hheader
  obtain ⟨tokens, htokens⟩ := isHeader_iff_ofText.1 hheader
  rw [ofText_eq_silent_iff.2 h] at htokens
  cases htokens

/-! ## Reading line by line -/

variable (registry) in
theorem cause_readLine (place : Place) (d : Draft) (raw : List Char) :
    (readLine registry place d (Line.ofText raw)).2.2 = causeOf registry place.headed raw ∧
      (readLine registry place d (Line.ofText raw)).1.headed =
        (place.headed || decide (IsHeader raw)) := by
  have hheader : IsHeader raw ↔ ∃ tokens, Line.ofText raw = .header tokens := isHeader_iff_ofText
  unfold causeOf
  cases hraw : Line.ofText raw with
  | silent => simp [readLine, hheader, hraw]
  | header tokens => simp [readLine, hheader, hraw, Place.headed]
  | option text =>
    cases place with
    | preamble => simp [readLine, hheader, hraw, Place.headed]
    | within slot =>
      cases hread : readOption text with
      | error cause => simp [readLine, hread, Place.headed]
      | ok option => cases slot <;> simp [readLine, hread, Place.headed]

/-- The notices that are made on the way are those that the lines have. -/
theorem notices_readLines (n : Nat) (place : Place) (d : Draft) (lines : List (List Char)) :
    (readLines registry n place d lines).2 = noticesFrom registry n place.headed lines := by
  induction lines generalizing n place d with
  | nil => rfl
  | cons raw rest ih =>
    obtain ⟨hcause, hheaded⟩ := cause_readLine registry place d raw
    rw [readLines, noticesFrom]
    dsimp only
    rw [ih, hcause, hheaded]

variable (registry) in
theorem notices_read (text : String) :
    (read registry text).notices = noticesFrom registry 1 false (Text.lines text.toList) :=
  notices_readLines 1 .preamble .empty (Text.lines text.toList)

/-! ## Lines in other places -/

theorem noticesFrom_append (n : Nat) (headed : Bool) (as bs : List (List Char)) :
    noticesFrom registry n headed (as ++ bs) =
      noticesFrom registry n headed as ++
        noticesFrom registry (n + as.length) (headed || as.any fun raw => decide (IsHeader raw))
          bs := by
  induction as generalizing n headed with
  | nil => simp [noticesFrom]
  | cons raw as ih =>
    rw [List.cons_append, noticesFrom, noticesFrom, ih, List.append_assoc, List.any_cons,
      List.length_cons, Bool.or_assoc, Nat.add_right_comm, Nat.add_assoc]

theorem noticesFrom_add (n k : Nat) (headed : Bool) (lines : List (List Char)) :
    noticesFrom registry (n + k) headed lines =
      (noticesFrom registry n headed lines).map (Notice.shift k) := by
  induction lines generalizing n headed with
  | nil => rfl
  | cons raw rest ih =>
    rw [noticesFrom, noticesFrom, List.map_append, Nat.add_right_comm, ih]
    cases causeOf registry headed raw <;> rfl

/-- The first line that is neither blank nor a comment, if there is one, is a header. -/
def BeginsWithHeader (lines : List (List Char)) : Prop :=
  ∀ raw ∈ lines.find? fun raw => !decide (IsSilent raw), IsHeader raw

theorem BeginsWithHeader.cons {raw : List Char} {rest : List (List Char)}
    (h : BeginsWithHeader (raw :: rest)) :
    IsHeader raw ∨ (IsSilent raw ∧ BeginsWithHeader rest) := by
  unfold BeginsWithHeader at h ⊢
  by_cases hraw : IsSilent raw
  · rw [List.find?_cons_of_neg (by simp [hraw])] at h
    exact .inr ⟨hraw, h⟩
  · rw [List.find?_cons_of_pos (by simp [hraw])] at h
    exact .inl (h raw rfl)

/-- What stands above lines that begin with a header has no part in their notices. -/
theorem noticesFrom_of_beginsWithHeader {lines : List (List Char)} (h : BeginsWithHeader lines)
    (n : Nat) (headed : Bool) :
    noticesFrom registry n headed lines = noticesFrom registry n false lines := by
  induction lines generalizing n with
  | nil => rfl
  | cons raw rest ih =>
    rw [noticesFrom, noticesFrom]
    rcases h.cons with hheader | ⟨hsilent, hrest⟩
    · obtain ⟨tokens, htokens⟩ := isHeader_iff_ofText.1 hheader
      simp [causeOf, htokens, hheader]
    · have hno := not_isHeader_of_isSilent hsilent
      simp [causeOf, ofText_eq_silent_iff.2 hsilent, hno, ih hrest]

end ItemGuard.Blacklist
