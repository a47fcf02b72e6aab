import ItemGuard.Proofs.Blacklist.Flaws
import ItemGuard.Proofs.Text.Trimming

/-!
# The layout of a blacklist

How a blacklist is laid out says nothing. Padding around its lines, the carriage returns of another
system among it, leaves the whole report as it is, and lines that say nothing may stand anywhere:
only the numbers of the lines below them grow (`read_layout`).
-/

namespace ItemGuard.Blacklist

open Text (cut? isBlank lines trim)

/-- Blanks that do not end a line. -/
def Padding (cs : List Char) : Prop :=
  ∀ c ∈ cs, isBlank c = true ∧ c ≠ '\n'

instance (cs : List Char) : Decidable (Padding cs) :=
  List.decidableBAll (fun c => isBlank c = true ∧ c ≠ '\n') cs

/-- The second text is the first one with padding before and behind its lines. -/
inductive Padded : List Char → List Char → Prop where
  /-- The text behind the last line feed. -/
  | last {before line after : List Char} (hline : '\n' ∉ line) (hbefore : Padding before)
    (hafter : Padding after) : Padded line (before ++ line ++ after)
  | line {before line after rest rest' : List Char} (hline : '\n' ∉ line)
    (hbefore : Padding before) (hafter : Padding after) (hrest : Padded rest rest') :
    Padded (line ++ '\n' :: rest) (before ++ line ++ after ++ '\n' :: rest')

/-- The text with a carriage return before every line feed. -/
def withReturns (text : String) : String :=
  String.ofList (text.toList.flatMap fun c => if c = '\n' then ['\r', '\n'] else [c])

/-- The lines with others among them: `inserted k` stands before the line with the index `k`, or
behind all lines if `k` is their number. -/
def insertLines (inserted : Nat → List (List Char)) : List (List Char) → List (List Char)
  | [] => inserted 0
  | raw :: rest => inserted 0 ++ raw :: insertLines (fun k => inserted (k + 1)) rest

/-- How many lines are inserted before the line with a number, which counts from 1. -/
def insertedBefore (inserted : Nat → List (List Char)) (line : Nat) : Nat :=
  ((List.range line).flatMap inserted).length

variable {registry : Registry}

/-! ## Padding -/

section

variable {before after l : List Char}

theorem ofText_padded (l : List Char) (hbefore : Padding before) (hafter : Padding after) :
    Line.ofText (before ++ l ++ after) = Line.ofText l := by
  unfold Line.ofText
  rw [Text.trim_surround l (fun c hc => (hbefore c hc).1) fun c hc => (hafter c hc).1]

theorem newline_notMem_padded (hl : '\n' ∉ l) (hbefore : Padding before) (hafter : Padding after) :
    '\n' ∉ before ++ l ++ after := by
  intro hmem
  rcases List.mem_append.1 hmem with hmem | hmem
  · rcases List.mem_append.1 hmem with hmem | hmem
    · exact (hbefore _ hmem).2 rfl
    · exact hl hmem
  · exact (hafter _ hmem).2 rfl

variable (n : Nat) (place : Place) (d : Draft)

theorem readLines_cons_of_silent {raw : List Char} (rest : List (List Char)) (h : IsSilent raw) :
    readLines registry n place d (raw :: rest) = readLines registry (n + 1) place d rest := by
  rw [readLines, ofText_eq_silent_iff.2 h]
  rfl

/-- A text without a line feed reads as one line, even if it is empty and has none. -/
theorem readLines_of_notMem (hl : '\n' ∉ l) :
    readLines registry n place d (lines l) = readLines registry n place d [l] := by
  cases l with
  | nil => exact (readLines_cons_of_silent n place d [] (.inl rfl)).symm
  | cons c cs =>
    have hlines : ∀ (c : Char) (cs : List Char), '\n' ∉ c :: cs → lines (c :: cs) = [c :: cs] := by
      intro c cs h
      induction cs generalizing c with
      | nil => simp [lines, Ne.symm (List.ne_of_not_mem_cons h)]
      | cons e es ih =>
        exact Text.lines_cons_of_ne (Ne.symm (List.ne_of_not_mem_cons h))
          (ih e (List.not_mem_of_not_mem_cons h))
    rw [hlines c cs hl]

theorem readLines_padded {cs cs' : List Char} (h : Padded cs cs') :
    readLines registry n place d (lines cs') = readLines registry n place d (lines cs) := by
  induction h generalizing n place d with
  | @last _ l _ hline hbefore hafter =>
    rw [readLines_of_notMem n place d (newline_notMem_padded hline hbefore hafter),
      readLines_of_notMem n place d hline, readLines, readLines, ofText_padded l hbefore hafter]
  | @line _ l _ rest rest' hline hbefore hafter _ ih =>
    rw [Text.lines_append_newline (newline_notMem_padded hline hbefore hafter),
      Text.lines_append_newline hline, readLines, readLines, ofText_padded l hbefore hafter]
    dsimp only
    rw [ih]

end

/-- Carriage returns before line feeds are padding. -/
theorem padded_withReturns (text : String) : Padded text.toList (withReturns text).toList := by
  have hpadding : Padding ['\r'] := by decide
  have hnone : Padding [] := by decide
  have hplain : ∀ {l : List Char}, '\n' ∉ l →
      (l.flatMap fun c => if c = '\n' then ['\r', '\n'] else [c]) = l := by
    intro l hl
    induction l with
    | nil => rfl
    | cons c cs ih =>
      rw [List.flatMap_cons, ih (List.not_mem_of_not_mem_cons hl),
        if_neg (Ne.symm (List.ne_of_not_mem_cons hl)), List.singleton_append]
  unfold withReturns
  rw [String.toList_ofList]
  generalize text.toList = cs
  -- the text is cut at its first line feed, so what is left is shorter
  induction hn : cs.length using Nat.strong_induction_on generalizing cs with
  | h n ih =>
    cases hcut : cut? '\n' cs with
    | none =>
      have hcs := Text.cut?_eq_none_iff.1 hcut
      rw [hplain hcs]
      simpa using Padded.last hcs hnone hnone
    | some parts =>
      obtain ⟨l, rest⟩ := parts
      obtain ⟨rfl, hl⟩ := Text.cut?_eq_some_iff.1 hcut
      have hlt : rest.length < n := by
        rw [← hn, List.length_append, List.length_cons]
        omega
      have hline := Padded.line hl hnone hpadding (ih _ hlt rest rfl)
      rw [List.flatMap_append, List.flatMap_cons, hplain hl, if_pos rfl]
      simpa using hline

/-! ## Lines that say nothing -/

section

variable {inserted : Nat → List (List Char)}

theorem readLines_append_of_silent {silent : List (List Char)}
    (h : ∀ raw ∈ silent, IsSilent raw) (n : Nat) (place : Place) (d : Draft)
    (rest : List (List Char)) :
    readLines registry n place d (silent ++ rest) =
      readLines registry (n + silent.length) place d rest := by
  induction silent generalizing n with
  | nil => rfl
  | cons raw silent ih =>
    rw [List.cons_append, readLines_cons_of_silent n place d _ (h raw List.mem_cons_self),
      ih (fun r hr => h r (List.mem_cons_of_mem _ hr)), List.length_cons, Nat.add_right_comm,
      Nat.add_assoc]

theorem insertedBefore_succ (inserted : Nat → List (List Char)) (line : Nat) :
    insertedBefore inserted (line + 1) =
      (inserted 0).length + insertedBefore (fun k => inserted (k + 1)) line := by
  unfold insertedBefore
  rw [List.range_succ_eq_map, List.flatMap_cons, List.length_append, List.flatMap_map]

theorem le_line_of_mem_readLines {n : Nat} {place : Place} {d : Draft} {ls : List (List Char)}
    {notice : Notice} (h : notice ∈ (readLines registry n place d ls).2) : n ≤ notice.line := by
  rw [notices_readLines] at h
  exact (line_mem_noticesFrom h).1

/-- Lines that say nothing change only the numbers of the lines below them. -/
theorem readLines_insertLines (registry : Registry)
    (hsilent : ∀ k, ∀ raw ∈ inserted k, IsSilent raw) (n above : Nat) (place : Place) (d : Draft)
    (ls : List (List Char)) :
    readLines registry (n + above) place d (insertLines inserted ls) =
      let r := readLines registry n place d ls
      (r.1, r.2.map fun notice =>
        notice.shift (above + insertedBefore inserted (notice.line + 1 - n))) := by
  -- `above` counts the lines inserted so far, `inserted` goes on from the index of the next line
  induction ls generalizing inserted n above place d with
  | nil =>
    have hnil : readLines registry (n + above) place d (inserted 0 ++ []) = _ :=
      readLines_append_of_silent (hsilent 0) (n + above) place d []
    rw [List.append_nil] at hnil
    exact hnil
  | cons raw rest ih =>
    have hnext : n + above + (inserted 0).length + 1 = (n + 1) + (above + (inserted 0).length) := by
      omega
    rw [insertLines, readLines_append_of_silent (hsilent 0), readLines, readLines]
    dsimp only
    rw [hnext, ih fun k => hsilent (k + 1)]
    refine Prod.ext rfl ?_
    dsimp only
    rw [List.map_append]
    congr 1
    · have hfirst : insertedBefore inserted (n + 1 - n) = (inserted 0).length := by
        rw [Nat.add_sub_cancel_left, insertedBefore_succ]
        rfl
      cases (readLine registry place d (Line.ofText raw)).2.2 with
      | none => rfl
      | some cause =>
        simp only [Option.map_some, Option.toList_some, List.map_cons, List.map_nil, Notice.shift,
          hfirst, Nat.add_assoc]
    · refine List.map_congr_left fun notice hnotice => ?_
      have hline := le_line_of_mem_readLines hnotice
      have hindex : notice.line + 1 - n = (notice.line + 1 - (n + 1)) + 1 := by omega
      rw [hindex, insertedBefore_succ, Nat.add_assoc]

end

/-- **The layout of a blacklist.** A carriage return before every line feed, or any padding around
the lines, leaves the report as it is. So do lines that say nothing, wherever and however many of them
are inserted, but that each notice counts those above its line. -/
theorem read_layout (registry : Registry) (text : String) :
    let report := read registry text
    read registry (withReturns text) = report ∧
    (∀ padded : String, Padded text.toList padded.toList → read registry padded = report) ∧
    ∀ (inserted : Nat → List (List Char)) (longer : String),
      (∀ k, ∀ raw ∈ inserted k, IsSilent raw) →
      lines longer.toList = insertLines inserted (lines text.toList) →
      (read registry longer).ruleset? = report.ruleset? ∧
        (read registry longer).notices =
          report.notices.map fun notice => notice.shift (insertedBefore inserted notice.line) := by
  intro report
  have hpadded : ∀ padded : String, Padded text.toList padded.toList →
      read registry padded = report := by
    intro padded h
    simp only [report, read, readChars, readLines_padded 1 .preamble .empty h]
  refine ⟨hpadded _ (padded_withReturns text), hpadded, fun inserted longer hsilent hlines => ?_⟩
  have hread := readLines_insertLines registry hsilent 1 0 .preamble .empty (lines text.toList)
  simp only [Nat.add_zero, Nat.add_sub_cancel, Nat.zero_add] at hread
  constructor <;> simp only [report, read, readChars, hlines, hread]

/-- A header with a wide space before it and a carriage return behind it, and a last line without a
line feed; two lines that say nothing come between them, and one behind both. -/
theorem read_layout_comments :
    let text := "[1, bogus ]\non-left"
    let padded := "\u3000[1, bogus ] \r\n\ton-left "
    let inserted : Nat → List (List Char) := fun k =>
      if k = 1 then [[], " ; why".toList] else if k = 2 then ["#".toList] else []
    let longer := "[1, bogus ]\n\n ; why\non-left\n#"
    let registry : Registry := fun _ => none
    Padded text.toList padded.toList ∧ read registry padded = read registry text ∧
      lines longer.toList = insertLines inserted (lines text.toList) ∧
      (read registry longer).ruleset? = (read registry text).ruleset? ∧
      (read registry text).notices = [⟨1, .unknownItem "bogus"⟩, ⟨2, .missingValue "on-left"⟩] ∧
      (read registry longer).notices =
        [⟨1, .unknownItem "bogus"⟩, ⟨4, .missingValue "on-left"⟩] := by
  intro text padded inserted longer registry
  obtain ⟨-, hpadded, hlonger⟩ := read_layout registry text
  have htext : text.toList = "[1, bogus ]".toList ++ '\n' :: "on-left".toList := by decide
  have hshown : padded.toList =
      ['\u3000'] ++ "[1, bogus ]".toList ++ [' ', '\r'] ++
        '\n' :: (['\t'] ++ "on-left".toList ++ [' ']) := by decide
  have hpadding : Padded text.toList padded.toList := by
    rw [htext, hshown]
    exact .line (by decide) (by decide) (by decide) (.last (by decide) (by decide) (by decide))
  have hsilent : ∀ k, ∀ raw ∈ inserted k, IsSilent raw := by
    intro k
    dsimp only [inserted]
    split
    · decide
    · split <;> decide
  have hnotices : (read registry text).notices =
      [⟨1, .unknownItem "bogus"⟩, ⟨2, .missingValue "on-left"⟩] := by decide
  have hlines : lines longer.toList = insertLines inserted (lines text.toList) := by decide
  obtain ⟨hruleset, hshifted⟩ := hlonger inserted longer hsilent hlines
  refine ⟨hpadding, hpadded padded hpadding, hlines, hruleset, hnotices, ?_⟩
  rw [hshifted, hnotices]
  decide

end ItemGuard.Blacklist
