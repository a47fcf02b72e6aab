import ItemGuard.Blacklist.Report
import Mathlib.Data.List.DropRight

/-!
# What single lines of a blacklist say

The lines of a blacklist, described without a parser: a line may say nothing (`IsSilent`), it is a
header if it stands in square brackets (`IsHeader`), a header binds the items of the fields before the
first that names none (`Binds`), and any other line may set the groups of an option (`setting?`). The
lines below a header make a rule in which the last setting of each option counts (`ruleOf`).

The parser reads lines in the same way: `ofText_eq_silent_iff` for lines that say nothing,
`ofText_eq_header_iff` and `mem_leadingItems_iff` for headers, `foldl_change` for the lines below them.
-/

namespace ItemGuard.Blacklist

open Text (cut? splitOn trim)

/-- The line is blank, or a comment: without the blanks around it, it starts with `;` or `#`. -/
def IsSilent (raw : List Char) : Prop :=
  trim raw = [] ∨ (trim raw).head? = some ';' ∨ (trim raw).head? = some '#'

instance : DecidablePred IsSilent := fun raw => by
  unfold IsSilent
  infer_instance

/-- The line without the blanks around it starts with `[` and ends with another character, `]`. -/
def IsHeader (raw : List Char) : Prop :=
  (trim raw).head? = some '[' ∧ (trim raw).getLast? = some ']' ∧ 2 ≤ (trim raw).length

instance : DecidablePred IsHeader := fun raw => by
  unfold IsHeader
  infer_instance

/-- The fields of a header: the text between the brackets, split at the commas. Empty fields at the
end do not count, unless there is nothing between the brackets. -/
def fieldsOf (raw : List Char) : List (List Char) :=
  let inner := (trim raw).tail.dropLast
  if inner = [] then [[]] else (splitOn ',' inner).rdropWhile List.isEmpty

/-- A field of the header names the item, and the fields before it name items as well. -/
def Binds (registry : Registry) (raw : List Char) (item : ItemId) : Prop :=
  IsHeader raw ∧ ∃ before field after, fieldsOf raw = before ++ field :: after ∧
    (∀ f ∈ before, (registry.resolve (String.ofList f)).isSome) ∧
    registry.resolve (String.ofList field) = some item

/-- The groups that a line sets for an option: before the first `=` stands the key of the option, in
capital or small letters, and behind it stands a text that is not blank. Its fields between commas
are the groups, but for those that are blank. -/
def setting? (key : OptionKey) (raw : List Char) : Option (List String) :=
  match cut? '=' (trim raw) with
  | none => none
  | some (name, value) =>
    if trim value ≠ [] ∧ Text.foldCase (String.ofList (trim name)) = key.name then
      some ((((splitOn ',' value).map trim).filter fun f => !f.isEmpty).map String.ofList)
    else none

/-- The groups that the last of some lines to set an option sets for it. -/
def lastSetting? (key : OptionKey) (lines : List (List Char)) : Option (List String) :=
  (lines.filterMap (setting? key)).getLast?

/-- The rule that the lines below a header make. -/
def ruleOf (lines : List (List Char)) : Rule where
  exempt := (lastSetting? .exempt lines).getD []
  destroy := lastSetting? (.restrict .destroy) lines
  leftClick := lastSetting? (.restrict .leftClick) lines
  rightClick := lastSetting? (.restrict .rightClick) lines

@[simp] theorem permitted_ruleOf (lines : List (List Char)) (action : Action) :
    (ruleOf lines).permitted action = lastSetting? (.restrict action) lines := by
  cases action <;> rfl

@[simp] theorem lastSetting?_nil (key : OptionKey) : lastSetting? key [] = none := rfl

/-- A later setting comes first. -/
theorem lastSetting?_cons (key : OptionKey) (raw : List Char) (lines : List (List Char)) :
    lastSetting? key (raw :: lines) = (lastSetting? key lines).or (setting? key raw) := by
  unfold lastSetting?
  rw [List.filterMap_cons]
  cases setting? key raw with
  | none => simp
  | some groups => rw [List.getLast?_cons]; cases (lines.filterMap (setting? key)).getLast? <;> rfl

/-! ## Headers -/

theorem dropEmptyEnd_concat (fields : List (List Char)) (f : List Char) :
    dropEmptyEnd (fields ++ [f]) = if f.isEmpty then dropEmptyEnd fields else fields ++ [f] := by
  induction fields with
  | nil => rfl
  | cons g fields ih =>
    rw [List.cons_append, dropEmptyEnd, ih, dropEmptyEnd]
    cases hf : f.isEmpty with
    | true => rfl
    | false => cases fields <;> rfl

theorem dropEmptyEnd_eq_rdropWhile (fields : List (List Char)) :
    dropEmptyEnd fields = fields.rdropWhile List.isEmpty := by
  induction fields using List.reverseRecOn with
  | nil => rfl
  | append_singleton fields f ih => rw [dropEmptyEnd_concat, List.rdropWhile_concat, ih]

/-- The line stands in brackets exactly if there is a text between them. -/
theorem bracketed?_eq_some_iff {cs inner : List Char} :
    bracketed? cs = some inner ↔
      (cs.head? = some '[' ∧ cs.getLast? = some ']' ∧ 2 ≤ cs.length) ∧ cs.tail.dropLast = inner := by
  unfold bracketed?
  split
  · next ds =>
    cases ds with
    | nil => simp
    | cons d ds => simp [List.getLast?_cons_cons]
  · next hne =>
    constructor
    · intro h
      cases h
    · rintro ⟨⟨hhead, -⟩, -⟩
      obtain ⟨ds, rfl⟩ := List.head?_eq_some_iff.1 hhead
      exact absurd rfl (hne ds)

/-- The parser passes over blank lines and comments, and over no other lines. -/
theorem ofText_eq_silent_iff {raw : List Char} : Line.ofText raw = .silent ↔ IsSilent raw := by
  unfold Line.ofText Line.ofTrimmed IsSilent
  cases trim raw with
  | nil => simp
  | cons c cs =>
    simp only [isComment, List.isEmpty_cons, Bool.false_or, Bool.or_eq_true, beq_iff_eq,
      List.head?_cons, Option.some.injEq, reduceCtorEq, false_or]
    by_cases hc : c = ';' ∨ c = '#'
    · simp [hc]
    · rw [if_neg hc]
      cases bracketed? (c :: cs) <;> simp [hc]

/-- The parser takes the headers as headers, with the fields trimmed as tokens. -/
theorem ofText_eq_header_iff {raw : List Char} {tokens : List (List Char)} :
    Line.ofText raw = .header tokens ↔ IsHeader raw ∧ (fieldsOf raw).map trim = tokens := by
  have hfields : ∀ inner : List Char,
      headerTokens inner =
        (if inner = [] then [[]] else (splitOn ',' inner).rdropWhile List.isEmpty).map trim := by
    intro inner
    unfold headerTokens headerFields
    cases inner with
    | nil => rfl
    | cons c cs => simp [dropEmptyEnd_eq_rdropWhile]
  unfold Line.ofText Line.ofTrimmed IsHeader fieldsOf
  dsimp only
  rw [← hfields]
  cases hb : bracketed? (trim raw) with
  | none =>
    have hno : ¬ ((trim raw).head? = some '[' ∧ (trim raw).getLast? = some ']' ∧
        2 ≤ (trim raw).length) := fun h => by
      rw [bracketed?_eq_some_iff.2 ⟨h, rfl⟩] at hb
      cases hb
    split <;> simp [hno]
  | some inner =>
    obtain ⟨hheader, rfl⟩ := bracketed?_eq_some_iff.1 hb
    obtain ⟨ds, hds⟩ := List.head?_eq_some_iff.1 hheader.1
    have hnot : ((trim raw).isEmpty || isComment (trim raw)) = false := by simp [hds, isComment]
    simp [hnot, hheader]

theorem leadingItems_cons_of_none {registry : Registry} {token : List Char}
    {tokens : List (List Char)} (h : registry.resolveTrimmed token = none) :
    leadingItems registry (token :: tokens) = ([], some token) := by
  rw [leadingItems, h]

theorem leadingItems_cons_of_some {registry : Registry} {token : List Char}
    {tokens : List (List Char)} {item : ItemId} (h : registry.resolveTrimmed token = some item) :
    (leadingItems registry (token :: tokens)).1 = item :: (leadingItems registry tokens).1 := by
  rw [leadingItems, h]

/-- The parser binds the items of the fields before the first that names none. -/
theorem mem_leadingItems_iff {registry : Registry} {fields : List (List Char)} {item : ItemId} :
    item ∈ (leadingItems registry (fields.map trim)).1 ↔
      ∃ before field after, fields = before ++ field :: after ∧
        (∀ f ∈ before, (registry.resolve (String.ofList f)).isSome) ∧
        registry.resolve (String.ofList field) = some item := by
  have hresolve : ∀ f : List Char,
      registry.resolveTrimmed (trim f) = registry.resolve (String.ofList f) := by
    intro f
    rw [Registry.resolve, String.toList_ofList]
  induction fields with
  | nil => simp [leadingItems]
  | cons f fields ih =>
    rw [List.map_cons]
    cases hf : registry.resolve (String.ofList f) with
    | none =>
      rw [leadingItems_cons_of_none ((hresolve f).trans hf)]
      constructor
      · intro h
        cases h
      · rintro ⟨_ | ⟨g, before⟩, field, after, heq, hbefore, hfield⟩
        · obtain ⟨rfl, -⟩ := List.cons.inj heq
          rw [hf] at hfield
          cases hfield
        · obtain ⟨rfl, -⟩ := List.cons.inj heq
          simpa [hf] using hbefore f List.mem_cons_self
    | some first =>
      rw [leadingItems_cons_of_some ((hresolve f).trans hf), List.mem_cons]
      constructor
      · rintro (rfl | hitem)
        · exact ⟨[], f, fields, rfl, by simp, hf⟩
        · obtain ⟨before, field, after, rfl, hbefore, hfield⟩ := ih.1 hitem
          exact ⟨f :: before, field, after, rfl, by simpa [hf] using hbefore, hfield⟩
      · rintro ⟨_ | ⟨g, before⟩, field, after, heq, hbefore, hfield⟩
        · obtain ⟨rfl, -⟩ := List.cons.inj heq
          rw [hf] at hfield
          exact .inl (Option.some.inj hfield).symm
        · obtain ⟨rfl, htail⟩ := List.cons.inj heq
          exact .inr (ih.2 ⟨before, field, after, htail,
            fun h hh => hbefore h (List.mem_cons_of_mem _ hh), hfield⟩)

/-- The items that a line binds, for the parser: those of its tokens, if it is a header. -/
theorem binds_iff {registry : Registry} {raw : List Char} {item : ItemId} :
    Binds registry raw item ↔
      ∃ tokens, Line.ofText raw = .header tokens ∧ item ∈ (leadingItems registry tokens).1 := by
  unfold Binds
  simp only [ofText_eq_header_iff]
  constructor
  · rintro ⟨hheader, hfield⟩
    exact ⟨_, ⟨hheader, rfl⟩, mem_leadingItems_iff.2 hfield⟩
  · rintro ⟨_, ⟨hheader, rfl⟩, hitem⟩
    exact ⟨hheader, mem_leadingItems_iff.1 hitem⟩

/-! ## Lines below a header -/

/-- What a line changes in the rule of the section that it stands in. -/
def change (raw : List Char) (r : Rule) : Rule :=
  match Line.ofText raw with
  | .option text =>
    match readOption text with
    | .ok (key, groups) => key.apply groups r
    | .error _ => r
  | _ => r

/-- A text is read as the key with its letters. -/
theorem ofText?_eq_some_iff {name : List Char} {key : OptionKey} :
    OptionKey.ofText? name = some key ↔
      Text.foldCase (String.ofList (trim name)) = key.name := by
  unfold OptionKey.ofText?
  dsimp only
  constructor
  · intro h
    have hname : key.name = Text.foldCase (String.ofList (trim name)) := by
      simpa using List.find?_some h
    exact hname.symm
  · intro h
    rw [h]
    cases key with
    | exempt => rfl
    | restrict action => cases action <;> rfl

/-- All keys start with one of two letters. -/
theorem toLower_of_ofText? {name : List Char} {c : Char} {cs : List Char} {key : OptionKey}
    (h : OptionKey.ofText? name = some key) (hname : trim name = c :: cs) :
    c.toLower = 'i' ∨ c.toLower = 'o' := by
  have hhead : key.name.toList.head? = some c.toLower := by
    rw [← ofText?_eq_some_iff.1 h, hname]
    simp [Text.foldCase]
  cases key with
  | exempt => exact .inl (Option.some.inj hhead).symm
  | restrict action => cases action <;> exact .inr (Option.some.inj hhead).symm

/-- A line that sets an option starts with the key of the option, so it is neither a comment nor a
header. -/
theorem ofText_of_readOption {raw : List Char} {key : OptionKey} {groups : List String}
    (h : readOption (trim raw) = .ok (key, groups)) : Line.ofText raw = .option (trim raw) := by
  unfold readOption at h
  split at h
  · cases h
  · next name value hcut =>
    have hraw := Text.eq_append_of_cut? hcut
    split at h
    · cases h
    · split at h
      · cases h
      · next k hkey =>
        cases name with
        | nil =>
          have hnone : OptionKey.ofText? [] = none := by decide
          rw [hnone] at hkey
          cases hkey
        | cons c cs =>
          have hblank : Text.isBlank c = false := Text.isBlank_of_trim_eq_cons hraw
          have hlower := toLower_of_ofText? hkey (Text.trim_cons_of_not_blank cs hblank)
          have hsemicolon : c ≠ ';' := by rintro rfl; revert hlower; decide
          have hnumber : c ≠ '#' := by rintro rfl; revert hlower; decide
          have hbracket : c ≠ '[' := by rintro rfl; revert hlower; decide
          unfold Line.ofText Line.ofTrimmed
          rw [hraw]
          simp [isComment, bracketed?, hsemicolon, hnumber, hbracket]

/-- What a line sets is what the parser reads from it. -/
theorem setting?_eq (key : OptionKey) (raw : List Char) :
    setting? key raw =
      match readOption (trim raw) with
      | .ok (k, groups) => if k = key then some groups else none
      | .error _ => none := by
  unfold setting? readOption
  cases cut? '=' (trim raw) with
  | none => rfl
  | some parts =>
    obtain ⟨name, value⟩ := parts
    dsimp only
    cases trim value with
    | nil => simp
    | cons c cs =>
      simp only [← ofText?_eq_some_iff]
      cases OptionKey.ofText? name <;> simp [groupsOf]

theorem eq_trim_of_ofText {raw text : List Char} (h : Line.ofText raw = .option text) :
    text = trim raw := by
  unfold Line.ofText Line.ofTrimmed at h
  split at h
  · cases h
  · split at h
    · cases h
    · exact (Line.option.inj h).symm

/-- A line changes what it sets. -/
theorem change_eq (raw : List Char) (r : Rule) :
    change raw r =
      match readOption (trim raw) with
      | .ok (key, groups) => key.apply groups r
      | .error _ => r := by
  unfold change
  split
  · next text htext => rw [eq_trim_of_ofText htext]
  · next hno =>
    split
    · next hread => exact absurd (ofText_of_readOption hread) (hno _)
    · rfl

theorem permitted_change (raw : List Char) (r : Rule) (action : Action) :
    (change raw r).permitted action =
      (setting? (.restrict action) raw).or (r.permitted action) := by
  rw [change_eq, setting?_eq]
  cases readOption (trim raw) with
  | error cause => rfl
  | ok option =>
    obtain ⟨key, groups⟩ := option
    cases key with
    | exempt => simp [OptionKey.apply]
    | restrict a => by_cases ha : a = action <;> simp [OptionKey.apply, ha]

theorem exempt_change (raw : List Char) (r : Rule) :
    (change raw r).exempt = (setting? .exempt raw).getD r.exempt := by
  rw [change_eq, setting?_eq]
  cases readOption (trim raw) with
  | error cause => rfl
  | ok option =>
    obtain ⟨key, groups⟩ := option
    cases key <;> simp [OptionKey.apply]

/-- Changing the rule line by line leaves the last setting of each option. -/
theorem foldl_change (lines : List (List Char)) (r : Rule) :
    (lines.foldl (fun r raw => change raw r) r).exempt =
        (lastSetting? .exempt lines).getD r.exempt ∧
      ∀ action, (lines.foldl (fun r raw => change raw r) r).permitted action =
        (lastSetting? (.restrict action) lines).or (r.permitted action) := by
  induction lines generalizing r with
  | nil => exact ⟨rfl, fun action => rfl⟩
  | cons raw lines ih =>
    obtain ⟨hexempt, hpermitted⟩ := ih (change raw r)
    refine ⟨?_, fun action => ?_⟩
    · rw [List.foldl_cons, hexempt, exempt_change, lastSetting?_cons]
      cases lastSetting? .exempt lines <;> rfl
    · rw [List.foldl_cons, hpermitted, permitted_change, lastSetting?_cons, Option.or_assoc]

/-- The lines below a header make their rule out of the one without restrictions. -/
theorem foldl_change_unrestricted (lines : List (List Char)) :
    lines.foldl (fun r raw => change raw r) .unrestricted = ruleOf lines := by
  obtain ⟨hexempt, hpermitted⟩ := foldl_change lines .unrestricted
  refine Rule.ext_permitted hexempt fun action => ?_
  rw [hpermitted, permitted_ruleOf]
  cases action <;> simp [Rule.permitted, Rule.unrestricted]

end ItemGuard.Blacklist
