import ItemGuard.Guard.Reload
import ItemGuard.Proofs.Blacklist.Notices

/-!
# What is wrong with a blacklist

`Flawed` says what is wrong with a line, without a parser: it takes the line itself, the registry,
and of the lines above only whether one of them is a header. A report has one notice for every line
with something wrong, under the number of the line, and no others; guards report them in this order
(`notices_iff_flawed`).
-/

namespace ItemGuard

open Blacklist

namespace Blacklist

open Text (cut? lines trim)

/-- The line says something and is no header. -/
def IsOption (raw : List Char) : Prop :=
  ¬ IsSilent raw ∧ ¬ IsHeader raw

/-- No `=` stands in the line, or nothing but blanks behind the first one. -/
def LacksValue (raw : List Char) : Prop :=
  '=' ∉ trim raw ∨ ∃ name value, trim raw = name ++ '=' :: value ∧ '=' ∉ name ∧ trim value = []

/-- What is wrong with a line that has some lines above it. -/
inductive Flawed (registry : Registry) (above : List (List Char)) (raw : List Char) : Cause → Prop
  /-- A field of a header names no item; the first such field counts. -/
  | unknownItem {before after : List (List Char)} {field : List Char} (header : IsHeader raw)
    (fields : fieldsOf raw = before ++ field :: after)
    (known : ∀ f ∈ before, (registry.resolve (String.ofList f)).isSome)
    (unknown : registry.resolve (String.ofList field) = none) :
    Flawed registry above raw (.unknownItem (String.ofList (trim field)))
  | noSection (option : IsOption raw) (preamble : ∀ line ∈ above, ¬ IsHeader line) :
    Flawed registry above raw (.noSection (String.ofList (trim raw)))
  | missingValue (option : IsOption raw) (headed : ∃ line ∈ above, IsHeader line)
    (lacks : LacksValue raw) :
    Flawed registry above raw (.missingValue (String.ofList (trim raw)))
  /-- The key, in capital or small letters, is none of the four. -/
  | unknownOption {name value : List Char} (option : IsOption raw)
    (headed : ∃ line ∈ above, IsHeader line) (parts : trim raw = name ++ '=' :: value)
    (first : '=' ∉ name) (filled : trim value ≠ [])
    (unknown : ∀ key : OptionKey, Text.foldCase (String.ofList (trim name)) ≠ key.name) :
    Flawed registry above raw (.unknownOption (String.ofList (trim name)))

variable {registry : Registry} {above : List (List Char)} {raw : List Char}

/-! ## Single lines -/

/-- The parser stops at the first field that names no item. -/
theorem stop_leadingItems_iff {fields : List (List Char)} {token : List Char} :
    (leadingItems registry (fields.map trim)).2 = some token ↔
      ∃ before field after, fields = before ++ field :: after ∧
        (∀ f ∈ before, (registry.resolve (String.ofList f)).isSome) ∧
        registry.resolve (String.ofList field) = none ∧ trim field = token := by
  have hresolve : ∀ f : List Char,
      registry.resolveTrimmed (trim f) = registry.resolve (String.ofList f) := by
    intro f
    rw [Registry.resolve, String.toList_ofList]
  induction fields with
  | nil => simp [leadingItems]
  | cons f fields ih =>
    rw [List.map_cons, leadingItems, hresolve]
    cases hf : registry.resolve (String.ofList f) with
    | none =>
      constructor
      · intro h
        exact ⟨[], f, fields, rfl, by simp, hf, Option.some.inj h⟩
      · rintro ⟨_ | ⟨g, before⟩, field, after, heq, hbefore, -, rfl⟩
        · rw [(List.cons.inj heq).1]
        · obtain ⟨rfl, -⟩ := List.cons.inj heq
          simpa [hf] using hbefore f List.mem_cons_self
    | some item =>
      refine ih.trans ⟨?_, ?_⟩
      · rintro ⟨before, field, after, rfl, hbefore, h⟩
        exact ⟨f :: before, field, after, rfl, by simpa [hf] using hbefore, h⟩
      · rintro ⟨_ | ⟨g, before⟩, field, after, heq, hbefore, hfield, h⟩
        · obtain ⟨rfl, -⟩ := List.cons.inj heq
          rw [hf] at hfield
          cases hfield
        · obtain ⟨rfl, htail⟩ := List.cons.inj heq
          exact ⟨before, field, after, htail, fun g hg => hbefore g (List.mem_cons_of_mem _ hg),
            hfield, h⟩

/-- The parser takes as an option what is neither silent nor a header. -/
theorem ofText_eq_option_iff {text : List Char} :
    Line.ofText raw = .option text ↔ IsOption raw ∧ trim raw = text := by
  constructor
  · intro h
    refine ⟨⟨fun hsilent => ?_, fun hheader => ?_⟩, (eq_trim_of_ofText h).symm⟩
    · rw [ofText_eq_silent_iff.2 hsilent] at h
      cases h
    · rw [ofText_eq_header_iff.2 ⟨hheader, rfl⟩] at h
      cases h
  · rintro ⟨⟨hsilent, hheader⟩, rfl⟩
    cases h : Line.ofText raw with
    | silent => exact absurd (ofText_eq_silent_iff.1 h) hsilent
    | header tokens => exact absurd (ofText_eq_header_iff.1 h).1 hheader
    | option text => rw [eq_trim_of_ofText h]

/-- A header is flawed by the token that the parser stops at. -/
theorem flawed_header_iff (h : IsHeader raw) {cause : Cause} :
    Flawed registry above raw cause ↔
      ∃ token, (leadingItems registry ((fieldsOf raw).map trim)).2 = some token ∧
        cause = .unknownItem (String.ofList token) := by
  constructor
  · intro hflawed
    cases hflawed with
    | unknownItem _ fields known unknown =>
      exact ⟨_, stop_leadingItems_iff.2 ⟨_, _, _, fields, known, unknown, rfl⟩, rfl⟩
    | noSection option => exact absurd h option.2
    | missingValue option => exact absurd h option.2
    | unknownOption option => exact absurd h option.2
  · rintro ⟨token, htoken, rfl⟩
    obtain ⟨before, field, after, hfields, hknown, hunknown, rfl⟩ := stop_leadingItems_iff.1 htoken
    exact .unknownItem h hfields hknown hunknown

/-- An option below a header is flawed by what the parser refuses it for. -/
theorem flawed_option_iff (h : IsOption raw) (headed : ∃ line ∈ above, IsHeader line)
    {cause : Cause} :
    Flawed registry above raw cause ↔ readOption (trim raw) = .error cause := by
  unfold readOption
  constructor
  · intro hflawed
    cases hflawed with
    | unknownItem header => exact absurd header h.2
    | noSection _ preamble =>
      obtain ⟨line, hmem, hline⟩ := headed
      exact absurd hline (preamble line hmem)
    | missingValue _ _ lacks =>
      rcases lacks with hno | ⟨name, value, hparts, hname, hblank⟩
      · rw [Text.cut?_eq_none_iff.2 hno]
      · rw [Text.cut?_eq_some_iff.2 ⟨hparts, hname⟩]
        simp [hblank]
    | @unknownOption name value _ _ hparts hname filled unknown =>
      have hkey : OptionKey.ofText? name = none := by
        rw [Option.eq_none_iff_forall_ne_some]
        intro key hkey
        exact unknown key (ofText?_eq_some_iff.1 hkey)
      rw [Text.cut?_eq_some_iff.2 ⟨hparts, hname⟩]
      simp [filled, hkey]
  · intro hread
    split at hread
    next hcut =>
      cases hread
      exact .missingValue h headed (.inl (Text.cut?_eq_none_iff.1 hcut))
    next name value hcut =>
      obtain ⟨hparts, hname⟩ := Text.cut?_eq_some_iff.1 hcut
      split at hread
      next hblank =>
        cases hread
        exact .missingValue h headed
          (.inr ⟨name, value, hparts, hname, List.isEmpty_iff.1 hblank⟩)
      next hfilled =>
        split at hread
        next hkey =>
          cases hread
          refine .unknownOption h headed hparts hname (mt List.isEmpty_iff.2 hfilled) ?_
          intro key heq
          rw [ofText?_eq_some_iff.2 heq] at hkey
          cases hkey
        next => cases hread

/-- What the parser finds wrong with a line is what is wrong with it. -/
theorem causeOf_eq_some_iff {cause : Cause} :
    causeOf registry (above.any fun line => decide (IsHeader line)) raw = some cause ↔
      Flawed registry above raw cause := by
  unfold causeOf
  cases hraw : Line.ofText raw with
  | silent =>
    have hsilent := ofText_eq_silent_iff.1 hraw
    constructor
    · intro h
      cases h
    · intro hflawed
      cases hflawed with
      | unknownItem header => exact absurd header (not_isHeader_of_isSilent hsilent)
      | noSection option => exact absurd hsilent option.1
      | missingValue option => exact absurd hsilent option.1
      | unknownOption option => exact absurd hsilent option.1
  | header tokens =>
    obtain ⟨hheader, rfl⟩ := ofText_eq_header_iff.1 hraw
    rw [flawed_header_iff hheader, Option.map_eq_some_iff]
    simp only [eq_comm]
  | option text =>
    obtain ⟨hoption, rfl⟩ := ofText_eq_option_iff.1 hraw
    by_cases headed : ∃ line ∈ above, IsHeader line
    · have hany : (above.any fun line => decide (IsHeader line)) = true := by simpa using headed
      rw [flawed_option_iff hoption headed]
      dsimp only
      rw [if_pos hany]
      cases readOption (trim raw) <;> simp
    · have hany : ¬ (above.any fun line => decide (IsHeader line)) = true := by simpa using headed
      dsimp only
      rw [if_neg hany]
      constructor
      · intro h
        cases h
        exact .noSection hoption fun line hmem hline => headed ⟨line, hmem, hline⟩
      · intro hflawed
        cases hflawed with
        | unknownItem header => exact absurd header hoption.2
        | noSection => rfl
        | missingValue _ h => exact absurd h headed
        | unknownOption _ h => exact absurd h headed

/-! ## Whole texts -/

theorem line_mem_noticesFrom {k : Nat} {headed : Bool} {ls : List (List Char)} {n : Notice}
    (h : n ∈ noticesFrom registry k headed ls) : k ≤ n.line ∧ n.line < k + ls.length := by
  induction ls generalizing k headed with
  | nil => cases h
  | cons raw rest ih =>
    rw [noticesFrom] at h
    rw [List.length_cons]
    rcases List.mem_append.1 h with hfirst | hrest
    · obtain ⟨cause, -, rfl⟩ := Option.map_eq_some_iff.1 (Option.mem_toList.1 hfirst)
      dsimp only
      omega
    · have hline := ih hrest
      omega

theorem pairwise_noticesFrom (k : Nat) (headed : Bool) (ls : List (List Char)) :
    (noticesFrom registry k headed ls).Pairwise fun m n => m.line < n.line := by
  induction ls generalizing k headed with
  | nil => exact .nil
  | cons raw rest ih =>
    rw [noticesFrom, List.pairwise_append]
    refine ⟨?_, ih _ _, ?_⟩
    · cases causeOf registry headed raw <;> simp
    · intro m hm n hn
      obtain ⟨cause, -, rfl⟩ := Option.map_eq_some_iff.1 (Option.mem_toList.1 hm)
      have hline := (line_mem_noticesFrom hn).1
      dsimp only
      omega

variable (registry) in
/-- The notices of the lines above and below a line have other numbers. -/
theorem filter_noticesFrom (k : Nat) (headed : Bool) (above : List (List Char)) (raw : List Char)
    (below : List (List Char)) :
    (noticesFrom registry k headed (above ++ raw :: below)).filter
        (fun n => n.line = k + above.length) =
      ((causeOf registry (headed || above.any fun line => decide (IsHeader line)) raw).map
        fun cause => ⟨k + above.length, cause⟩).toList ∧
    (noticesFrom registry k headed (above ++ raw :: below)).filter
        (fun n => n.line ≠ k + above.length) =
      noticesFrom registry k headed above ++
        noticesFrom registry (k + above.length + 1)
          (headed || above.any (fun line => decide (IsHeader line)) || decide (IsHeader raw))
          below := by
  have habove : ∀ n ∈ noticesFrom registry k headed above, n.line ≠ k + above.length := by
    intro n hn
    have hline := (line_mem_noticesFrom hn).2
    omega
  have hbelow : ∀ n ∈ noticesFrom registry (k + above.length + 1)
      (headed || above.any (fun line => decide (IsHeader line)) || decide (IsHeader raw)) below,
      n.line ≠ k + above.length := by
    intro n hn
    have hline := (line_mem_noticesFrom hn).1
    omega
  rw [noticesFrom_append, noticesFrom]
  generalize noticesFrom registry k headed above = first at habove ⊢
  generalize noticesFrom registry (k + above.length + 1) _ below = last at hbelow ⊢
  generalize causeOf registry _ raw = cause?
  have hdrop : ∀ notices : List Notice, (∀ n ∈ notices, n.line ≠ k + above.length) →
      notices.filter (fun n => n.line = k + above.length) = [] ∧
        notices.filter (fun n => n.line ≠ k + above.length) = notices := by
    intro notices h
    exact ⟨List.filter_eq_nil_iff.2 (by simpa using h), List.filter_eq_self.2 (by simpa using h)⟩
  simp only [List.filter_append, (hdrop first habove).1, (hdrop first habove).2,
    (hdrop last hbelow).1, (hdrop last hbelow).2, List.nil_append, List.append_nil]
  cases cause? <;> simp

theorem Report.filter_warn (report : Report) (source : String) :
    (report.noticeLog source ++ [report.loadedLog source]).filter (fun d => d.level = .warn) =
      report.noticeLog source := by
  have hwarn : ∀ d ∈ report.noticeLog source, d.level = .warn := by
    intro d hd
    obtain ⟨n, -, rfl⟩ := List.mem_map.1 hd
    rfl
  have hinfo : (report.loadedLog source).level = .info := by
    unfold loadedLog
    split <;> rfl
  rw [List.filter_append, List.filter_eq_self.2 (by simpa using hwarn),
    List.filter_cons_of_neg (by simp [hinfo]), List.filter_nil, List.append_nil]

/-- **What is wrong with a blacklist.** Every line with something wrong has one notice under its
number, which says what, and no other line has any. The notices come in the order of the lines. What
a header binds plays no part in the notices of other lines. Where a guard loads the blacklist, the
notices are its warnings, in their order and tagged with the source, which plays no part in what is
loaded. -/
theorem notices_iff_flawed (registry : Registry) (source text : String) :
    let ls := lines text.toList
    let report := read registry text
    (∀ above raw below, ls = above ++ raw :: below →
      (∀ cause, Flawed registry above raw cause →
        report.notices.filter (fun n => n.line = above.length + 1) =
          [⟨above.length + 1, cause⟩]) ∧
      ((∀ cause, ¬ Flawed registry above raw cause) →
        ∀ n ∈ report.notices, n.line ≠ above.length + 1)) ∧
    (∀ n ∈ report.notices, 1 ≤ n.line ∧ n.line ≤ ls.length) ∧
    report.notices.Pairwise (fun m n => m.line < n.line) ∧
    (∀ above header below, ls = above ++ header :: below → IsHeader header →
      ∀ (text' : String) (header' : List Char), lines text'.toList = above ++ header' :: below →
        IsHeader header' →
        report.notices.filter (fun n => n.line ≠ above.length + 1) =
          (read registry text').notices.filter (fun n => n.line ≠ above.length + 1)) ∧
    ((report.noticeLog source).map fun d => (d.level, d.channel, d.message, d.fields)) =
      (report.notices.map fun n =>
        (.warn, .diagnostics, n.message, [("source", .text source)])) ∧
    ∀ {σ τ : Type} (g : Guard σ τ), g.registry = registry →
      let out := g.reloadFrom source text
      out.1 = report.outcome ∧ out.2.ruleset? = report.ruleset? ∧
        ∃ events, out.2.log = g.log ++ events ∧
          events.filter (fun d => d.level = .warn) = report.noticeLog source := by
  intro ls report
  have hnotices : report.notices = noticesFrom registry 1 false ls := notices_read registry text
  refine ⟨fun above raw below hls => ?_, fun n hn => ?_, ?_, ?_, ?_, fun g hg => ?_⟩
  · have hline := (filter_noticesFrom registry 1 false above raw below).1
    rw [← hls, ← hnotices, Bool.false_or, Nat.add_comm 1] at hline
    constructor
    · intro cause hflawed
      rw [hline, causeOf_eq_some_iff.2 hflawed]
      rfl
    · intro hnone n hn heq
      have hcause : causeOf registry (above.any fun line => decide (IsHeader line)) raw = none := by
        rw [Option.eq_none_iff_forall_ne_some]
        intro cause hcause
        exact hnone cause (causeOf_eq_some_iff.1 hcause)
      rw [hcause] at hline
      exact List.filter_eq_nil_iff.1 hline n hn (by simpa using heq)
  · rw [hnotices] at hn
    have hline := line_mem_noticesFrom hn
    omega
  · rw [hnotices]
    exact pairwise_noticesFrom 1 false ls
  · intro above header below hls hheader text' header' htext' hheader'
    rw [hnotices, notices_read, hls, htext', Nat.add_comm,
      (filter_noticesFrom registry 1 false above _ _).2,
      (filter_noticesFrom registry 1 false above _ _).2]
    simp [hheader, hheader']
  · rw [Report.noticeLog, List.map_map]
    rfl
  · subst hg
    exact ⟨rfl, rfl, _, rfl, report.filter_warn source⟩

/-- A header that stops at its second field has an option without a value below it. -/
theorem notices_iff_flawed_below_header :
    let text := "on-left=mods\n[1, bogus ]\n\n on-left \non-jump=mods"
    let registry : Registry := fun _ => none
    let report := read registry text
    Flawed registry ["on-left=mods".toList, "[1, bogus ]".toList, []] " on-left ".toList
      (.missingValue "on-left") ∧
      report.notices.filter (fun n => n.line = 4) = [⟨4, .missingValue "on-left"⟩] := by
  intro text registry report
  have hlines : lines text.toList =
      ["on-left=mods".toList, "[1, bogus ]".toList, []] ++
        " on-left ".toList :: ["on-jump=mods".toList] := by decide
  have hflawed : Flawed registry ["on-left=mods".toList, "[1, bogus ]".toList, []]
      " on-left ".toList (.missingValue "on-left") :=
    .missingValue (by unfold IsOption; decide) (by decide) (.inl (by decide))
  exact ⟨hflawed, ((notices_iff_flawed registry "blacklist" text).1 _ _ _ hlines).1 _ hflawed⟩

end Blacklist
end ItemGuard
