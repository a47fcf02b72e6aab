import ItemGuard.Proofs.Blacklist.Overlay
import ItemGuard.Proofs.Text.Trimming

/-!
# Blacklists that are written

A clause says what a section is to mean: the items that it governs and the groups that it sets for
some of the options. `write` makes the text of a list of clauses. Reading the text gives every item
the last clause that lists it, under any registry, and finds nothing wrong (`read_write`).
-/

namespace ItemGuard.Blacklist

open Text (cut? decimal isBlank lines splitOn trim)

/-- The name of a group that can stand in a list of groups. -/
structure GroupName where
  chars : List Char
  ne_nil : chars ≠ []
  head_not_blank : ∀ c, chars.head? = some c → isBlank c = false
  last_not_blank : ∀ c, chars.getLast? = some c → isBlank c = false
  comma_notMem : ',' ∉ chars
  newline_notMem : '\n' ∉ chars

/-- What a section is to say. -/
structure Clause where
  items : List ItemId
  options : List (OptionKey × List GroupName)
  items_ne_nil : items ≠ []
  keys_nodup : (options.map Prod.fst).Nodup

/-- The ids in decimal between brackets. -/
def headerOf (items : List ItemId) : List Char :=
  '[' :: [','].intercalate (items.map fun item => decimal item.toNat) ++ [']']

/-- The text of a list of groups: a comma alone if there is none, since no text is no value. -/
def listOf (groups : List GroupName) : List Char :=
  if groups = [] then [','] else [','].intercalate (groups.map GroupName.chars)

def optionOf (option : OptionKey × List GroupName) : List Char :=
  option.1.name.toList ++ '=' :: listOf option.2

namespace Clause

def lines (c : Clause) : List (List Char) :=
  headerOf c.items :: c.options.map optionOf

/-- The groups that the clause sets for an option. -/
def groups? (c : Clause) (key : OptionKey) : Option (List String) :=
  (c.options.lookup key).map fun groups => groups.map fun g => String.ofList g.chars

def rule (c : Clause) : Rule where
  exempt := (c.groups? .exempt).getD []
  destroy := c.groups? (.restrict .destroy)
  leftClick := c.groups? (.restrict .leftClick)
  rightClick := c.groups? (.restrict .rightClick)

end Clause

/-- The text of some clauses, with a line feed at the end of each line. -/
def write (clauses : List Clause) : String :=
  String.ofList ((clauses.flatMap Clause.lines).flatMap fun line => line ++ ['\n'])

/-! ## Headers -/

theorem leadingItems_decimal (registry : Registry) (items : List ItemId) :
    leadingItems registry (items.map fun item => decimal item.toNat) = (items, none) := by
  induction items with
  | nil => rfl
  | cons item items ih =>
    have hresolve : registry.resolveTrimmed (decimal item.toNat) = some item := by
      unfold Registry.resolveTrimmed
      rw [Text.unsigned?_decimal item.toNat_lt_bound]
      exact congrArg some item.ofNat_toNat
    rw [List.map_cons, leadingItems, hresolve, ih]

theorem ofText_headerOf {items : List ItemId} (hne : items ≠ []) :
    Line.ofText (headerOf items) = .header (items.map fun item => decimal item.toNat) := by
  have hcomma : ∀ f ∈ items.map fun item => decimal item.toNat, ',' ∉ f := by
    intro f hf hmem
    obtain ⟨item, -, rfl⟩ := List.mem_map.1 hf
    exact absurd (Text.isDigit_of_mem_decimal hmem) (by decide)
  have htrim : trim (headerOf items) = headerOf items := by
    apply Text.trim_of_ends
    · rintro c ⟨⟩
      decide
    · intro c hc
      rw [headerOf, List.getLast?_concat] at hc
      cases hc
      decide
  have hheader : IsHeader (headerOf items) := by
    unfold IsHeader
    rw [htrim]
    refine ⟨rfl, List.getLast?_concat, ?_⟩
    simp [headerOf]
  have hfields : (items.map fun item => decimal item.toNat) ≠ [] := by simpa using hne
  have hinner : (trim (headerOf items)).tail.dropLast =
      [','].intercalate (items.map fun item => decimal item.toNat) := by
    rw [htrim, headerOf, List.cons_append, List.tail_cons, List.dropLast_concat]
  have hfilled : [','].intercalate (items.map fun item => decimal item.toNat) ≠ [] := by
    intro hnil
    have hsplit := Text.splitOn_intercalate hfields hcomma
    rw [hnil] at hsplit
    have hempty : [] ∈ items.map fun item => decimal item.toNat := hsplit ▸ List.mem_singleton.2 rfl
    obtain ⟨item, -, heq⟩ := List.mem_map.1 hempty
    exact Text.decimal_ne_nil _ heq
  refine ofText_eq_header_iff.2 ⟨hheader, ?_⟩
  unfold fieldsOf
  dsimp only
  rw [hinner, if_neg hfilled, Text.splitOn_intercalate hfields hcomma,
    List.rdropWhile_eq_self_iff.2, List.map_map]
  · exact List.map_congr_left fun item _ => Text.trim_decimal item.toNat
  · intro hne' hlast
    obtain ⟨item, -, heq⟩ := List.mem_map.1 (List.getLast_mem hne')
    exact Text.decimal_ne_nil _ (heq.trans (List.isEmpty_iff.1 hlast))

/-! ## Options -/

theorem ends_listOf (groups : List GroupName) :
    (∃ c, (listOf groups).head? = some c ∧ isBlank c = false) ∧
      ∃ c, (listOf groups).getLast? = some c ∧ isBlank c = false := by
  have hhead : ∀ g : GroupName, ∃ c, g.chars.head? = some c ∧ isBlank c = false := fun g =>
    ⟨g.chars.head g.ne_nil, List.head?_eq_some_head g.ne_nil,
      g.head_not_blank _ (List.head?_eq_some_head g.ne_nil)⟩
  have hlast : ∀ g : GroupName, ∃ c, g.chars.getLast? = some c ∧ isBlank c = false := fun g =>
    ⟨g.chars.getLast g.ne_nil, List.getLast?_eq_some_getLast g.ne_nil,
      g.last_not_blank _ (List.getLast?_eq_some_getLast g.ne_nil)⟩
  unfold listOf
  split
  next => exact ⟨⟨',', rfl, by decide⟩, ⟨',', rfl, by decide⟩⟩
  next hne =>
    constructor
    · obtain ⟨g, groups, rfl⟩ := List.exists_cons_of_ne_nil hne
      obtain ⟨c, hc, hblank⟩ := hhead g
      refine ⟨c, ?_, hblank⟩
      cases groups with
      | nil => simpa using hc
      | cons g' groups =>
        rw [List.map_cons, List.map_cons, List.intercalate_cons_cons, List.append_assoc,
          List.head?_append, hc]
        rfl
    · obtain rfl | ⟨groups, g, rfl⟩ := List.eq_nil_or_concat groups
      · exact absurd rfl hne
      obtain ⟨c, hc, hblank⟩ := hlast g
      refine ⟨c, ?_, hblank⟩
      rw [List.concat_eq_append, List.map_append, List.map_singleton]
      cases groups with
      | nil => simpa using hc
      | cons g' groups =>
        rw [Text.intercalate_concat ',' (by simp), List.getLast?_append, List.getLast?_cons, hc]
        rfl

theorem groupsOf_listOf (groups : List GroupName) :
    groupsOf (listOf groups) = groups.map fun g => String.ofList g.chars := by
  unfold listOf
  split
  next hnil =>
    subst hnil
    decide
  next hne =>
    have hcomma : ∀ f ∈ groups.map GroupName.chars, ',' ∉ f := by
      intro f hf
      obtain ⟨g, -, rfl⟩ := List.mem_map.1 hf
      exact g.comma_notMem
    have htrim : (groups.map GroupName.chars).map trim = groups.map GroupName.chars := by
      rw [List.map_map]
      exact List.map_congr_left fun g _ => Text.trim_of_ends g.head_not_blank g.last_not_blank
    have hfilled : (groups.map GroupName.chars).filter (fun f => !f.isEmpty) =
        groups.map GroupName.chars := by
      rw [List.filter_eq_self]
      intro f hf
      obtain ⟨g, -, rfl⟩ := List.mem_map.1 hf
      simpa using g.ne_nil
    rw [groupsOf, Text.splitOn_intercalate (by simpa using hne) hcomma, htrim, hfilled,
      List.map_map]
    rfl

/-- The keys stand for themselves, with a letter at their start. -/
theorem readable_key (key : OptionKey) :
    '=' ∉ key.name.toList ∧ '\n' ∉ key.name.toList ∧
      OptionKey.ofText? key.name.toList = some key ∧
      ∃ c, key.name.toList.head? = some c ∧ isBlank c = false := by
  have hname : '=' ∉ key.name.toList ∧ '\n' ∉ key.name.toList ∧
      OptionKey.ofText? key.name.toList = some key ∧
      (key.name.toList.head?.any fun c => !isBlank c) = true := by
    cases key with
    | exempt => decide
    | restrict action => cases action <;> decide
  obtain ⟨hequals, hnewline, hkey, hhead⟩ := hname
  obtain ⟨c, hc, hblank⟩ := (Option.any_eq_true _ _).1 hhead
  exact ⟨hequals, hnewline, hkey, c, hc, by simpa using hblank⟩

theorem readOption_optionOf (option : OptionKey × List GroupName) :
    trim (optionOf option) = optionOf option ∧
      readOption (optionOf option) =
        .ok (option.1, option.2.map fun g => String.ofList g.chars) := by
  obtain ⟨key, groups⟩ := option
  obtain ⟨hequals, -, hkey, c, hc, hblank⟩ := readable_key key
  obtain ⟨⟨d, hd, hdblank⟩, e, he, heblank⟩ := ends_listOf groups
  have hhead : (optionOf (key, groups)).head? = some c := by
    rw [optionOf, List.head?_append, hc]
    rfl
  have hlast : (optionOf (key, groups)).getLast? = some e := by
    rw [optionOf, List.getLast?_append, List.getLast?_cons, he]
    rfl
  have hvalue : (trim (listOf groups)).isEmpty = false := by
    obtain ⟨ds, hds⟩ := List.head?_eq_some_iff.1 hd
    rw [hds, Text.trim_cons_of_not_blank ds hdblank]
    rfl
  constructor
  · apply Text.trim_of_ends
    · intro c' hc'
      rwa [← Option.some.inj (hhead.symm.trans hc')]
    · intro e' he'
      rwa [← Option.some.inj (hlast.symm.trans he')]
  · rw [readOption, optionOf, Text.cut?_append_cons _ hequals]
    dsimp only
    rw [if_neg (by simp [hvalue]), hkey, groupsOf_listOf]

/-! ## Whole texts -/

section

variable {registry : Registry}

theorem ofText_optionOf (option : OptionKey × List GroupName) :
    Line.ofText (optionOf option) = .option (optionOf option) := by
  obtain ⟨htrim, hread⟩ := readOption_optionOf option
  rw [← htrim] at hread
  rw [ofText_of_readOption hread, htrim]

theorem not_isHeader_optionOf (option : OptionKey × List GroupName) :
    ¬ IsHeader (optionOf option) := by
  apply not_isHeader_of_ofText
  intro tokens h
  rw [ofText_optionOf] at h
  cases h

theorem lastSetting?_options (key : OptionKey) {options : List (OptionKey × List GroupName)}
    (hkeys : (options.map Prod.fst).Nodup) :
    lastSetting? key (options.map optionOf) =
      (options.lookup key).map fun groups => groups.map fun g => String.ofList g.chars := by
  induction options with
  | nil => rfl
  | cons option options ih =>
    obtain ⟨k, groups⟩ := option
    obtain ⟨hfresh, hnodup⟩ := List.nodup_cons.1 hkeys
    obtain ⟨htrim, hread⟩ := readOption_optionOf (k, groups)
    rw [List.map_cons, lastSetting?_cons, ih hnodup, setting?_eq, htrim, hread, List.lookup_cons]
    dsimp only
    by_cases hk : k = key
    · subst hk
      have hnone : options.lookup k = none := by
        rw [List.lookup_eq_none_iff]
        intro o ho
        have hne : o.1 ≠ k := fun heq => hfresh (List.mem_map.2 ⟨o, ho, heq⟩)
        simpa using Ne.symm hne
      simp [hnone]
    · have hkey : (key == k) = false := by simpa using Ne.symm hk
      simp [hk, hkey]

theorem ruleOf_options (c : Clause) : ruleOf (c.options.map optionOf) = c.rule := by
  simp only [ruleOf, lastSetting?_options _ c.keys_nodup]
  rfl

theorem newline_notMem_of_mem_lines {c : Clause} {line : List Char} (h : line ∈ c.lines) :
    '\n' ∉ line := by
  have hfields : ∀ fields : List (List Char), (∀ f ∈ fields, '\n' ∉ f) →
      '\n' ∉ [','].intercalate fields := by
    intro fields hfields hmem
    rcases Text.eq_or_mem_of_mem_intercalate hmem with heq | ⟨f, hf, hnewline⟩
    · exact absurd heq (by decide)
    · exact hfields f hf hnewline
  rcases List.mem_cons.1 h with rfl | hoption
  · have hinner := hfields (c.items.map fun item => decimal item.toNat) (by
      intro f hf hmem
      obtain ⟨item, -, rfl⟩ := List.mem_map.1 hf
      exact absurd (Text.isDigit_of_mem_decimal hmem) (by decide))
    simp [headerOf, hinner]
  · obtain ⟨⟨key, groups⟩, -, rfl⟩ := List.mem_map.1 hoption
    have hlist : '\n' ∉ listOf groups := by
      unfold listOf
      split
      next => decide
      next =>
        apply hfields
        intro f hf
        obtain ⟨g, -, rfl⟩ := List.mem_map.1 hf
        exact g.newline_notMem
    simp [optionOf, (readable_key key).2.1, hlist]

theorem lines_write (clauses : List Clause) :
    lines (write clauses).toList = clauses.flatMap Clause.lines := by
  rw [write, String.toList_ofList]
  apply Text.lines_flatMap_newline
  intro line hline
  obtain ⟨c, -, hc⟩ := List.mem_flatMap.1 hline
  exact newline_notMem_of_mem_lines hc

/-- Lines that are no headers belong to the section above them. -/
theorem sectionsOf_append_of_not_header (registry : Registry) {as : List (List Char)}
    (h : ∀ raw ∈ as, ¬ IsHeader raw) (bs : List (List Char)) :
    sectionsOf registry (as ++ bs) = sectionsOf registry bs ∧
      linesBelow (as ++ bs) = as ++ linesBelow bs := by
  induction as with
  | nil => exact ⟨rfl, rfl⟩
  | cons raw as ih =>
    have hraw := h raw List.mem_cons_self
    obtain ⟨hsections, hlines⟩ := ih fun r hr => h r (List.mem_cons_of_mem _ hr)
    rw [List.cons_append, linesBelow_cons_of_not_header _ hraw, hlines,
      sectionsOf_cons_of_not_header registry _ fun tokens htokens =>
        hraw (isHeader_iff_ofText.2 ⟨tokens, htokens⟩), hsections]
    exact ⟨rfl, rfl⟩

variable (registry) in
/-- The sections are those that the clauses say. -/
theorem sectionsOf_clauses (clauses : List Clause) :
    sectionsOf registry (clauses.flatMap Clause.lines) =
        clauses.map (fun c => ⟨c.items, c.options.map optionOf⟩) ∧
      linesBelow (clauses.flatMap Clause.lines) = [] := by
  induction clauses with
  | nil => exact ⟨rfl, rfl⟩
  | cons c clauses ih =>
    obtain ⟨hsections, hlines⟩ := ih
    have hheader := ofText_headerOf c.items_ne_nil
    have hoptions : ∀ raw ∈ c.options.map optionOf, ¬ IsHeader raw := by
      intro raw hraw
      obtain ⟨option, -, rfl⟩ := List.mem_map.1 hraw
      exact not_isHeader_optionOf option
    have happend := sectionsOf_append_of_not_header registry hoptions
      (clauses.flatMap Clause.lines)
    rw [List.flatMap_cons, Clause.lines, List.cons_append, sectionsOf, hheader]
    dsimp only
    rw [happend.1, happend.2, hsections, hlines, leadingItems_decimal, List.append_nil,
      linesBelow_cons_of_header _ (isHeader_iff_ofText.2 ⟨_, hheader⟩)]
    exact ⟨rfl, rfl⟩

/-- Nothing is wrong with the lines of a clause, and a header stands above its options. -/
theorem noticesFrom_clauses (n : Nat) (headed : Bool) (clauses : List Clause) :
    noticesFrom registry n headed (clauses.flatMap Clause.lines) = [] := by
  have hoptions : ∀ (options : List (OptionKey × List GroupName)) (n : Nat),
      noticesFrom registry n true (options.map optionOf) = [] := by
    intro options
    induction options with
    | nil => exact fun n => rfl
    | cons option options ih =>
      intro n
      have hcause : causeOf registry true (optionOf option) = none := by
        rw [causeOf, ofText_optionOf]
        dsimp only
        rw [if_pos rfl, (readOption_optionOf option).2]
      rw [List.map_cons, noticesFrom, hcause, Bool.true_or, ih]
      rfl
  induction clauses generalizing n headed with
  | nil => rfl
  | cons c clauses ih =>
    have hheader := ofText_headerOf c.items_ne_nil
    have hcause : causeOf registry headed (headerOf c.items) = none := by
      rw [causeOf, hheader]
      dsimp only
      rw [leadingItems_decimal]
      rfl
    have hheaded : (headed || decide (IsHeader (headerOf c.items))) = true := by
      rw [decide_eq_true (isHeader_iff_ofText.2 ⟨_, hheader⟩), Bool.or_true]
    rw [List.flatMap_cons, Clause.lines, List.cons_append, noticesFrom, hcause, hheaded,
      noticesFrom_append, hoptions, ih]
    rfl

end

/-- **Writing and reading.** The text of some clauses is read without a notice, whatever names the
registry knows. The items of the clauses have rules and no other items do; each has the rule of the
last clause that lists it. -/
theorem read_write (registry : Registry) (clauses : List Clause) :
    let report := read registry (write clauses)
    report.notices = [] ∧ (report.ruleset? = none ↔ clauses = []) ∧
      ∀ item, (report.Configures item ↔ ∃ c ∈ clauses, item ∈ c.items) ∧
        report.rule? item =
          (clauses.filter fun c => item ∈ c.items).getLast?.map Clause.rule := by
  intro report
  have hsections : ∀ item, sectionsWith registry item (lines (write clauses).toList) =
      (clauses.filter fun c => item ∈ c.items).map fun c => ⟨c.items, c.options.map optionOf⟩ := by
    intro item
    rw [lines_write, sectionsWith, (sectionsOf_clauses registry clauses).1, List.filter_map]
    rfl
  have hrule : ∀ item, report.rule? item =
      (clauses.filter fun c => item ∈ c.items).getLast?.map Clause.rule := by
    intro item
    rw [Report.rule?, (rule?_read _).1, rule?_draftOf, hsections, List.getLast?_map, Option.map_map]
    simp only [Function.comp_def, ruleOf_options]
  have hconfigures : ∀ item, report.Configures item ↔ ∃ c ∈ clauses, item ∈ c.items := by
    intro item
    rw [Report.Configures, (rule?_read _).2, ← (rule?_read _).1]
    change (report.rule? item).isSome = true ↔ _
    rw [hrule, Option.isSome_map, Option.isSome_iff_ne_none, Ne, List.getLast?_eq_none_iff,
      List.filter_eq_nil_iff]
    simp
  refine ⟨?_, ?_, fun item => ⟨hconfigures item, hrule item⟩⟩
  · rw [notices_read, lines_write, noticesFrom_clauses]
  · have hnone : report.ruleset? = none ↔ ∀ item, ¬ report.Configures item := by
      simp only [report, ruleset?_read, Draft.build?_eq_none_iff, configures_read_iff,
        Option.not_isSome_iff_eq_none]
    rw [hnone]
    constructor
    · intro h
      cases clauses with
      | nil => rfl
      | cons c clauses =>
        obtain ⟨item, items, hitems⟩ := List.exists_cons_of_ne_nil c.items_ne_nil
        exact absurd ((hconfigures item).2 ⟨c, List.mem_cons_self, by simp [hitems]⟩) (h item)
    · rintro rfl item hitem
      obtain ⟨c, hc, -⟩ := (hconfigures item).1 hitem
      cases hc

/-- A section with two options, one of them without a group. -/
example :
    let group : GroupName := ⟨"a=b;".toList, List.cons_ne_nil _ _, by rintro _ ⟨⟩; decide,
      by rintro _ ⟨⟩; decide, by decide, by decide⟩
    write [⟨[⟨1⟩, ⟨22⟩], [(.exempt, []), (.restrict .leftClick, [group, group])], by decide,
      by decide⟩] = "[1,22]\nignore-groups=,\non-left=a=b;,a=b;\n" := by
  decide

end ItemGuard.Blacklist
