import ItemGuard.Proofs.Audit.Retention
import ItemGuard.Proofs.Json.Spelling
import ItemGuard.Text.Lines

/-!
# One record a line

The text of a record has no control character in it, whatever its actor is called, and each of its
fields ends where its text says (`fields_of_json_eq`): no name can pass for another field or another
record. So as long as a log that was empty at first is not rolled over, the lines of its file are
the texts of the records that were written, one a line in their order (`framed_after`).
-/

namespace ItemGuard.Audit

open Storage (Files Location)
open RollingLog (lineBytes)
open Text (decimal lines utf8)

namespace Record

/-! ## Texts of records -/

theorem printed_of_mem_json (r : Record) : ∀ c ∈ r.json.toList, 0x20 ≤ c.toNat := by
  have hfield : ∀ (name : String) (value : List Char), (∀ c ∈ value, 0x20 ≤ c.toNat) →
      ∀ c ∈ field name value, 0x20 ≤ c.toNat := by
    intro name value hvalue c hc
    rcases List.mem_append.1 hc with hname | hrest
    · exact Json.printed_of_mem_quote hname
    · rcases List.mem_cons.1 hrest with rfl | hmem
      · decide
      · exact hvalue c hmem
  have hdecimal : ∀ n, ∀ c ∈ decimal n, 0x20 ≤ c.toNat := by
    intro n c hc
    have hrange := Text.toNat_of_isDigit (Text.isDigit_of_mem_decimal hc)
    omega
  have hquote : ∀ s, ∀ c ∈ Json.quote s, 0x20 ≤ c.toNat := fun s c => Json.printed_of_mem_quote
  have hfields : ∀ f ∈ r.fields, ∀ c ∈ f, 0x20 ≤ c.toNat := by
    intro f hf
    simp only [fields, List.mem_cons, List.not_mem_nil, or_false] at hf
    rcases hf with rfl | rfl | rfl | rfl | rfl | rfl | rfl
    case inr.inr.inr.inl => exact hfield _ _ (hdecimal _)
    all_goals exact hfield _ _ (hquote _)
  intro c hc
  rw [json, String.toList_ofList, List.cons_append, List.mem_cons, List.mem_append] at hc
  rcases hc with rfl | hinner | hend
  · decide
  · rcases Text.eq_or_mem_of_mem_intercalate hinner with rfl | ⟨f, hf, hmem⟩
    · decide
    · exact hfields f hf c hmem
  · obtain rfl := List.mem_singleton.1 hend
    decide

theorem field_quote_append_inj {name s s' : String} {rest rest' : List Char}
    (h : field name (Json.quote s) ++ rest = field name (Json.quote s') ++ rest') :
    s = s' ∧ rest = rest' := by
  simp only [field, List.append_assoc, List.cons_append, List.append_cancel_left_eq,
    List.cons.injEq, true_and] at h
  exact Json.quote_append_inj h

/-- A number ends before a comma. -/
theorem field_decimal_append_inj {name : String} {m n : Nat} {rest rest' : List Char}
    (h : field name (decimal m) ++ ',' :: rest = field name (decimal n) ++ ',' :: rest') :
    m = n ∧ rest = rest' := by
  simp only [field, List.append_assoc, List.cons_append, List.append_cancel_left_eq,
    List.cons.injEq, true_and] at h
  have hcut : ∀ (n : Nat) (rest : List Char),
      Text.cut? ',' (decimal n ++ ',' :: rest) = some (decimal n, rest) := by
    intro n rest
    exact Text.cut?_append_cons rest fun hmem =>
      absurd (Text.isDigit_of_mem_decimal hmem) (by decide)
  have heq := hcut m rest
  rw [h, hcut n rest'] at heq
  obtain ⟨hdigits, hrest⟩ := Prod.mk.inj (Option.some.inj heq)
  exact ⟨(Text.decimal_inj.1 hdigits).symm, hrest.symm⟩

/-- The fields of a record can be told from its text. -/
theorem fields_of_json_eq {r r' : Record} (h : r.json = r'.json) :
    r.time.text = r'.time.text ∧ r.actor = r'.actor ∧ r.item = r'.item ∧ r.action = r'.action ∧
      r.reason = r'.reason := by
  have hchars := congrArg String.toList h
  simp only [json, fields, String.toList_ofList, List.intercalate_cons_cons,
    List.intercalate_singleton, List.append_assoc, List.cons_append, List.nil_append,
    List.cons.injEq, true_and] at hchars
  obtain ⟨htime, hchars⟩ := field_quote_append_inj hchars
  obtain ⟨-, hchars⟩ := field_quote_append_inj (List.cons.inj hchars).2
  obtain ⟨hactor, hchars⟩ := field_quote_append_inj (List.cons.inj hchars).2
  obtain ⟨hitem, hchars⟩ := field_decimal_append_inj (List.cons.inj hchars).2
  obtain ⟨haction, hchars⟩ := field_quote_append_inj hchars
  obtain ⟨-, hchars⟩ := field_quote_append_inj (List.cons.inj hchars).2
  obtain ⟨hreason, -⟩ := field_quote_append_inj (List.cons.inj hchars).2
  refine ⟨htime, hactor, ?_, Action.name_inj haction, hreason⟩
  rw [← r.item.ofNat_toNat, hitem, ItemId.ofNat_toNat]

end Record

/-! ## Texts of files -/

/-- The text of some records, one a line. -/
def linesText (records : List Record) : String :=
  String.ofList ((records.map fun r => r.json.toList).flatMap fun line => line ++ ['\n'])

theorem utf8_linesText (records : List Record) :
    utf8 (linesText records) = records.flatMap fun r => lineBytes r.json := by
  unfold utf8 linesText
  rw [String.toList_ofList, List.flatMap_map, List.flatMap_assoc]
  refine List.flatMap_congr fun r _ => ?_
  rw [List.flatMap_append, lineBytes, utf8]
  rfl

theorem lines_linesText (records : List Record) :
    lines (linesText records).toList = records.map fun r => r.json.toList := by
  rw [linesText, String.toList_ofList]
  apply Text.lines_flatMap_newline
  intro line hline hmem
  obtain ⟨r, -, rfl⟩ := List.mem_map.1 hline
  exact absurd (r.printed_of_mem_json _ hmem) (by decide)

namespace Logger

variable {s : AuditSettings} {env : Environment} {path : String} {first : Logger × Files}
  {steps : List LogStep}

/-- The log need not be rolled over for a step. -/
def HasRoom (state : Logger × Files) (x : LogStep) : Prop :=
  ∀ r log, x = .write r → state.1.file = some log →
    log.isFull (lineBytes r.json).length = false

/-- The log need not be rolled over for any of the steps. -/
def Unrolled (s : AuditSettings) (env : Environment) (first : Logger × Files)
    (steps : List LogStep) : Prop :=
  ∀ before x rest, steps = before ++ x :: rest → HasRoom (after s env first before) x

theorem unrolled_concat {x : LogStep} :
    Unrolled s env first (steps ++ [x]) ↔
      Unrolled s env first steps ∧ HasRoom (after s env first steps) x := by
  constructor
  · intro h
    refine ⟨fun before y rest heq => ?_, h steps x [] rfl⟩
    exact h before y (rest ++ [x]) (by rw [heq, List.append_assoc, List.cons_append])
  · rintro ⟨hsteps, hx⟩ before y rest heq
    rcases List.eq_nil_or_concat' rest with rfl | ⟨rest, z, rfl⟩
    · obtain ⟨rfl, hlast⟩ := List.append_inj' heq rfl
      cases hlast
      exact hx
    · have heq' : steps ++ [x] = (before ++ y :: rest) ++ [z] := by
        rw [heq, List.append_assoc, List.cons_append]
      exact hsteps before y rest (List.append_inj' heq' rfl).1

theorem linesOf_append (steps steps' : List LogStep) :
    linesOf (steps ++ steps') = linesOf steps ++ linesOf steps' := by
  simp [linesOf]

theorem linesOf_write (r : Record) : linesOf [.write r] = lineBytes r.json := by
  simp [linesOf, LogStep.record?]

/-- The log of the settings is open, and its file holds the lines of the steps. -/
def Holds (s : AuditSettings) (path : String) (steps : List LogStep)
    (state : Logger × Files) : Prop :=
  ∃ log loc, Running s path log loc state ∧ state.2.content log.handle.file = linesOf steps

theorem holds_opening {start : Files} (hpath : s.filePath env = some path)
    (hopen : (opening s env start).1.file.isSome = true)
    (hfresh : (opening s env start).2.contentOf path = []) :
    Holds s path [] (opening s env start) := by
  obtain ⟨log, loc, hrunning, -⟩ := running_opening hpath hopen
  refine ⟨log, loc, hrunning, ?_⟩
  obtain ⟨-, ⟨rfl, -⟩, hattached⟩ := hrunning
  rw [← hattached.contentOf_eq]
  exact hfresh

theorem Holds.write {l : Logger} {fs : Files} {r : Record} (h : Holds s path steps (l, fs))
    (hroom : HasRoom (l, fs) (.write r)) :
    (l.write r fs).result = .ok () ∧
      Holds s path (steps ++ [.write r]) ((l.write r fs).sink, (l.write r fs).files) := by
  obtain ⟨log, loc, ⟨hfile, hsettings, hattached⟩, hcontent⟩ := h
  have happend := append_of_not_isFull (hroom r log rfl hfile) fs
  have hwrite := write_of_append hfile happend
  rw [hwrite]
  refine ⟨rfl, _, loc, ⟨rfl, hsettings.append happend, hattached.put _⟩, ?_⟩
  have hsame : (log.put (lineBytes r.json) fs).1.handle.file = log.handle.file := by
    rw [hattached.tracks.put_eq, file_advance]
  rw [hattached.tracks.content_put, if_pos hsame, hsame, hcontent, linesOf_append, linesOf_write]

theorem Holds.reopen {state : Logger × Files} (hpath : s.filePath env = some path)
    (h : Holds s path steps state) :
    Holds s path (steps ++ [.reopen]) (step s env state .reopen) := by
  obtain ⟨log, loc, hrunning, hcontent⟩ := h
  obtain ⟨hreopened, hfiles⟩ := hrunning.reopen hpath
  refine ⟨_, loc, hreopened, ?_⟩
  rw [hfiles, linesOf_append]
  exact hcontent.trans (List.append_nil _).symm

theorem Holds.after (hpath : s.filePath env = some path) (h : Holds s path [] first)
    (hroom : Unrolled s env first steps) :
    Holds s path steps (Logger.after s env first steps) ∧
      ∀ out ∈ outcomes s env first steps, out.result = .ok () := by
  induction steps using List.reverseRecOn with
  | nil => exact ⟨h, fun out hout => absurd hout List.not_mem_nil⟩
  | append_singleton steps x ih =>
    obtain ⟨hsteps, hx⟩ := unrolled_concat.1 hroom
    obtain ⟨hholds, hok⟩ := ih hsteps
    rw [after_concat, outcomes_concat]
    generalize Logger.after s env first steps = state at hx hholds
    obtain ⟨l, fs⟩ := state
    cases x with
    | reopen =>
      refine ⟨hholds.reopen hpath, ?_⟩
      rwa [written?, Option.toList_none, List.append_nil]
    | write r =>
      obtain ⟨hresult, hwritten⟩ := hholds.write hx
      refine ⟨hwritten, fun out hout => ?_⟩
      rcases List.mem_append.1 hout with hold | hnew
      · exact hok out hold
      · rwa [List.mem_singleton.1 hnew]

/-- There is room for lines that fit into the limit together, and for any lines without one. -/
theorem unrolled_of_fits (hpath : s.filePath env = some path) (h : Holds s path [] first)
    (hfits : s.fileLimit = 0 ∨ (linesOf steps).length ≤ s.fileLimit) :
    Unrolled s env first steps := by
  induction steps using List.reverseRecOn with
  | nil =>
    intro before x rest heq
    cases before <;> cases heq
  | append_singleton steps x ih =>
    rw [linesOf_append, List.length_append] at hfits
    have hsteps := ih (hfits.imp_right fun hlength => by omega)
    obtain ⟨⟨log, loc, ⟨hfile, hsettings, hattached⟩, hcontent⟩, -⟩ := h.after hpath hsteps
    refine unrolled_concat.2 ⟨hsteps, ?_⟩
    rintro r log' rfl hlog'
    obtain rfl := Option.some.inj (hfile.symm.trans hlog')
    rw [linesOf_write, ← hcontent, ← hattached.tracks.written, ← hsettings.2.1] at hfits
    rw [Bool.eq_false_iff]
    simp only [RollingLog.isFull, Ne, Bool.and_eq_true, decide_eq_true_eq, not_and, not_lt]
    omega

/-- **One record a line.** No text of a record has a control character in it, and records with equal
texts have equal fields. Let the log of the settings be opened with nothing in its file, and let
some steps leave it room. Then every write succeeds, the file is a text that ends with its last
line, and its lines are the texts of the records that were written, in their order. -/
theorem framed_after (s : AuditSettings) (env : Environment) (start : Files) (path : String)
    (hpath : s.filePath env = some path)
    (hopen : (opening s env start).1.file.isSome = true)
    (hfresh : (opening s env start).2.contentOf path = []) (steps : List LogStep)
    (hroom : Unrolled s env (opening s env start) steps) :
    let first := opening s env start
    let state := after s env first steps
    (∀ r : Record, ∀ c ∈ r.json.toList, 0x20 ≤ c.toNat) ∧
    (∀ r r' : Record, r.json = r'.json →
      r.time.text = r'.time.text ∧ r.actor = r'.actor ∧ r.item = r'.item ∧
        r.action = r'.action ∧ r.reason = r'.reason) ∧
    (∀ out ∈ outcomes s env first steps, out.result = .ok ()) ∧
    ∃ text, state.2.readText path = .ok text ∧ Text.Terminated text.toList ∧
      lines text.toList = (steps.filterMap LogStep.record?).map fun r => r.json.toList := by
  intro first state
  refine ⟨Record.printed_of_mem_json, fun r r' => Record.fields_of_json_eq, ?_⟩
  obtain ⟨⟨last, loc, ⟨-, ⟨rfl, -⟩, hattached⟩, hcontent⟩, hok⟩ :=
    (holds_opening hpath hopen hfresh).after hpath hroom
  refine ⟨hok, linesText (steps.filterMap LogStep.record?), ?_, ?_, lines_linesText _⟩
  · have hread : state.2.readBytes last.path = .ok (linesOf steps) := by
      rw [hattached.readBytes_eq, hcontent]
    unfold Files.readText
    rw [hread, linesOf, ← utf8_linesText]
    simp [bind, Except.bind, Text.ofUtf8?_utf8]
  · rw [linesText, String.toList_ofList]
    exact Text.terminated_flatMap_newline _

/-- Two names that try to close their quotes and end their lines, and a log of 400 bytes. -/
theorem framed_after_forgery :
    let s : AuditSettings := ⟨false, some "a.log", 400, 3⟩
    let env : Environment := ⟨none, none⟩
    let r : Record := ⟨⟨0, 0⟩, "alex\",\n", ⟨7⟩, .destroy, "no"⟩
    let r' : Record := ⟨⟨0, 0⟩, "steve\\", ⟨7⟩, .leftClick, "no"⟩
    let state := after s env (opening s env (Files.emptyAt [])) [.write r, .reopen, .write r']
    ∃ text, state.2.readText "a.log" = .ok text ∧
      lines text.toList = [r.json.toList, r'.json.toList] := by
  intro s env r r' state
  have hpath : s.filePath env = some "a.log" := by decide +kernel
  have hopen : (opening s env (Files.emptyAt [])).1.file.isSome = true := by decide +kernel
  have hfresh : (opening s env (Files.emptyAt [])).2.contentOf "a.log" = [] := by decide +kernel
  have hfits : (linesOf [.write r, .reopen, .write r']).length ≤ s.fileLimit := by decide +kernel
  have hroom := unrolled_of_fits hpath (holds_opening hpath hopen hfresh) (.inr hfits)
  obtain ⟨-, -, -, text, hread, -, hlines⟩ :=
    framed_after s env (Files.emptyAt []) "a.log" hpath hopen hfresh _ hroom
  exact ⟨text, hread, hlines⟩

end Logger
end ItemGuard.Audit
