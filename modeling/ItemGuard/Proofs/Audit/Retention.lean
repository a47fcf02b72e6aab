import ItemGuard.Proofs.Audit.Appending
import ItemGuard.Proofs.Audit.Run
import Mathlib.Data.List.Induction

/-!
# What an audit log retains

The files of a log, read from the oldest one to the active one, end with all that was written
lately: what they hold is a suffix of what they held once and all lines since (`retains_after`). A
line goes to the end of the active file, or into a new one when the oldest file goes (`Adds`), so
nothing is lost in between and no line is split. This needs the places of the numbered files to be
free of directories, among them those that opening the log makes (`retention_climbing`).
-/

namespace ItemGuard.Audit

open Storage (Files Location Path)
open RollingLog (lineBytes rolledPath)

/-- The lines of the records that steps write. -/
def linesOf (steps : List LogStep) : Bytes :=
  (steps.filterMap LogStep.record?).flatMap fun r => lineBytes r.json

/-- The record that steps write last. -/
def lastRecord? (steps : List LogStep) : Option Record :=
  (steps.filterMap LogStep.record?).getLast?

/-- The paths of the files of a log, that of the oldest one first. -/
def paths (path : String) (count : Nat) : List String :=
  ((List.range (count - 1)).reverse.map fun k => rolledPath path (k + 1)) ++ [path]

theorem exists_numbered_of_mem_paths {path p : String} {count : Nat} (h : p ∈ paths path count) :
    ∃ k ≤ count - 1, p = numbered path k := by
  rcases List.mem_append.1 h with hrolled | hactive
  · obtain ⟨k, hk, rfl⟩ := List.mem_map.1 hrolled
    exact ⟨k + 1, List.mem_range.1 (List.mem_reverse.1 hk), rfl⟩
  · exact ⟨0, Nat.zero_le _, List.mem_singleton.1 hactive⟩

/-- What the files of a log hold, the oldest one first; a missing file counts as empty. -/
def contents (path : String) (count : Nat) (fs : Files) : List Bytes :=
  (paths path count).map fs.contentOf

/-- What is at the places to which the paths of the files point, whether or not there is a way. -/
def contentsInPlace (path : String) (count : Nat) (fs : Files) : List Bytes :=
  (paths path count).map fs.held

/-- The bytes are put at the end of the last content, or the first content goes and they are one of
their own. -/
def Adds (bytes : Bytes) (old new : List Bytes) : Prop :=
  (∃ before active, old = before ++ [active] ∧ new = before ++ [active ++ bytes]) ∨
    new = old.tail ++ [bytes]

theorem Adds.flatten_suffix {bytes : Bytes} {old new : List Bytes} (h : Adds bytes old new) :
    new.flatten <:+ old.flatten ++ bytes := by
  rcases h with ⟨before, active, rfl, rfl⟩ | rfl
  · simp
  · cases old with
    | nil => simp
    | cons first rest => exact ⟨first, by simp⟩

theorem Adds.suffix_contentOf {path : String} {count : Nat} {bytes : Bytes} {old : List Bytes}
    {fs : Files} (h : Adds bytes old (contents path count fs)) : bytes <:+ fs.contentOf path := by
  have hlast : (contents path count fs).getLast? = some (fs.contentOf path) := by
    simp [contents, paths]
  rcases h with ⟨before, active, -, hnew⟩ | hnew
  · rw [hnew, List.getLast?_concat] at hlast
    exact ⟨active, Option.some.inj hlast⟩
  · rw [hnew, List.getLast?_concat] at hlast
    have heq := Option.some.inj hlast
    exact heq ▸ List.suffix_rfl

/-! ## The contents of a log -/

section Contents

variable {path : String} {count : Nat} {loc : Nat → Location} {fs : Files}

theorem contents_eq (h : Layout path count loc fs) :
    contents path count fs =
      ((List.range (count - 1)).reverse.map fun k => fs.contentAt (loc (k + 1))) ++
        [fs.contentAt (loc 0)] := by
  have hactive : fs.contentOf path = fs.contentAt (loc 0) :=
    (h.names 0 (Nat.zero_le _)).contentOf_eq
  unfold contents paths
  rw [List.map_append, List.map_map, List.map_singleton, hactive]
  congr 1
  refine List.map_congr_left fun k hk => ?_
  have hlt := List.mem_range.1 (List.mem_reverse.1 hk)
  exact (h.names (k + 1) hlt).contentOf_eq

theorem tail_contents (h : Layout path count loc fs) :
    (contents path count fs).tail =
      (List.range (count - 1)).reverse.map fun k => fs.contentAt (loc k) := by
  have hall : contents path count fs =
      (List.range (count - 1 + 1)).reverse.map fun k => fs.contentAt (loc k) := by
    rw [contents_eq h, List.range_succ_eq_map]
    simp [Function.comp_def]
  rw [hall, List.range_succ, List.reverse_concat, List.map_cons, List.tail_cons]

theorem Active.adds_put {log : RollingLog} (h : Active log loc fs) (bytes : Bytes) :
    Adds bytes (contents log.path log.count fs)
      (contents log.path log.count (log.put bytes fs).2) := by
  have hput : Layout log.path log.count loc (log.put bytes fs).2 := (h.put bytes).layout
  refine .inl ⟨_, _, contents_eq h.layout, ?_⟩
  rw [contents_eq hput, h.contentAt_put, if_pos rfl]
  congr 1
  refine List.map_congr_left fun k _ => ?_
  rw [h.contentAt_put, if_neg]
  intro heq
  cases h.layout.distinct heq

/-- A rotation drops the oldest content, and what is written behind it is the newest one. -/
theorem contents_rotated {log : RollingLog} (h : Layout log.path log.count loc fs)
    (bytes : Bytes) :
    contents log.path log.count ((rotated log loc fs).1.put bytes (rotated log loc fs).2).2 =
      (contents log.path log.count fs).tail ++ [bytes] := by
  have hrotated := active_rotated h
  have hput : Layout log.path log.count loc
      ((rotated log loc fs).1.put bytes (rotated log loc fs).2).2 := (hrotated.put _).layout
  have hactive : (rotated log loc fs).2.contentAt (loc 0) = [] := by
    rw [contentAt_rotated h, if_pos rfl]
  rw [contents_eq hput, tail_contents h, hrotated.contentAt_put, if_pos rfl, hactive,
    List.nil_append]
  congr 1
  refine List.map_congr_left fun k hk => ?_
  have hk := List.mem_range.1 (List.mem_reverse.1 hk)
  have hne : loc (k + 1) ≠ loc 0 := by
    intro heq
    cases h.distinct heq
  rw [hrotated.contentAt_put, if_neg hne, contentAt_rotated h, if_neg hne,
    contentAt_rollOver_succ h hk]

theorem Active.adds_appended {log : RollingLog} (h : Active log loc fs) (line : String) :
    Adds (lineBytes line) (contents log.path log.count fs)
      (contents log.path log.count (appended log loc line fs).2) := by
  unfold appended
  split
  · exact .inr (contents_rotated h.layout _)
  · exact h.adds_put _

end Contents

/-! ## Loggers -/

namespace Logger

variable {s : AuditSettings} {env : Environment} {path : String} {loc : Nat → Location}

/-- The log of the settings is open. -/
def Opened (s : AuditSettings) (path : String) (loc : Nat → Location) (l : Logger)
    (fs : Files) : Prop :=
  ∃ log, l.file = some log ∧ log.path = path ∧ log.limit = s.fileLimit ∧
    log.count = s.fileCount ∧ Active log loc fs

theorem Opened.write {l : Logger} {fs : Files} (h : Opened s path loc l fs) (r : Record) :
    (l.write r fs).result = .ok () ∧ Opened s path loc (l.write r fs).sink (l.write r fs).files ∧
      Adds (lineBytes r.json) (contents path s.fileCount fs)
        (contents path s.fileCount (l.write r fs).files) := by
  obtain ⟨log, hfile, rfl, hlimit, hcount, hactive⟩ := h
  have hwrite := write_of_append hfile (hactive.layout.append_eq r.json)
  obtain ⟨hpath, hlimit', hcount'⟩ := appended_settings log loc r.json fs
  rw [hwrite, ← hcount]
  exact ⟨rfl, ⟨_, rfl, hpath, hlimit'.trans hlimit, hcount'.trans hcount, hactive.append _⟩,
    hactive.adds_appended _⟩

theorem Opened.reopen {l : Logger} {fs : Files} (hpath : s.filePath env = some path)
    (h : Opened s path loc l fs) :
    Opened s path loc (opening s env fs).1 fs ∧ (opening s env fs).2 = fs := by
  obtain ⟨log, -, hlogpath, hlimit, hcount, hactive⟩ := h
  rw [opening_of_attached hpath ⟨hlogpath, hlimit, hcount⟩ hactive.attached]
  exact ⟨⟨_, rfl, hlogpath, hlimit, hcount, hactive.reopened⟩, rfl⟩

/-- What holds after every step, for what the files held at first. -/
structure Retains (s : AuditSettings) (path : String) (loc : Nat → Location) (first : Bytes)
    (steps : List LogStep) (state : Logger × Files) : Prop where
  opened : Opened s path loc state.1 state.2
  suffix : (contents path s.fileCount state.2).flatten <:+ first ++ linesOf steps
  last : ∀ r, lastRecord? steps = some r → lineBytes r.json <:+ state.2.contentOf path

theorem Retains.step {first : Bytes} {steps : List LogStep} {state : Logger × Files}
    (hpath : s.filePath env = some path) (h : Retains s path loc first steps state) (x : LogStep) :
    Retains s path loc first (steps ++ [x]) (step s env state x) := by
  obtain ⟨l, fs⟩ := state
  cases x with
  | write r =>
    obtain ⟨-, hopened, hadds⟩ := h.opened.write r
    refine ⟨hopened, ?_, ?_⟩
    -- the line follows the old contents, of which all but the first file are still there
    · have hlines : linesOf (steps ++ [.write r]) = linesOf steps ++ lineBytes r.json := by
        simp [linesOf, LogStep.record?]
      obtain ⟨before, hsuffix⟩ := h.suffix
      rw [hlines, ← List.append_assoc, ← hsuffix, List.append_assoc]
      exact hadds.flatten_suffix.trans (List.suffix_append before _)
    · intro r' hr'
      have heq : r = r' := by simpa [lastRecord?, LogStep.record?] using hr'
      subst heq
      exact hadds.suffix_contentOf
  | reopen =>
    obtain ⟨hopened, hfiles⟩ := h.opened.reopen hpath
    have hrecords : (steps ++ [LogStep.reopen]).filterMap LogStep.record? =
        steps.filterMap LogStep.record? := by simp [LogStep.record?]
    have hstep : Logger.step s env (l, fs) .reopen = ((opening s env fs).1, fs) :=
      congrArg (Prod.mk _) hfiles
    rw [hstep]
    refine ⟨hopened, ?_, ?_⟩
    · unfold linesOf
      rw [hrecords]
      exact h.suffix
    · unfold lastRecord?
      rw [hrecords]
      exact h.last

theorem Retains.after {first : Bytes} {state : Logger × Files}
    (hpath : s.filePath env = some path) (h : Retains s path loc first [] state)
    (steps : List LogStep) : Retains s path loc first steps (after s env state steps) := by
  induction steps using List.reverseRecOn with
  | nil => exact h
  | append_singleton steps x ih =>
    rw [after_concat]
    exact ih.step hpath x

theorem opened_opening {start : Files} (hwf : start.WellFormed)
    (hpath : s.filePath env = some path) (hopen : (opening s env start).1.file.isSome = true)
    (hfits : ∀ k, 1 ≤ k → k < s.fileCount → (Path.ofText (rolledPath path k)).Fits)
    (hregular : ∀ k, 1 ≤ k → k < s.fileCount →
      (opening s env start).2.isDirectory (.ofText (rolledPath path k)) = false) :
    ∃ loc, Opened s path loc (opening s env start).1 (opening s env start).2 ∧
      contents path s.fileCount (opening s env start).2 = contentsInPlace path s.fileCount start ∧
      (".." ∉ (Path.ofText path).names ∨ start.HasParent path →
        contents path s.fileCount start = contentsInPlace path s.fileCount start) := by
  obtain ⟨log, hlog⟩ := Option.isSome_iff_exists.1 hopen
  obtain ⟨path', hpath', hcreate⟩ := log_of_opening hlog
  obtain rfl : path = path' := Option.some.inj (hpath.symm.trans hpath')
  obtain ⟨hlogpath, hlimit, hcount⟩ := ofSettings_of_create hcreate
  obtain ⟨loc, hactive, hheld⟩ := active_of_create hwf hcreate
    (fun k hpos hlt => (hfits k hpos hlt).short) hregular
  have hplaces : ∀ p ∈ paths path s.fileCount,
      (opening s env start).2.contentOf p = start.held p ∧
        (".." ∉ (Path.ofText path).names ∨ start.HasParent path →
          start.contentOf p = start.held p) := by
    intro p hp
    obtain ⟨k, hk, rfl⟩ := exists_numbered_of_mem_paths hp
    exact hheld k hk
  exact ⟨loc, ⟨log, hlog, hlogpath, hlimit, hcount, hactive⟩,
    List.map_congr_left fun p hp => (hplaces p hp).1,
    fun hway => List.map_congr_left fun p hp => (hplaces p hp).2 hway⟩

/-- **Retention.** Let the log of the settings be opened, with short enough paths for all its files
and no directory in the place of one. After any steps the files hold, in order, a suffix of what
they held at first and of all lines since, and the last line ends the active file. The next record is
written, at the end of the active file or to a new one while the oldest one goes, and to open the log
again changes nothing. What the files held at first is what their paths led to, unless these climb
with `..` through a directory that was missing then. -/
theorem retains_after (s : AuditSettings) (env : Environment) (start : Files) (path : String)
    (hwf : start.WellFormed) (hpath : s.filePath env = some path)
    (hopen : (opening s env start).1.file.isSome = true)
    (hfits : ∀ k, 1 ≤ k → k < s.fileCount → (Path.ofText (rolledPath path k)).Fits)
    (hregular : ∀ k, 1 ≤ k → k < s.fileCount →
      (opening s env start).2.isDirectory (.ofText (rolledPath path k)) = false)
    (steps : List LogStep) :
    let first := opening s env start
    let state := after s env first steps
    let held := contents path s.fileCount
    (".." ∉ (Path.ofText path).names ∨ start.HasParent path →
      held start = contentsInPlace path s.fileCount start) ∧
    held first.2 = contentsInPlace path s.fileCount start ∧
    (held state.2).flatten <:+ (contentsInPlace path s.fileCount start).flatten ++ linesOf steps ∧
    (∀ r, lastRecord? steps = some r → lineBytes r.json <:+ state.2.contentOf path) ∧
    (∀ r, (state.1.write r state.2).result = .ok () ∧
      Adds (lineBytes r.json) (held state.2) (held (state.1.write r state.2).files)) ∧
    (opening s env state.2).1.file.isSome = true ∧ (opening s env state.2).2 = state.2 := by
  intro first state held
  obtain ⟨loc, hopened, hfirst, hstart⟩ := opened_opening hwf hpath hopen hfits hregular
  have hbegin : Retains s path loc (contentsInPlace path s.fileCount start).flatten [] first := by
    refine ⟨hopened, ?_, ?_⟩
    · rw [hfirst]
      simp [linesOf]
    · intro r hr
      cases hr
  have hretains := hbegin.after hpath steps
  obtain ⟨⟨log, hlog, -⟩, hfiles⟩ := hretains.opened.reopen hpath
  refine ⟨hstart, hfirst, hretains.suffix, hretains.last, fun r => ?_, ?_, hfiles⟩
  · obtain ⟨hresult, -, hadds⟩ := hretains.opened.write r
    exact ⟨hresult, hadds⟩
  · exact Option.isSome_iff_exists.2 ⟨log, hlog⟩

/-- A log of three files of at most one line each, in an empty directory. -/
theorem retains_after_fresh :
    let s : AuditSettings := ⟨false, some "a.log", 1, 3⟩
    let env : Environment := ⟨none, none⟩
    let r : Record := ⟨⟨0, 0⟩, "alex", ⟨7⟩, .destroy, "destroy of item 7 denied"⟩
    let first := opening s env (Files.emptyAt [])
    let steps := [.write r, .write r, .reopen, .write r, .write r]
    (contents "a.log" s.fileCount (after s env first steps).2).flatten <:+
      (contentsInPlace "a.log" s.fileCount (Files.emptyAt [])).flatten ++ linesOf steps := by
  intro s env r first steps
  have hfits : ∀ k < 3, 1 ≤ k → (Path.ofText (rolledPath "a.log" k)).Fits := by decide +kernel
  have hregular : ∀ k < 3, 1 ≤ k →
      first.2.isDirectory (.ofText (rolledPath "a.log" k)) = false := by decide +kernel
  have hpath : s.filePath env = some "a.log" := by decide +kernel
  have hopen : first.1.file.isSome = true := by decide +kernel
  have hretains := retains_after s env (Files.emptyAt []) "a.log" (Files.wellFormed_emptyAt [])
    hpath hopen (fun k hpos hlt => hfits k hlt hpos) (fun k hpos hlt => hregular k hlt hpos) steps
  exact hretains.2.2.1

/-- None of the files of this log is there, and its path climbs through a directory with the name of
one of them, which is made when the log is opened. The rotation before the second line moves that
directory away, and then the path leads nowhere. -/
theorem retention_climbing :
    let s : AuditSettings := ⟨false, some "a.log.1/../a.log", 1, 3⟩
    let env : Environment := ⟨none, none⟩
    let r : Record := ⟨⟨0, 0⟩, "alex", ⟨7⟩, .destroy, "no"⟩
    let first := opening s env (Files.emptyAt [])
    (∀ p ∈ paths "a.log.1/../a.log" 3,
        (Path.ofText p).Fits ∧ (Files.emptyAt []).pathExists p = false) ∧
      first.1.file.isSome = true ∧
      (outcomes s env first [.write r, .write r]).map (·.result) = [.ok (), .error .notFound] := by
  decide +kernel

end Logger
end ItemGuard.Audit
