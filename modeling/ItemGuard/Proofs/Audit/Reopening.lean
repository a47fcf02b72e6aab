import ItemGuard.Proofs.Audit.LongNames
import ItemGuard.Proofs.Audit.Run

/-!
# Opening a log again

To drop a logger and open it again changes nothing that could be seen later: the writes have the
same results and the files are the same as without it (`reopening_changes_nothing`). A logger loses
only how its handle writes (`refresh`), and a write comes to the same either way, because both kinds
of handle write at the end of the file (`write_refresh`). What is opened again has to be as it was,
though: a write that fails must have changed nothing, which is so unless a directory stands in the
place of a numbered file (`reopening_after_failed_rotation`). Opening a log puts one there only if
its path climbs (`regular_opening`).
-/

namespace ItemGuard.Audit

open Storage (Failure Files Location Path)
open RollingLog (lineBytes rolledPath)

variable {log : RollingLog} {fs fs' : Files} {loc : Location}

/-! ## Logs -/

theorem rotate_reopened (log : RollingLog) (fs : Files) :
    (reopened log).rotate fs = log.rotate fs := rfl

theorem Tracks.reopen (h : Tracks log fs) : Tracks (reopened log) fs :=
  ⟨.inl rfl, h.written⟩

theorem Tracks.put_reopened (h : Tracks log fs) (bytes : Bytes) :
    ((reopened log).put bytes fs).2 = (log.put bytes fs).2 ∧
      reopened ((reopened log).put bytes fs).1 = reopened (log.put bytes fs).1 := by
  rw [h.put_eq, h.reopen.put_eq]
  refine ⟨rfl, ?_⟩
  unfold reopened
  simp only [file_advance]

/-- A log that was opened again writes a line as the log before it would have done. -/
theorem Tracks.append_reopened (h : Tracks log fs) (line : String) :
    ((reopened log).append line fs).2 = (log.append line fs).2 ∧
      ((reopened log).append line fs).1.map reopened = (log.append line fs).1.map reopened := by
  have hfull : (reopened log).isFull (lineBytes line).length =
      log.isFull (lineBytes line).length := rfl
  unfold RollingLog.append
  dsimp only
  rw [rotate_reopened, hfull]
  split
  · exact ⟨rfl, rfl⟩
  · obtain ⟨hfiles, hlog⟩ := h.put_reopened (lineBytes line)
    exact ⟨hfiles, congrArg Except.ok hlog⟩

/-! ## Directories in the way -/

section Create

variable {path : String} {limit count k : Nat} {start : Files}

/-- The directories around a path have fewer names than its numbered files. -/
theorem placeBelow_rolledPath_ne {outer : String} (h : fs.Names path loc)
    (haround : Path.Around outer path) :
    start.placeBelow (.ofText (rolledPath path k)) ≠ start.placeBelow (.ofText outer) := by
  obtain ⟨dir, name, hplace, -, -, hplain⟩ := h
  obtain ⟨around, hnames⟩ :=
    List.getLast?_eq_some_iff.1 (Files.placeOf_eq_entry_iff.1 hplace).2.1
  obtain ⟨more, hmore, hmorenames⟩ := haround.names_eq
  have hprefix : around = (Path.ofText outer).names ++ more.dropLast := by
    have hdrop := congrArg List.dropLast (hnames.symm.trans hmorenames)
    rwa [List.dropLast_concat, List.dropLast_append_of_ne_nil hmore] at hdrop
  have hne : path.toList ≠ [] := by
    intro hnil
    simp [Path.ofText, hnil, Text.splitOn] at hnames
  have hstart : start.start (.ofText (rolledPath path k)) = start.start (.ofText outer) := by
    unfold Files.start
    rw [rooted_rolledPath hne, haround.rooted_eq]
  intro heq
  have hlength := congrArg List.length heq
  rw [Files.placeBelow, Files.placeBelow, hstart, names_rolledPath hnames hplain, hprefix] at hlength
  simp [rolledPath_ne] at hlength

/-- Where a path does not climb, no directory gets into the place of a numbered file when the log is
opened. -/
theorem isDirectory_rolledPath_of_create (hwf : start.WellFormed)
    (hdots : ".." ∉ (Path.ofText path).names)
    (hcreate : RollingLog.create path limit count start = (.ok log, fs))
    (hregular : start.isDirectory (.ofText (rolledPath path k)) = false) :
    fs.isDirectory (.ofText (rolledPath path k)) = false := by
  obtain ⟨made, l₀, hmade, hnames, hfile, rfl, -⟩ := create_eq_ok hcreate
  have ⟨dir, name, hplace, _, _, hplain⟩ := hnames
  obtain ⟨around, hpath⟩ :=
    List.getLast?_eq_some_iff.1 (Files.placeOf_eq_entry_iff.1 hplace).2.1
  have hrolled := dots_notMem_rolledPath hpath hplain hdots k
  have hnew := Files.node?_makeParents start hdots hnames.head?_upward
  have hkeeps := (Files.Extends.makeParents start path).keeps
  rw [hmade] at hnew hkeeps
  have hstart := Files.start_keeps
    (hkeeps.trans (.openNode hfile hnames.ne_nil)) (.ofText (rolledPath path k))
  refine Bool.eq_false_iff.2 fun hdir => ?_
  obtain ⟨l, hfind⟩ := Files.isDirectory_iff.1 hdir
  obtain ⟨hcheck, hwalk, hnode, -⟩ := Files.find_eq_ok_iff.1 hfind
  have hl : l = start.placeBelow (.ofText (rolledPath path k)) := by
    rw [Files.eq_append_of_walk hrolled hwalk, hstart, Files.placeBelow]
  have hmadenode : made.node? l = some .directory := by
    rw [Files.node?_openNode hnames.ne_nil hfile] at hnode
    split at hnode
    · cases hnode
    · exact hnode
  -- the directory was there before, or it is around the path, where the numbered file is not
  rcases hnew l with hsame | ⟨outer, haround, houter⟩
  · rw [hsame] at hmadenode
    have hbefore := hwf.walk_of_keeps hrolled hwalk hmadenode
    rw [hstart] at hbefore
    have hthere := Files.isDirectory_iff.2
      ⟨l, Files.find_eq_ok_iff.2 ⟨hcheck, hbefore, hmadenode, .inl rfl⟩⟩
    rw [hregular] at hthere
    cases hthere
  · exact placeBelow_rolledPath_ne hnames haround (hl.symm.trans houter)

end Create

/-! ## Loggers -/

namespace Logger

variable {s : AuditSettings} {env : Environment} {l l' : Logger}

/-- The logger as it is opened again. -/
def refresh (l : Logger) : Logger :=
  { l with file := l.file.map reopened }

theorem refresh_refresh (l : Logger) : l.refresh.refresh = l.refresh := by
  unfold refresh
  cases l.file <;> rfl

/-- A logger that was opened again writes a record as the logger before it would have done. -/
theorem write_refresh (h : ∀ log ∈ l.file, Tracks log fs) (r : Record) :
    (l.refresh.write r fs).result = (l.write r fs).result ∧
      (l.refresh.write r fs).files = (l.write r fs).files ∧
      (l.refresh.write r fs).sink.refresh = (l.write r fs).sink.refresh := by
  obtain ⟨console, file⟩ := l
  cases file with
  | none => exact ⟨rfl, rfl, rfl⟩
  | some log =>
    obtain ⟨hfiles, hresult⟩ := (h log rfl).append_reopened r.json
    simp only [Logger.write, refresh, Option.map_some]
    cases happend : log.append r.json fs with
    | mk result files =>
      cases hagain : (reopened log).append r.json fs with
      | mk result' files' =>
        rw [happend, hagain] at hfiles hresult
        obtain rfl : files' = files := hfiles
        cases result with
        | error e =>
          cases result' with
          | error e' =>
            cases hresult
            exact ⟨rfl, rfl, rfl⟩
          | ok log'' => cases hresult
        | ok log' =>
          cases result' with
          | error e' => cases hresult
          | ok log'' =>
            have hlog : reopened log'' = reopened log' := Except.ok.inj hresult
            exact ⟨rfl, rfl, by simp only [Option.map_some, hlog]⟩

/-- The steps without the reopenings. -/
def writesOf (steps : List LogStep) : List LogStep :=
  (steps.filterMap LogStep.record?).map .write

/-- The logger has no log and cannot open one, or its log is settled. -/
inductive Steady (s : AuditSettings) (env : Environment) : Logger × Files → Prop
  | closed {fs : Files} (h : opening s env fs = (⟨s.console, none⟩, fs)) :
    Steady s env (⟨s.console, none⟩, fs)
  | settled {path : String} {log : RollingLog} {fs : Files} {m : Nat} {loc : Nat → Location}
    (hpath : s.filePath env = some path) (hsettings : OfSettings s path log)
    (h : Settled m log loc fs) : Steady s env (⟨s.console, some log⟩, fs)

namespace Steady

theorem tracks (h : Steady s env (l, fs)) : ∀ log ∈ l.file, Tracks log fs := by
  cases h with
  | closed => exact fun log hlog => nomatch hlog
  | settled _ _ h =>
    rintro log ⟨⟩
    exact h.attached.tracks

theorem opening_eq (h : Steady s env (l, fs)) : opening s env fs = (l.refresh, fs) := by
  cases h with
  | closed h => exact h
  | settled hpath hsettings h => exact opening_of_attached hpath hsettings h.attached

theorem reopened (h : Steady s env (l, fs)) : Steady s env (l.refresh, fs) := by
  cases h with
  | closed h => exact .closed h
  | settled hpath hsettings h =>
    exact .settled hpath hsettings ⟨h.active.reopened, h.le_count, h.pos, h.long⟩

theorem write (h : Steady s env (l, fs)) (r : Record) :
    Steady s env ((l.write r fs).sink, (l.write r fs).files) := by
  cases h with
  | closed h => exact .closed h
  | @settled path log fs m loc hpath hsettings h =>
    rcases h.append r.json with ⟨e, happend⟩ | ⟨log', fs', happend, h'⟩
    · simp only [Logger.write, happend]
      exact .settled hpath hsettings h
    · simp only [Logger.write, happend]
      exact .settled hpath (hsettings.append happend) h'

end Steady

/-- The settings lead to a logger that is steady, if no directory is in the way of a rotation. -/
theorem steady_opening {start : Files} (hwf : start.WellFormed)
    (hregular : ∀ log, (opening s env start).1.file = some log → ∀ k, 1 ≤ k → k < log.count →
      (opening s env start).2.isDirectory (.ofText (rolledPath log.path k)) = false) :
    Steady s env (opening s env start) := by
  rcases opening_cases s env start with
    ⟨fs, hopening, hagain⟩ | ⟨path, log, fs, hpath, hcreate, hopening⟩
  · rw [hopening]
    exact .closed hagain
  · rw [hopening] at hregular ⊢
    have hsettings := ofSettings_of_create hcreate
    have hfree := hregular log rfl
    rw [hsettings.1, hsettings.2.2] at hfree
    obtain ⟨m, loc, h⟩ := settled_of_create hwf hcreate hfree
    exact .settled hpath hsettings h

/-- Two loggers that differ only in how their handles write give the same results and leave the same
files, and so they do if one of them is opened again in between. -/
theorem runs_eq (hl : Steady s env (l, fs)) (hl' : Steady s env (l', fs))
    (h : l.refresh = l'.refresh) (steps : List LogStep) :
    (outcomes s env (l, fs) steps).map (·.result) =
        (outcomes s env (l', fs) (writesOf steps)).map (·.result) ∧
      (after s env (l, fs) steps).2 = (after s env (l', fs) (writesOf steps)).2 := by
  induction steps generalizing l l' fs with
  | nil => exact ⟨rfl, rfl⟩
  | cons x steps ih =>
    cases x with
    -- each logger writes the record as the one logger that both would be opened again as
    | write r =>
      obtain ⟨hresult, hfiles, hsink⟩ := write_refresh hl.tracks r
      obtain ⟨hresult', hfiles', hsink'⟩ := write_refresh hl'.tracks r
      rw [h] at hresult hfiles hsink
      have hnext := hl'.write r
      rw [← hfiles', hfiles] at hnext
      obtain ⟨hresults, hafter⟩ := ih (hl.write r) hnext (hsink.symm.trans hsink')
      have houtcomes : outcomes s env (l', fs) (writesOf (.write r :: steps)) =
          l'.write r fs :: outcomes s env ((l'.write r fs).sink, (l.write r fs).files)
            (writesOf steps) := by
        rw [← hfiles, hfiles']
        rfl
      have hrest : after s env (l', fs) (writesOf (.write r :: steps)) =
          after s env ((l'.write r fs).sink, (l.write r fs).files) (writesOf steps) := by
        rw [← hfiles, hfiles']
        rfl
      rw [houtcomes, hrest, List.map_cons, ← hresults, ← hresult', hresult]
      exact ⟨rfl, hafter⟩
    -- the first logger takes this step alone
    | reopen =>
      have hstep : Logger.step s env (l, fs) .reopen = (l.refresh, fs) := hl.opening_eq
      obtain ⟨hresults, hafter⟩ := ih hl.reopened hl' ((refresh_refresh l).trans h)
      have houtcomes : outcomes s env (l, fs) (.reopen :: steps) =
          outcomes s env (l.refresh, fs) steps := by
        rw [← hstep]
        rfl
      have hrest : after s env (l, fs) (.reopen :: steps) = after s env (l.refresh, fs) steps := by
        rw [← hstep]
        rfl
      rw [houtcomes, hrest]
      exact ⟨hresults, hafter⟩

/-- **Reopening.** Unless a directory stands in the place of a numbered file once the log of the
settings is opened, a logger that is dropped and opened again between its writes, anywhere and as
often as one likes, gives the same results and leaves the same files as one that goes on. -/
theorem reopening_changes_nothing (s : AuditSettings) (env : Environment) (start : Files)
    (hwf : start.WellFormed)
    (hregular : ∀ log, (opening s env start).1.file = some log → ∀ k, 1 ≤ k → k < log.count →
      (opening s env start).2.isDirectory (.ofText (rolledPath log.path k)) = false)
    (steps : List LogStep) :
    let first := opening s env start
    (outcomes s env first steps).map (·.result) =
        (outcomes s env first (writesOf steps)).map (·.result) ∧
      (after s env first steps).2 = (after s env first (writesOf steps)).2 := by
  intro first
  have hsteady := steady_opening hwf hregular
  exact runs_eq hsteady hsteady rfl steps

/-- The condition holds for a path that does not climb if it holds before the log is opened. -/
theorem regular_opening {start : Files} {path : String} (hwf : start.WellFormed)
    (hpath : s.filePath env = some path) (hdots : ".." ∉ (Path.ofText path).names)
    (hregular : ∀ k, 1 ≤ k → k < s.fileCount →
      start.isDirectory (.ofText (rolledPath path k)) = false) :
    ∀ log, (opening s env start).1.file = some log → ∀ k, 1 ≤ k → k < log.count →
      (opening s env start).2.isDirectory (.ofText (rolledPath log.path k)) = false := by
  intro log hlog k hpos hlt
  obtain ⟨path', hpath', hcreate⟩ := log_of_opening hlog
  obtain rfl : path = path' := Option.some.inj (hpath.symm.trans hpath')
  obtain ⟨hlogpath, -, hcount⟩ := ofSettings_of_create hcreate
  rw [hcount] at hlt
  rw [hlogpath]
  exact isDirectory_rolledPath_of_create hwf hdots hcreate (hregular k hpos hlt)

/-- A log of three files of at most one line each, in an empty directory, with a reopening before
the first rotation. -/
theorem reopening_changes_nothing_fresh :
    let s : AuditSettings := ⟨false, some "a.log", 1, 3⟩
    let env : Environment := ⟨none, none⟩
    let r : Record := ⟨⟨0, 0⟩, "alex", ⟨7⟩, .destroy, "no"⟩
    let first := opening s env (Files.emptyAt [])
    (outcomes s env first [.write r, .reopen, .write r]).map (·.result) =
        (outcomes s env first [.write r, .write r]).map (·.result) ∧
      (after s env first [.write r, .reopen, .write r]).2 =
        (after s env first [.write r, .write r]).2 := by
  intro s env r first
  have hpath : s.filePath env = some "a.log" := by decide +kernel
  have hdots : ".." ∉ (Path.ofText "a.log").names := by decide +kernel
  have hregular : ∀ k, 1 ≤ k → k < 3 →
      (Files.emptyAt []).isDirectory (.ofText (rolledPath "a.log" k)) = false := by
    intro k hpos hlt
    obtain rfl | rfl : k = 1 ∨ k = 2 := by omega
    · decide +kernel
    · decide +kernel
  have hwf := Files.wellFormed_emptyAt []
  exact reopening_changes_nothing s env (Files.emptyAt []) hwf
    (regular_opening hwf hpath hdots hregular) [.write r, .reopen, .write r]

/-- The path of this log climbs through a directory with the name of a numbered file. The rotation
before the second line moves that directory away, so the path leads nowhere and the writes fail,
until the log is opened again: then the directory is made anew and stands in the way. -/
theorem reopening_after_failed_rotation :
    let s : AuditSettings := ⟨false, some "a.log.1/../a.log", 1, 3⟩
    let env : Environment := ⟨none, none⟩
    let r : Record := ⟨⟨0, 0⟩, "alex", ⟨7⟩, .destroy, "no"⟩
    let first := opening s env (Files.emptyAt [])
    (outcomes s env first [.write r, .write r, .reopen, .write r]).map (·.result) =
        [.ok (), .error .notFound, .error .isADirectory] ∧
      (outcomes s env first [.write r, .write r, .write r]).map (·.result) =
        [.ok (), .error .notFound, .error .notFound] := by
  decide +kernel

end Logger
end ItemGuard.Audit
