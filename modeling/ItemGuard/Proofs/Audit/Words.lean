import ItemGuard.Proofs.Audit.Counting
import Mathlib.Data.List.Intervals

/-!
# Sizes and numbers in machine words

A log keeps sizes in words of 64 bits and the numbers of its files in words of 32 bits.
`RollingLog.appendInWords` takes each sum and each difference of `append` in such words and comes to
nothing where one does not fit. It comes to what `append` comes to as long as the counter and the
line fit into a word together (`RollingLog.appendInWords_eq`), and with a limit they do, however long
the run (`Logger.words_after`). Without one, the counter is the size of a file that grows with every
line. A counter that was above the limit when the log was opened stays there for as long as the log
fails to roll over (`Logger.words_after_failed_rotation`).
-/

namespace ItemGuard.Audit

open Storage (Failure Files)
open Storage.Files (Attempt)
open RollingLog (dropFile lineBytes moveActive moveFile rolledPath shifts)

variable {log : RollingLog} {fs : Files} {line : String} {count size : Nat}

/-! ## Arithmetic in words -/

/-- The sum of two words of so many bits, if it fits into one. -/
def addWord (bits a b : Nat) : Option Nat :=
  if a + b < 2 ^ bits then some (a + b) else none

/-- The difference of two words, if it is not negative. -/
def subWord (a b : Nat) : Option Nat :=
  if b ≤ a then some (a - b) else none

theorem addWord_eq {bits a b : Nat} (h : a + b < 2 ^ bits) : addWord bits a b = some (a + b) :=
  if_pos h

example : addWord 64 (2 ^ 64 - 1) 1 = none := by decide

theorem subWord_eq {a b : Nat} (h : b ≤ a) : subWord a b = some (a - b) :=
  if_pos h

theorem mapM_eq_some_map {α β : Type} {f : α → Option β} {g : α → β} {as : List α}
    (h : ∀ a ∈ as, f a = some (g a)) : as.mapM f = some (as.map g) := by
  induction as with
  | nil => rfl
  | cons a as ih =>
    rw [List.mapM_cons, h a List.mem_cons_self, ih fun b hb => h b (List.mem_cons_of_mem _ hb)]
    rfl

namespace RollingLog

/-- How the file with a number moves up. -/
def moveInWords (path : String) (n : Nat) : Option (Files → Except Failure Files) :=
  (addWord 32 n 1).map fun next => moveFile (rolledPath path n) (rolledPath path next)

/-- How the files of a log move up, with their numbers in words. -/
def shiftsInWords (path : String) (count : Nat) :
    Option (List (Files → Except Failure Files)) :=
  if count ≤ 1 then some []
  else do
    let last ← subWord count 1
    let moves ← (List.Ico 1 last).reverse.mapM (moveInWords path)
    return dropFile (rolledPath path last) :: moves ++ [moveActive path (rolledPath path 1)]

/-- Rolls the log over with the given changes of its files. -/
def rotateBy (log : RollingLog) (shifts : List (Files → Except Failure Files)) (fs : Files) :
    Attempt RollingLog :=
  match fs.attemptAll shifts with
  | (.error e, fs) => (.error e, fs)
  | (.ok (), fs) =>
    match fs.openTruncated log.path with
    | .error e => (.error e, fs)
    | .ok (fs, handle) => (.ok { log with handle := handle, written := 0 }, fs)

/-- The sum is taken only if there is a limit and something in the file. -/
def isFullInWords (log : RollingLog) (size : Nat) : Option Bool :=
  if 0 < log.limit && 0 < log.written then
    (addWord 64 log.written size).map fun total => log.limit < total
  else some false

def putInWords (log : RollingLog) (bytes : Bytes) (size : Nat) (fs : Files) :
    Option (RollingLog × Files) := do
  let (fs, handle) := fs.write log.handle bytes
  let written ← addWord 64 log.written size
  return ({ log with handle := handle, written := written }, fs)

/-- Writes a line as `append` does, with all sizes and numbers in words. -/
def appendInWords (log : RollingLog) (line : String) (fs : Files) :
    Option (Attempt RollingLog) := do
  let size ← addWord 64 line.utf8ByteSize 1
  if ← log.isFullInWords size then
    match log.rotateBy (← shiftsInWords log.path log.count) fs with
    | (.error e, fs) => return (.error e, fs)
    | (.ok log, fs) =>
      let (log, fs) ← log.putInWords (lineBytes line) size fs
      return (.ok log, fs)
  else
    let (log, fs) ← log.putInWords (lineBytes line) size fs
    return (.ok log, fs)

theorem shiftsInWords_eq (path : String) (hcount : count < 2 ^ 32) :
    shiftsInWords path count = some (shifts path count) := by
  unfold shiftsInWords shifts
  split
  next => rfl
  next hmany =>
    have hmove : ∀ n ∈ (List.Ico 1 (count - 1)).reverse, moveInWords path n =
        some (moveFile (rolledPath path n) (rolledPath path (n + 1))) := by
      intro n hn
      have hlt := (List.Ico.mem.1 (List.mem_reverse.1 hn)).2
      rw [moveInWords, addWord_eq (by omega)]
      rfl
    have hmoves : (List.Ico 1 (count - 1)).reverse.mapM (moveInWords path) =
        some ((List.range (count - 2)).reverse.map fun k =>
          moveFile (rolledPath path (k + 1)) (rolledPath path (k + 2))) := by
      rw [mapM_eq_some_map hmove, List.Ico, List.range'_eq_map_range, ← List.map_reverse,
        List.map_map, Nat.sub_sub]
      simp only [Function.comp_def, Nat.add_comm 1]
    rw [subWord_eq (by omega)]
    simp only [Option.bind_eq_bind, Option.bind_some, hmoves]
    rfl

theorem rotateBy_shifts (log : RollingLog) (fs : Files) :
    log.rotateBy (shifts log.path log.count) fs = log.rotate fs := rfl

theorem isFullInWords_eq (h : log.written + size < 2 ^ 64) :
    log.isFullInWords size = some (log.isFull size) := by
  unfold isFullInWords isFull
  rw [addWord_eq h]
  cases hcounts : decide (0 < log.limit) && decide (0 < log.written) <;> rfl

theorem putInWords_eq {bytes : Bytes} (h : log.written + bytes.length < 2 ^ 64) (fs : Files) :
    log.putInWords bytes bytes.length fs = some (log.put bytes fs) := by
  unfold putInWords
  rw [addWord_eq h]
  rfl

/-- While the counter and the line fit into a word together, so does all that a line needs. -/
theorem appendInWords_eq (hcount : log.count < 2 ^ 32)
    (hwritten : log.written + (line.utf8ByteSize + 1) < 2 ^ 64) (fs : Files) :
    log.appendInWords line fs = some (log.append line fs) := by
  unfold appendInWords append
  rw [addWord_eq (by omega)]
  rw [← length_lineBytes] at hwritten ⊢
  simp only [Option.bind_eq_bind, Option.bind_some, isFullInWords_eq hwritten,
    shiftsInWords_eq log.path hcount, rotateBy_shifts]
  split
  · cases hrotate : log.rotate fs with
    | mk result files =>
      cases result with
      | error e => rfl
      | ok rolled =>
        -- the new file is empty, so this sum is that of the line alone
        have hrolled : rolled.written + (lineBytes line).length < 2 ^ 64 := by
          obtain ⟨_, _, -, -, -, rfl, -⟩ := rotate_eq_ok hrotate
          change 0 + _ < _
          omega
        simp only [putInWords_eq hrolled]
        rfl
  · simp only [putInWords_eq hwritten]
    rfl

end RollingLog

namespace Logger

variable {s : AuditSettings} {env : Environment} {l : Logger} {r : Record}
  {state : Logger × Files} {steps : List LogStep}

/-! ## Runs in words -/

/-- Writes a record as `write` does, with the line written in words. -/
def writeInWords (l : Logger) (r : Record) (fs : Files) : Option (Written Logger) :=
  let shown := if l.console then [.record r] else []
  match l.file with
  | none => some ⟨l, fs, shown, .ok ()⟩
  | some log => do
    match ← log.appendInWords r.json fs with
    | (.ok log, fs) => return ⟨{ l with file := some log }, fs, shown, .ok ()⟩
    | (.error e, fs) => return ⟨l, fs, shown, .error e⟩

def stepInWords (s : AuditSettings) (env : Environment) :
    Logger × Files → LogStep → Option (Logger × Files)
  | (l, fs), .write r => (l.writeInWords r fs).map fun w => (w.sink, w.files)
  | (_, fs), .reopen => some (opening s env fs)

def afterInWords (s : AuditSettings) (env : Environment) (state : Logger × Files)
    (steps : List LogStep) : Option (Logger × Files) :=
  steps.foldlM (stepInWords s env) state

theorem writeInWords_eq (h : ∀ log, l.file = some log → log.count < 2 ^ 32 ∧
    log.written + (r.json.utf8ByteSize + 1) < 2 ^ 64) (fs : Files) :
    l.writeInWords r fs = some (l.write r fs) := by
  unfold writeInWords Logger.write
  cases hfile : l.file with
  | none => rfl
  | some log =>
    obtain ⟨hcount, hwritten⟩ := h log hfile
    simp only [RollingLog.appendInWords_eq hcount hwritten, Option.bind_eq_bind, Option.bind_some]
    cases happend : log.append r.json fs with
    | mk result files => cases result <;> rfl

namespace Limited

theorem writeInWords_eq (h : Limited s env (l, fs)) (hcount : s.fileCount < 2 ^ 32)
    (hrecord : r.json.utf8ByteSize < 2 ^ 62) : l.writeInWords r fs = some (l.write r fs) := by
  refine Logger.writeInWords_eq (fun log hlog => ?_) fs
  cases h with
  | closed hfile _ =>
    rw [hlog] at hfile
    cases hfile
  | counted _ hfile h =>
    obtain rfl := Option.some.inj (hlog.symm.trans hfile)
    have hwritten := h.written_lt
    exact ⟨h.settings.2.2 ▸ hcount, by omega⟩

theorem afterInWords_eq (h : Limited s env state) (hpos : 0 < s.fileLimit)
    (hlimit : s.fileLimit < 2 ^ 63) (hcount : s.fileCount < 2 ^ 32)
    (hsteps : ∀ r, .write r ∈ steps → r.json.utf8ByteSize < 2 ^ 62) :
    afterInWords s env state steps = some (Logger.after s env state steps) := by
  induction steps generalizing state with
  | nil => rfl
  | cons x steps ih =>
    have hx : ∀ r, x = .write r → r.json.utf8ByteSize < 2 ^ 62 := by
      rintro r rfl
      exact hsteps r List.mem_cons_self
    have hstep : stepInWords s env state x = some (Logger.step s env state x) := by
      obtain ⟨l, fs⟩ := state
      cases x with
      | write r =>
        rw [stepInWords, h.writeInWords_eq hcount (hx r rfl)]
        rfl
      | reopen => rfl
    rw [afterInWords, List.foldlM_cons, hstep]
    exact ih (h.step hpos hlimit hx) fun r hr => hsteps r (List.mem_cons_of_mem x hr)

end Limited

/-- **Words.** Let there be a limit below 2^63, and let the active file be shorter than 2^63 bytes
once the log of the settings is opened. However many records shorter than 2^62 bytes follow, and
however often the log is opened again between them, each sum and each difference fits into its word,
whether the writes succeed or fail. After a write that succeeds the counter is within the limit or is
the size of the line; a write that fails leaves the log as it was. -/
theorem words_after (s : AuditSettings) (env : Environment) (start : Files)
    (hpos : 0 < s.fileLimit) (hlimit : s.fileLimit < 2 ^ 63) (hcount : s.fileCount < 2 ^ 32)
    (hactive : ∀ path, s.filePath env = some path →
      ((opening s env start).2.contentOf path).length < 2 ^ 63)
    (steps : List LogStep) (hsteps : ∀ r, .write r ∈ steps → r.json.utf8ByteSize < 2 ^ 62) :
    let first := opening s env start
    let state := after s env first steps
    afterInWords s env first steps = some state ∧
    ∀ r, r.json.utf8ByteSize < 2 ^ 62 →
      let w := state.1.write r state.2
      state.1.writeInWords r state.2 = some w ∧
      (w.result = .ok () → ∀ log, w.sink.file = some log →
        log.written ≤ max s.fileLimit (r.json.utf8ByteSize + 1)) ∧
      ∀ e, w.result = .error e → w.sink = state.1 := by
  intro first state
  have hwritten : ∀ log, first.1.file = some log → log.written < 2 ^ 63 := by
    intro log hlog
    obtain ⟨path, hpath, hcreate⟩ := log_of_opening hlog
    obtain ⟨l, hattached⟩ := attached_of_create hcreate
    have hcontent := hattached.contentOf_eq
    rw [(ofSettings_of_create hcreate).1] at hcontent
    rw [hattached.tracks.written, ← hcontent]
    exact hactive path hpath
  have hfirst := Limited.opening hwritten
  have hstate := hfirst.after hpos hlimit hsteps
  refine ⟨hfirst.afterInWords_eq hpos hlimit hcount hsteps, fun r hrecord =>
    ⟨hstate.writeInWords_eq hcount hrecord, fun hok log hlog => ?_, fun e he => ?_⟩⟩
  · exact hstate.written_le hpos hok hlog
  · exact (append_of_write_error he).1

/-- A log of three files of at most one line each, in an empty directory, with a reopening before
the first rotation. -/
theorem words_after_rotations :
    let s : AuditSettings := ⟨false, some "a.log", 1, 3⟩
    let env : Environment := ⟨none, none⟩
    let r : Record := ⟨⟨0, 0⟩, "alex", ⟨7⟩, .destroy, "no"⟩
    let first := opening s env (Files.emptyAt [])
    let steps := [.write r, .reopen, .write r, .write r]
    let state := after s env first steps
    afterInWords s env first steps = some state ∧
      ∀ log, (state.1.write r state.2).sink.file = some log →
        log.written ≤ max 1 (r.json.utf8ByteSize + 1) := by
  intro s env r first steps state
  have hactive : ∀ path, s.filePath env = some path →
      ((opening s env (Files.emptyAt [])).2.contentOf path).length < 2 ^ 63 := by
    intro path hpath
    have ha : s.filePath env = some "a.log" := by decide +kernel
    obtain rfl : "a.log" = path := Option.some.inj (ha.symm.trans hpath)
    decide +kernel
  have hrecord : r.json.utf8ByteSize < 2 ^ 62 := by decide +kernel
  have hsteps : ∀ r', .write r' ∈ steps → r'.json.utf8ByteSize < 2 ^ 62 := by
    intro r' hr'
    obtain rfl : r' = r := by simpa [steps] using hr'
    exact hrecord
  obtain ⟨hwords, hwrites⟩ := words_after s env (Files.emptyAt []) (by decide) (by decide)
    (by decide) hactive steps hsteps
  have hok : (state.1.write r state.2).result = .ok () := by decide +kernel
  exact ⟨hwords, (hwrites r hrecord).2.1 hok⟩

/-- A directory is in the way of the rotation before the first line of this log. The line is not
written, and the counter stays at the size of the file, which is neither within the limit nor the
size of a line. -/
theorem words_after_failed_rotation :
    let s : AuditSettings := ⟨false, some "a.log", 1, 2⟩
    let env : Environment := ⟨none, none⟩
    let r : Record := ⟨⟨0, 0⟩, "alex", ⟨7⟩, .destroy, "no"⟩
    let blocked := ((Files.emptyAt []).makePath "a.log.1").2
    (blocked.replaceFile "a.log" (List.replicate 1000 120)).map (fun start =>
      let first := opening s env start
      let w := first.1.write r first.2
      (w.result, w.sink.file.map fun log =>
        (log.written, decide (log.written ≤ max s.fileLimit (r.json.utf8ByteSize + 1))))) =
      .ok (.error .isADirectory, some (1000, false)) := by
  decide +kernel

end Logger
end ItemGuard.Audit
