import ItemGuard.Audit.Sink
import ItemGuard.Proofs.Audit.Tracking

/-!
# Runs of a logger

A logger writes records and is dropped and opened again between them (`LogStep`). `after` is where
some steps lead, and `outcomes` is what came of their writes. As long as every write succeeds the
log of the settings stays attached to its file (`Running`), and to open it again changes no file.
Something outside may change the files between the steps (`Happening`).
-/

namespace ItemGuard.Audit

open Storage (Files Location)

/-- A logger writes a record, or it is dropped and opened again. -/
inductive LogStep where
  | write (record : Record)
  | reopen

def LogStep.record? : LogStep → Option Record
  | write r => some r
  | reopen => none

/-- A step of a logger, or a change of the files from outside. -/
inductive Happening where
  | step (x : LogStep)
  | outside (change : Files → Files)

namespace Logger

variable {s : AuditSettings} {env : Environment} {path : String}

/-- The logger that the settings ask for, and the files once it is opened. -/
def opening (s : AuditSettings) (env : Environment) (fs : Files) : Logger × Files :=
  ((ofSettings s env fs).1, (ofSettings s env fs).2.1)

/-- The logger and the files after a step. -/
def step (s : AuditSettings) (env : Environment) : Logger × Files → LogStep → Logger × Files
  | (l, fs), .write r => ((l.write r fs).sink, (l.write r fs).files)
  | (_, fs), .reopen => opening s env fs

def after (s : AuditSettings) (env : Environment) (state : Logger × Files)
    (steps : List LogStep) : Logger × Files :=
  steps.foldl (step s env) state

theorem after_concat (s : AuditSettings) (env : Environment) (state : Logger × Files)
    (steps : List LogStep) (x : LogStep) :
    after s env state (steps ++ [x]) = step s env (after s env state steps) x := by
  simp [after]

/-- What comes of a step if it is a write. -/
def written? : Logger × Files → LogStep → Option (Written Logger)
  | (l, fs), .write r => some (l.write r fs)
  | _, .reopen => none

/-- What comes of each write. -/
def outcomes (s : AuditSettings) (env : Environment) :
    Logger × Files → List LogStep → List (Written Logger)
  | _, [] => []
  | state, x :: steps => (written? state x).toList ++ outcomes s env (step s env state x) steps

theorem outcomes_concat (s : AuditSettings) (env : Environment) (state : Logger × Files)
    (steps : List LogStep) (x : LogStep) :
    outcomes s env state (steps ++ [x]) =
      outcomes s env state steps ++ (written? (after s env state steps) x).toList := by
  induction steps generalizing state with
  | nil => simp [outcomes, after]
  | cons y steps ih => simp [outcomes, ih, after]

/-! ## Single steps -/

section Write

variable {l : Logger} {log : RollingLog} {fs : Files} {r : Record}

theorem write_of_append {log' : RollingLog} {fs' : Files} (hfile : l.file = some log)
    (happend : log.append r.json fs = (.ok log', fs')) :
    l.write r fs = ⟨{ l with file := some log' }, fs',
      if l.console then [.record r] else [], .ok ()⟩ := by
  unfold Logger.write
  rw [hfile]
  simp only [happend]

theorem append_of_write (hfile : l.file = some log) (hok : (l.write r fs).result = .ok ()) :
    ∃ log', log.append r.json fs = (.ok log', (l.write r fs).files) ∧
      (l.write r fs).sink = { l with file := some log' } := by
  unfold Logger.write at hok ⊢
  rw [hfile] at hok ⊢
  cases happend : log.append r.json fs with
  | mk result fs' =>
    cases result with
    | error e => simp [happend] at hok
    | ok log' => exact ⟨log', by simp [happend], by simp [happend]⟩

/-- The log after a write is what its append gave, or the log before if that failed. -/
theorem log_of_write (hlog : (l.write r fs).sink.file = some log) :
    ∃ old, l.file = some old ∧ (old.append r.json fs = (.ok log, (l.write r fs).files) ∨
      log = old ∧ ∃ e, old.append r.json fs = (.error e, (l.write r fs).files)) := by
  unfold Logger.write at hlog ⊢
  cases hfile : l.file with
  | none => simp [hfile] at hlog
  | some old =>
    refine ⟨old, rfl, ?_⟩
    cases happend : old.append r.json fs with
    | mk result fs' =>
      cases result with
      | error e =>
        simp only [hfile, happend] at hlog ⊢
        obtain rfl := Option.some.inj hlog
        exact .inr ⟨rfl, e, rfl⟩
      | ok log' =>
        simp only [hfile, happend] at hlog ⊢
        cases hlog
        exact .inl rfl

/-- A write that fails leaves the logger as it is. -/
theorem append_of_write_error {e : Storage.Failure} (h : (l.write r fs).result = .error e) :
    (l.write r fs).sink = l ∧
      ∃ log, l.file = some log ∧ log.append r.json fs = (.error e, (l.write r fs).files) := by
  unfold Logger.write at h ⊢
  cases hfile : l.file with
  | none => simp [hfile] at h
  | some log =>
    cases happend : log.append r.json fs with
    | mk result fs' =>
      cases result with
      | error e' =>
        simp only [hfile, happend] at h ⊢
        cases h
        exact ⟨trivial, log, rfl, happend⟩
      | ok log' => simp [hfile, happend] at h

/-- The log has the path and the limits of the settings. -/
def OfSettings (s : AuditSettings) (path : String) (log : RollingLog) : Prop :=
  log.path = path ∧ log.limit = s.fileLimit ∧ log.count = s.fileCount

theorem ofSettings_of_create {start : Files}
    (h : RollingLog.create path s.fileLimit s.fileCount start = (.ok log, fs)) :
    OfSettings s path log := by
  obtain ⟨_, _, -, -, -, -, rfl⟩ := create_eq_ok h
  exact ⟨rfl, rfl, rfl⟩

theorem OfSettings.append {line : String} {log' : RollingLog} {fs' : Files}
    (h : OfSettings s path log) (happend : log.append line fs = (.ok log', fs')) :
    OfSettings s path log' := by
  rcases append_eq_ok happend with ⟨-, hput⟩ | ⟨rolled, files, -, hrotate, hput⟩
  · obtain rfl : log' = (log.put (RollingLog.lineBytes line) fs).1 := congrArg Prod.fst hput
    exact h
  · obtain rfl : log' = (rolled.put (RollingLog.lineBytes line) files).1 := congrArg Prod.fst hput
    obtain ⟨_, _, -, -, -, rfl, -⟩ := rotate_eq_ok hrotate
    exact h

end Write

/-- Either no log can be opened, and to try again changes nothing, or the log of the settings is
opened. -/
theorem opening_cases (s : AuditSettings) (env : Environment) (start : Files) :
    (∃ fs, opening s env start = (⟨s.console, none⟩, fs) ∧
        opening s env fs = (⟨s.console, none⟩, fs)) ∨
      ∃ path log fs, s.filePath env = some path ∧
        RollingLog.create path s.fileLimit s.fileCount start = (.ok log, fs) ∧
        opening s env start = (⟨s.console, some log⟩, fs) := by
  unfold opening ofSettings
  cases hpath : s.filePath env with
  | none => exact .inl ⟨start, rfl, rfl⟩
  | some path =>
    dsimp only
    cases hcreate : RollingLog.create path s.fileLimit s.fileCount start with
    | mk result fs =>
      cases result with
      | error e =>
        obtain ⟨e', hagain⟩ := create_again hcreate
        exact .inl ⟨fs, rfl, by rw [hagain]⟩
      | ok log => exact .inr ⟨path, log, fs, rfl, hcreate, rfl⟩

theorem log_of_opening {fs : Files} {log : RollingLog}
    (hlog : (opening s env fs).1.file = some log) :
    ∃ path, s.filePath env = some path ∧
      RollingLog.create path s.fileLimit s.fileCount fs = (.ok log, (opening s env fs).2) := by
  rcases opening_cases s env fs with
    ⟨fs', hopening, -⟩ | ⟨path, log', fs', hpath, hcreate, hopening⟩
  · rw [hopening] at hlog
    cases hlog
  · rw [hopening] at hlog ⊢
    cases hlog
    exact ⟨path, hpath, hcreate⟩

/-- The log of the settings is open, and its path leads to its file. -/
def Running (s : AuditSettings) (path : String) (log : RollingLog) (loc : Location)
    (state : Logger × Files) : Prop :=
  state.1.file = some log ∧ OfSettings s path log ∧ Attached log loc state.2

theorem running_opening {start : Files} (hpath : s.filePath env = some path)
    (hopen : (opening s env start).1.file.isSome = true) :
    ∃ log loc, Running s path log loc (opening s env start) ∧ log.handle.appends = true := by
  obtain ⟨log, hlog⟩ := Option.isSome_iff_exists.1 hopen
  obtain ⟨path', hpath', hcreate⟩ := log_of_opening hlog
  obtain rfl : path = path' := Option.some.inj (hpath.symm.trans hpath')
  obtain ⟨loc, hattached⟩ := attached_of_create hcreate
  exact ⟨log, loc, ⟨hlog, ofSettings_of_create hcreate, hattached⟩, appends_of_create hcreate⟩

/-- To open the log of the settings again changes its handle and nothing else. -/
theorem opening_of_attached {log : RollingLog} {loc : Location} {fs : Files}
    (hpath : s.filePath env = some path) (hsettings : OfSettings s path log)
    (h : Attached log loc fs) :
    opening s env fs = (⟨s.console, some (reopened log)⟩, fs) := by
  obtain ⟨rfl, hlimit, hcount⟩ := hsettings
  have hcreate := h.create_eq
  rw [hlimit, hcount] at hcreate
  unfold opening ofSettings
  simp only [hpath, hcreate]

theorem Running.reopen {log : RollingLog} {loc : Location} {state : Logger × Files}
    (hpath : s.filePath env = some path) (h : Running s path log loc state) :
    Running s path (reopened log) loc (step s env state .reopen) ∧
      (step s env state .reopen).2 = state.2 := by
  obtain ⟨l, fs⟩ := state
  obtain ⟨-, hsettings, hattached⟩ := h
  have hstep : step s env (l, fs) .reopen = (⟨s.console, some (reopened log)⟩, fs) :=
    opening_of_attached hpath hsettings hattached
  rw [hstep]
  exact ⟨⟨rfl, hsettings, hattached.reopened⟩, rfl⟩

/-! ## Changes from outside -/

def happen (s : AuditSettings) (env : Environment) : Logger × Files → Happening → Logger × Files
  | state, .step x => step s env state x
  | (l, fs), .outside change => (l, change fs)

def afterwards (s : AuditSettings) (env : Environment) (state : Logger × Files)
    (happenings : List Happening) : Logger × Files :=
  happenings.foldl (happen s env) state

/-- What comes of each write. -/
def results (s : AuditSettings) (env : Environment) :
    Logger × Files → List Happening → List (Written Logger)
  | _, [] => []
  | state, .step x :: rest => (written? state x).toList ++ results s env (step s env state x) rest
  | (l, fs), .outside change :: rest => results s env (l, change fs) rest

theorem afterwards_concat (s : AuditSettings) (env : Environment) (state : Logger × Files)
    (happenings : List Happening) (x : Happening) :
    afterwards s env state (happenings ++ [x]) =
      happen s env (afterwards s env state happenings) x := by
  simp [afterwards]

end Logger
end ItemGuard.Audit
