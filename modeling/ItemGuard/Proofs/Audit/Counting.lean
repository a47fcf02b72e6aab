import ItemGuard.Proofs.Audit.Failing
import ItemGuard.Proofs.Audit.Sizes
import ItemGuard.Proofs.Storage.Pointing
import Mathlib.Algebra.Group.Nat.Defs

/-!
# What a log counts

With a limit, what a log counts does not grow with the number of its lines: after a line it is
within the limit, or it is the size of that one line (`Tracks.written_append_le`). When the log is
opened again it counts what is at the place of its path (`written_of_create`), which may have been
changed by a rotation that has failed midway, but only by taking the file away
(`clears_of_rotate_error`). So what is small when the log is opened first stays small over any run,
whether its writes succeed or fail (`Limited.after`).
-/

namespace ItemGuard.Audit

open Storage (Failure Files Location Path)
open RollingLog (dropFile lineBytes moveActive moveFile shifts)

variable {log : RollingLog} {fs fs' : Files} {loc : Location} {path line : String} {count : Nat}

/-! ## What a rotation that fails leaves -/

/-- A file that moves up is renamed, if anything changes. -/
theorem moveUp_eq_ok {n : Nat} (h : moveUp path n fs = .ok fs') :
    fs' = fs ∨ fs.rename (numbered path n) (numbered path (n + 1)) = .ok fs' := by
  cases n with
  | zero =>
    rw [moveUp, moveActive] at h
    split at h
    next hrename =>
      cases h
      exact .inr hrename
    next =>
      split at h
      · cases h
        exact .inl rfl
      · cases h
  | succ n =>
    rw [moveUp, moveFile] at h
    split at h
    · exact .inr h
    · cases h
      exact .inl rfl

theorem clears_of_shift (hpath : Nameable path) {shift : Files → Except Failure Files}
    (hshift : shift ∈ shifts path count) (h : shift fs = .ok fs') : Files.Clears path fs fs' := by
  obtain ⟨around, name, hnames, hdot, hdots, -, hplain, -⟩ := hpath.lastName
  have hnumbered := names_ofText_numbered hnames hplain
  by_cases hcount : 1 < count
  · rw [shifts_eq path hcount] at hshift
    rcases List.mem_cons.1 hshift with rfl | hshift
    · unfold dropFile at h
      split at h
      · exact .removeFile h
      · cases h
        exact .refl path fs
    · obtain ⟨k, -, rfl⟩ := List.mem_map.1 hshift
      rcases moveUp_eq_ok h with rfl | hrename
      · exact .refl path fs'
      · exact .rename hnames hdot hdots (hnumbered k) (hnumbered (k + 1))
          (hpath.start_numbered fs k) (hpath.start_numbered fs (k + 1))
          (ne_rolledPath name (k + 1)).symm hrename
  · rw [shifts, if_pos (Nat.le_of_not_lt hcount)] at hshift
    cases hshift

theorem clears_shifts (hpath : Nameable path) (count : Nat) (fs : Files) :
    Files.Clears path fs (fs.attemptAll (shifts path count)).2 :=
  Files.attemptAll_induct (P := Files.Clears path fs)
    (fun _ hmem _ _ hmoved hshift => hmoved.trans (clears_of_shift hpath hmem hshift)) (.refl path fs)

theorem clears_of_rotate_error (hpath : Nameable log.path) {e : Failure}
    (h : log.rotate fs = (.error e, fs')) : Files.Clears log.path fs fs' := by
  have hclears := clears_shifts hpath log.count fs
  rcases rotate_eq_error h with hshifts | ⟨hshifts, -⟩
  · rwa [hshifts] at hclears
  · rwa [hshifts] at hclears

/-! ## Counters and files -/

theorem Attached.held_eq (h : Attached log loc fs) :
    fs.held log.path = fs.content log.handle.file := by
  rw [Files.held, ← h.names.eq_target, Files.contentAt_of_file h.file]

/-- A log that is opened counts what is at the place of its path. -/
theorem written_of_create {limit : Nat} {start : Files}
    (h : RollingLog.create path limit count start = (.ok log, fs)) :
    log.written = (start.held path).length := by
  obtain ⟨made, l, hmade, hnames, hregular, rfl, rfl⟩ := create_eq_ok h
  have hextends := Files.Extends.makeParents start path
  rw [hmade] at hextends
  rw [← hextends.held_eq, ← hnames.held_openNode hregular]

/-- After a line the counter is within the limit, or it is the size of the line. -/
theorem Tracks.written_append_le {log' : RollingLog} (h : Tracks log fs)
    (happend : log.append line fs = (.ok log', fs')) (hlimit : 0 < log.limit) :
    log'.written ≤ max log.limit (line.utf8ByteSize + 1) := by
  rw [(h.append happend).written, ← length_lineBytes]
  rcases h.length_append happend hlimit with hlength | hline
  · exact Nat.le_trans hlength (Nat.le_max_left _ _)
  · rw [hline]
    exact Nat.le_max_right _ _

/-- A line that is put into the file behind the handle leaves the place of the path as it is, if
another file is there. -/
theorem Tracks.length_held_put_le (h : Tracks log fs) (bytes : Bytes) (path : String) :
    ((log.put bytes fs).2.held path).length ≤
      max (log.put bytes fs).1.written (fs.held path).length := by
  have hcontent := h.content_put bytes
  have hwritten := (h.put bytes).written
  rw [h.put_eq] at hcontent hwritten ⊢
  dsimp only at hcontent hwritten ⊢
  rw [file_advance] at hwritten
  have htarget : (fs.setContent log.handle.file (fs.content log.handle.file ++ bytes)).target path =
      fs.target path := Files.target_congr rfl path
  unfold Files.held Files.contentAt
  rw [htarget, Files.node?_setContent]
  cases fs.node? (fs.target path) with
  | none => exact Nat.zero_le _
  | some node =>
    cases node with
    | directory => exact Nat.zero_le _
    | file id =>
      by_cases heq : id = log.handle.file
      · rw [heq, hwritten]
        exact Nat.le_max_left _ _
      · dsimp only
        rw [hcontent, if_neg heq]
        exact Nat.le_max_right _ _

namespace Logger

variable {s : AuditSettings} {env : Environment} {l : Logger} {r : Record} {x : LogStep}
  {state : Logger × Files} {steps : List LogStep}

/-- What the log of the settings counts is small, and so is what the place of its path holds. -/
structure Counted (s : AuditSettings) (path : String) (log : RollingLog) (fs : Files) :
    Prop where
  settings : OfSettings s path log
  nameable : Nameable path
  tracks : Tracks log fs
  written_lt : log.written < 2 ^ 63
  held_lt : (fs.held path).length < 2 ^ 63

namespace Counted

theorem of_create (hcreate : RollingLog.create path s.fileLimit s.fileCount fs = (.ok log, fs'))
    (hwritten : log.written < 2 ^ 63) : Counted s path log fs' := by
  obtain ⟨l, hattached⟩ := attached_of_create hcreate
  have hsettings := ofSettings_of_create hcreate
  obtain ⟨made, l', -, hnames, -⟩ := create_eq_ok hcreate
  have hheld := hattached.held_eq
  rw [hsettings.1] at hheld
  refine ⟨hsettings, ⟨made, l', hnames⟩, hattached.tracks, hwritten, ?_⟩
  rwa [hheld, ← hattached.tracks.written]

section Append

variable (h : Counted s path log fs)
include h

theorem append {log' : RollingLog} (hpos : 0 < s.fileLimit) (hlimit : s.fileLimit < 2 ^ 63)
    (hline : line.utf8ByteSize < 2 ^ 62) (happend : log.append line fs = (.ok log', fs')) :
    Counted s path log' fs' := by
  have hle := h.tracks.written_append_le happend (h.settings.2.1 ▸ hpos)
  rw [h.settings.2.1] at hle
  have hwritten : log'.written < 2 ^ 63 := by omega
  have hsettings := h.settings.append happend
  refine ⟨hsettings, h.nameable, h.tracks.append happend, hwritten, ?_⟩
  rcases append_eq_ok happend with ⟨-, hput⟩ | ⟨rolled, files, -, hrotate, hput⟩
  -- the path may lead to another file than the handle's, if the log has failed to roll over
  · have hheld := h.tracks.length_held_put_le (lineBytes line) path
    have hold := h.held_lt
    rw [← hput] at hheld
    dsimp only at hheld
    omega
  · obtain ⟨l, hrolled⟩ := attached_of_rotate hrotate
    have hattached := hrolled.put (lineBytes line)
    rw [← hput] at hattached
    have hheld := hattached.held_eq
    rw [hsettings.1] at hheld
    rwa [hheld, ← hattached.tracks.written]

theorem append_error {e : Failure} (happend : log.append line fs = (.error e, fs')) :
    Counted s path log fs' := by
  obtain ⟨-, hrotate⟩ := append_eq_error happend
  have hnameable := h.nameable
  rw [← h.settings.1] at hnameable
  have hclears := clears_of_rotate_error hnameable hrotate
  rw [h.settings.1] at hclears
  have hle := hclears.length_held_le (contents_of_rotate_error hrotate)
  exact ⟨h.settings, h.nameable, h.tracks.append_error happend, h.written_lt,
    Nat.lt_of_le_of_lt hle h.held_lt⟩

end Append
end Counted

/-! ## Runs -/

/-- The logger has no log and cannot open one, or what its log counts is small. -/
inductive Limited (s : AuditSettings) (env : Environment) : Logger × Files → Prop
  | closed {state : Logger × Files} (hfile : state.1.file = none)
    (hagain : opening s env state.2 = state) : Limited s env state
  | counted {path : String} {log : RollingLog} {state : Logger × Files}
    (hpath : s.filePath env = some path) (hfile : state.1.file = some log)
    (h : Counted s path log state.2) : Limited s env state

namespace Limited

theorem opening
    (hwritten : ∀ log, (opening s env fs).1.file = some log → log.written < 2 ^ 63) :
    Limited s env (opening s env fs) := by
  rcases opening_cases s env fs with
    ⟨fs', hopening, hagain⟩ | ⟨path, log, fs', hpath, hcreate, hopening⟩
  · rw [hopening]
    exact .closed rfl hagain
  · rw [hopening] at hwritten ⊢
    exact .counted hpath rfl (.of_create hcreate (hwritten log rfl))

theorem reopen (h : Limited s env state) : Limited s env (Logger.opening s env state.2) := by
  cases h with
  | closed hfile hagain =>
    rw [hagain]
    exact .closed hfile hagain
  | @counted path log _ hpath _ h =>
    refine opening fun log' hlog' => ?_
    obtain ⟨path', hpath', hcreate⟩ := log_of_opening hlog'
    obtain rfl : path = path' := Option.some.inj (hpath.symm.trans hpath')
    rw [written_of_create hcreate]
    exact h.held_lt

/-- A write that succeeds leaves a counter within the limit, or the size of its line. -/
theorem written_le (h : Limited s env (l, fs)) (hpos : 0 < s.fileLimit)
    (hok : (l.write r fs).result = .ok ()) {log' : RollingLog}
    (hlog' : (l.write r fs).sink.file = some log') :
    log'.written ≤ max s.fileLimit (r.json.utf8ByteSize + 1) := by
  cases h with
  | closed hfile _ =>
    change l.file = none at hfile
    simp [Logger.write, hfile] at hlog'
  | counted _ hfile h =>
    obtain ⟨log, happend, hsink⟩ := append_of_write hfile hok
    rw [hsink] at hlog'
    obtain rfl := Option.some.inj hlog'
    have hle := h.tracks.written_append_le happend (h.settings.2.1 ▸ hpos)
    rwa [h.settings.2.1] at hle

section Steps

variable (hpos : 0 < s.fileLimit) (hlimit : s.fileLimit < 2 ^ 63)
include hpos hlimit

theorem write (h : Limited s env (l, fs)) (hrecord : r.json.utf8ByteSize < 2 ^ 62) :
    Limited s env ((l.write r fs).sink, (l.write r fs).files) := by
  cases h with
  | closed hfile hagain =>
    change l.file = none at hfile
    unfold Logger.write
    rw [hfile]
    exact .closed hfile hagain
  | counted hpath hfile h =>
    cases hresult : (l.write r fs).result with
    | ok _ =>
      obtain ⟨log', happend, hsink⟩ := append_of_write hfile hresult
      exact .counted hpath (congrArg Logger.file hsink) (h.append hpos hlimit hrecord happend)
    | error e =>
      obtain ⟨hsink, log', hfile', happend⟩ := append_of_write_error hresult
      obtain rfl := Option.some.inj (hfile.symm.trans hfile')
      exact .counted hpath ((congrArg Logger.file hsink).trans hfile) (h.append_error happend)

theorem step (h : Limited s env state)
    (hx : ∀ r, x = .write r → r.json.utf8ByteSize < 2 ^ 62) :
    Limited s env (step s env state x) := by
  cases x with
  | write r => exact h.write hpos hlimit (hx r rfl)
  | reopen => exact h.reopen

theorem after (h : Limited s env state)
    (hsteps : ∀ r, .write r ∈ steps → r.json.utf8ByteSize < 2 ^ 62) :
    Limited s env (after s env state steps) := by
  induction steps generalizing state with
  | nil => exact h
  | cons x steps ih =>
    refine ih (h.step hpos hlimit fun r hr => ?_) fun r hr => hsteps r (List.mem_cons_of_mem x hr)
    exact hsteps r (hr ▸ List.mem_cons_self)

end Steps
end Limited
end Logger
end ItemGuard.Audit
