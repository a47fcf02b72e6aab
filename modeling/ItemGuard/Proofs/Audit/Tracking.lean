import ItemGuard.Audit.RollingLog
import ItemGuard.Proofs.Storage.Upward

/-!
# What a log knows about its file

A log holds a handle and the size of the file behind it, and asks for neither before it writes. It
is right about both (`Tracks`) from the moment it is opened (`attached_of_create`), and it stays so
whether a line is written (`Tracks.append`) or not (`Tracks.append_error`). A rotation that
succeeds leaves the log attached to the file that its path leads to (`attached_of_rotate`), and to
open an attached log again finds that file and changes nothing (`Attached.create_eq`).
-/

namespace ItemGuard.Audit

open Storage (Failure Files Location)
open Storage.Files (Handle)
open RollingLog (dropFile lineBytes moveActive moveFile shifts)

variable {log rolled : RollingLog} {fs fs' : Files} {loc : Location}

/-! ## Writing at the end of a file -/

/-- The handle writes at the end of its file. -/
def AtEnd (h : Handle) (fs : Files) : Prop :=
  h.appends = true ∨ h.offset = (fs.content h.file).length

theorem overwrite_length (content bytes : Bytes) :
    Files.overwrite content content.length bytes = content ++ bytes := by
  simp [Files.overwrite]

def advance (h : Handle) (bytes : Bytes) : Handle :=
  if h.appends then h else { h with offset := h.offset + bytes.length }

theorem file_advance (h : Handle) (bytes : Bytes) : (advance h bytes).file = h.file := by
  unfold advance
  split <;> rfl

theorem write_of_atEnd {h : Handle} (hend : AtEnd h fs) (bytes : Bytes) :
    fs.write h bytes = (fs.setContent h.file (fs.content h.file ++ bytes), advance h bytes) := by
  unfold Files.write advance
  dsimp only
  cases happends : h.appends with
  | true => rfl
  | false =>
    have hoffset : h.offset = (fs.content h.file).length := by
      rcases hend with hend | hend
      · rw [happends] at hend
        cases hend
      · exact hend
    rw [hoffset, overwrite_length]
    rfl

theorem AtEnd.advance {h : Handle} (hend : AtEnd h fs) (bytes : Bytes) :
    AtEnd (advance h bytes) (fs.setContent h.file (fs.content h.file ++ bytes)) := by
  unfold AtEnd
  rw [file_advance, Files.content_setContent, if_pos rfl, List.length_append]
  unfold Audit.advance
  split
  next happends => exact .inl happends
  next happends =>
    rcases hend with hend | hend
    · exact absurd hend happends
    · exact .inr (congrArg (· + bytes.length) hend)

/-! ## Handle and size -/

/-- The handle writes at the end of its file, and the size of the file is known. -/
structure Tracks (log : RollingLog) (fs : Files) : Prop where
  atEnd : AtEnd log.handle fs
  written : log.written = (fs.content log.handle.file).length

namespace Tracks

theorem of_contents (h : Tracks log fs) (heq : fs'.contents = fs.contents) : Tracks log fs' := by
  have hcontent : fs'.content log.handle.file = fs.content log.handle.file := by
    unfold Files.content
    rw [heq]
  refine ⟨?_, ?_⟩
  · unfold AtEnd
    rw [hcontent]
    exact h.atEnd
  · rw [hcontent]
    exact h.written

theorem put_eq (h : Tracks log fs) (bytes : Bytes) :
    log.put bytes fs =
      ({ log with
          handle := advance log.handle bytes
          written := log.written + bytes.length },
        fs.setContent log.handle.file (fs.content log.handle.file ++ bytes)) := by
  unfold RollingLog.put
  rw [write_of_atEnd h.atEnd]

theorem put (h : Tracks log fs) (bytes : Bytes) :
    Tracks (log.put bytes fs).1 (log.put bytes fs).2 := by
  rw [h.put_eq]
  refine ⟨h.atEnd.advance bytes, ?_⟩
  rw [file_advance, Files.content_setContent, if_pos rfl, List.length_append, h.written]

theorem content_put (h : Tracks log fs) (bytes : Bytes) (id : Nat) :
    (log.put bytes fs).2.content id =
      if id = log.handle.file then fs.content id ++ bytes else fs.content id := by
  rw [h.put_eq, Files.content_setContent]
  split
  next heq => rw [heq]
  next => rfl

end Tracks

/-- The path of the log leads to the file behind its handle. -/
structure Attached (log : RollingLog) (loc : Location) (fs : Files) : Prop where
  tracks : Tracks log fs
  names : fs.Names log.path loc
  file : fs.node? loc = some (.file log.handle.file)

theorem Attached.contentOf_eq (h : Attached log loc fs) :
    fs.contentOf log.path = fs.content log.handle.file := by
  rw [h.names.contentOf_eq, Files.contentAt_of_file h.file]

theorem Attached.readBytes_eq (h : Attached log loc fs) :
    fs.readBytes log.path = .ok (fs.content log.handle.file) := by
  unfold Files.readBytes
  rw [h.names.find_eq, h.file]
  rfl

theorem Attached.put (h : Attached log loc fs) (bytes : Bytes) :
    Attached (log.put bytes fs).1 loc (log.put bytes fs).2 := by
  refine ⟨h.tracks.put bytes, ?_, ?_⟩
  · rw [h.tracks.put_eq]
    exact h.names.keeps (.setContent _)
  · rw [h.tracks.put_eq, file_advance]
    exact h.file

/-! ## Opening -/

section Create

variable {path : String} {limit count : Nat} {start : Files}

/-- A log that is opened makes directories and then its active file, if they are missing. -/
theorem create_eq_ok (h : RollingLog.create path limit count start = (.ok log, fs)) :
    ∃ made l, start.makeParents path = (.ok (), made) ∧ made.Names path l ∧
      made.node? l ≠ some .directory ∧ fs = (made.openNode l).1 ∧
      log = ⟨path, limit, count, ⟨(made.openNode l).2, true, 0⟩,
        ((made.openNode l).1.content (made.openNode l).2).length⟩ := by
  unfold RollingLog.create at h
  split at h
  · cases h
  next made hmade =>
    cases hopen : made.openFile path with
    | error e => simp [Files.openAppending, hopen, bind, Except.bind] at h
    | ok opened =>
      obtain ⟨l, hnames, hregular⟩ := Files.Names.of_openFile hopen
      have hnode := hnames.openFile_eq hregular
      simp only [Files.openAppending, hnode, bind, Except.bind, Files.sizeOf] at h
      cases h
      exact ⟨made, l, hmade, hnames, hregular, rfl, rfl⟩

theorem appends_of_create (h : RollingLog.create path limit count start = (.ok log, fs)) :
    log.handle.appends = true := by
  obtain ⟨_, _, -, -, -, -, rfl⟩ := create_eq_ok h
  rfl

/-- How many files a log keeps plays no part when it is opened. -/
theorem create_with_count (h : RollingLog.create path limit count start = (.ok log, fs))
    (m : Nat) : RollingLog.create path limit m start = (.ok { log with count := m }, fs) := by
  unfold RollingLog.create at h ⊢
  split at h
  · cases h
  · split at h
    · cases h
    · cases h
      rfl

theorem attached_of_create (h : RollingLog.create path limit count start = (.ok log, fs)) :
    ∃ loc, Attached log loc fs := by
  obtain ⟨made, l, -, hnames, hregular, rfl, rfl⟩ := create_eq_ok h
  have hkeeps := Files.Keeps.openNode hregular hnames.ne_nil
  refine ⟨l, ⟨.inl rfl, rfl⟩, hnames.keeps hkeeps, ?_⟩
  rw [Files.node?_openNode hnames.ne_nil hregular, if_pos rfl]

theorem wellFormed_of_create (hwf : start.WellFormed)
    (h : RollingLog.create path limit count start = (.ok log, fs)) : fs.WellFormed := by
  obtain ⟨made, l, hmade, hnames, hregular, rfl, -⟩ := create_eq_ok h
  have hmadewf := hwf.makeParents path
  rw [hmade] at hmadewf
  obtain ⟨dir, name, rfl, hdir⟩ := hnames.inDirectory
  exact hmadewf.openNode hdir hregular

end Create

/-- The log with the handle that it gets when it is opened again. -/
def reopened (log : RollingLog) : RollingLog :=
  { log with handle := ⟨log.handle.file, true, 0⟩ }

/-- An attached log is opened as it is, with a handle that appends. -/
theorem Attached.create_eq (h : Attached log loc fs) :
    RollingLog.create log.path log.limit log.count fs = (.ok (reopened log), fs) := by
  have hregular : fs.node? loc ≠ some .directory := by
    rw [h.file]
    intro heq
    cases heq
  have hopen := h.names.openFile_eq hregular
  have hnode : fs.openNode loc = (fs, log.handle.file) := by
    unfold Files.openNode
    rw [h.file]
  rw [hnode] at hopen
  unfold RollingLog.create
  rw [h.names.hasParent.makeParents_eq]
  simp only [Files.openAppending, hopen, bind, Except.bind, Files.sizeOf, ← h.tracks.written]
  rfl

theorem Attached.reopened (h : Attached log loc fs) : Attached (reopened log) loc fs :=
  ⟨⟨.inl rfl, h.tracks.written⟩, h.names, h.file⟩

/-- A log that cannot be opened leaves behind the directories that were made for it. -/
theorem files_of_create_error {path : String} {limit count : Nat} {start : Files} {e : Failure}
    (h : RollingLog.create path limit count start = (.error e, fs)) :
    fs = (start.makeParents path).2 := by
  unfold RollingLog.create at h
  split at h
  next made hmade =>
    cases h
    rw [hmade]
  next made hmade =>
    rw [hmade]
    split at h
    next => exact (congrArg Prod.snd h).symm
    next => cases h

/-- A log that could not be opened cannot be opened in what was left behind either. -/
theorem create_again {path : String} {limit count : Nat} {start : Files} {e : Failure}
    (h : RollingLog.create path limit count start = (.error e, fs)) :
    ∃ e', RollingLog.create path limit count fs = (.error e', fs) := by
  unfold RollingLog.create at h ⊢
  cases hmade : start.makeParents path with
  | mk result made =>
    rw [hmade] at h
    cases result with
    | error e₁ =>
      cases h
      obtain ⟨e₂, hagain⟩ := Files.makeParents_again hmade
      exact ⟨e₂, by rw [hagain]⟩
    | ok _ =>
      cases hopen : made.openAppending path with
      | ok opened => simp [hopen] at h
      | error e₁ =>
        simp only [hopen] at h
        cases h
        have hagain := (Files.hasParent_of_makeParents hmade).makeParents_eq
        refine ⟨e, ?_⟩
        rw [hagain]
        simp only [hopen]

/-! ## Rolling over

The files move up by their names alone, so what a file holds stays, even where only some of them
could be moved.
-/

theorem contents_of_shift {path : String} {count : Nat} {shift : Files → Except Failure Files}
    (hshift : shift ∈ shifts path count) (h : shift fs = .ok fs') :
    fs'.contents = fs.contents := by
  have hmove : ∀ {source target : String}, moveFile source target fs = .ok fs' →
      fs'.contents = fs.contents := by
    intro source target h
    unfold moveFile at h
    split at h
    · exact Files.contents_of_rename h
    · cases h
      rfl
  unfold shifts at hshift
  split at hshift
  · cases hshift
  · simp only [List.cons_append, List.mem_cons, List.mem_append, List.mem_map, List.not_mem_nil,
      or_false] at hshift
    rcases hshift with rfl | ⟨k, -, rfl⟩ | rfl
    · unfold dropFile at h
      split at h
      · exact Files.contents_of_removeFile h
      · cases h
        rfl
    · exact hmove h
    · unfold moveActive at h
      split at h
      next hrename =>
        cases h
        exact Files.contents_of_rename hrename
      next =>
        split at h
        · cases h
          rfl
        · cases h

theorem contents_attemptAll {shifts : List (Files → Except Failure Files)}
    (hshifts : ∀ shift ∈ shifts, ∀ {fs fs'}, shift fs = .ok fs' → fs'.contents = fs.contents)
    (fs : Files) : (fs.attemptAll shifts).2.contents = fs.contents :=
  Files.attemptAll_induct (P := fun moved => moved.contents = fs.contents)
    (fun shift hmem _ _ hmoved hshift => (hshifts shift hmem hshift).trans hmoved) rfl

theorem contents_shifts (path : String) (count : Nat) (fs : Files) :
    (fs.attemptAll (shifts path count)).2.contents = fs.contents :=
  contents_attemptAll (fun _ hshift => contents_of_shift hshift) fs

/-- A rotation moves files and then makes the active file, or drops what it holds. -/
theorem rotate_eq_ok (h : log.rotate fs = (.ok rolled, fs')) :
    ∃ moved l, fs.attemptAll (shifts log.path log.count) = (.ok (), moved) ∧
      moved.Names log.path l ∧ moved.node? l ≠ some .directory ∧
      rolled = { log with handle := ⟨(moved.openNode l).2, false, 0⟩, written := 0 } ∧
      fs' = (moved.openNode l).1.setContent (moved.openNode l).2 [] := by
  unfold RollingLog.rotate at h
  split at h
  · cases h
  next moved hmoved =>
    cases hopen : moved.openFile log.path with
    | error e => simp [Files.openTruncated, hopen, bind, Except.bind] at h
    | ok opened =>
      obtain ⟨l, hnames, hregular⟩ := Files.Names.of_openFile hopen
      have hnode := hnames.openFile_eq hregular
      simp only [Files.openTruncated, hnode, bind, Except.bind] at h
      cases h
      exact ⟨moved, l, hmoved, hnames, hregular, rfl, rfl⟩

theorem attached_of_rotate (h : log.rotate fs = (.ok rolled, fs')) :
    ∃ loc, Attached rolled loc fs' := by
  obtain ⟨moved, l, -, hnames, hregular, rfl, rfl⟩ := rotate_eq_ok h
  have hempty : ((moved.openNode l).1.setContent (moved.openNode l).2 []).content
      (moved.openNode l).2 = [] := by
    rw [Files.content_setContent, if_pos rfl]
  have hlength := (congrArg List.length hempty).symm
  have hkeeps := Files.Keeps.openNode hregular hnames.ne_nil
  refine ⟨l, ⟨.inr hlength, hlength⟩, (hnames.keeps hkeeps).keeps (.setContent _), ?_⟩
  rw [Files.node?_setContent, Files.node?_openNode hnames.ne_nil hregular, if_pos rfl]

/-- A rotation empties the new active file alone. -/
theorem content_of_rotate (h : log.rotate fs = (.ok rolled, fs')) (id : Nat) :
    fs'.content id = if id = rolled.handle.file then [] else fs.content id := by
  obtain ⟨moved, l, hmoved, -, -, rfl, rfl⟩ := rotate_eq_ok h
  have hcontents : moved.contents = fs.contents := by
    have hshifts := contents_shifts log.path log.count fs
    rw [hmoved] at hshifts
    exact hshifts
  rw [Files.content_setContent]
  split
  · rfl
  next hne =>
    rw [Files.content_openNode hne]
    unfold Files.content
    rw [hcontents]

theorem contents_of_rotate_error {e : Failure} (h : log.rotate fs = (.error e, fs')) :
    fs'.contents = fs.contents := by
  have hshifts := contents_shifts log.path log.count fs
  unfold RollingLog.rotate at h
  split at h
  next hmoved =>
    rw [hmoved] at hshifts
    cases h
    exact hshifts
  next hmoved =>
    rw [hmoved] at hshifts
    split at h
    · cases h
      exact hshifts
    · cases h

/-! ## Lines -/

theorem append_of_not_isFull {line : String}
    (hroom : log.isFull (lineBytes line).length = false) (fs : Files) :
    log.append line fs =
      (.ok (log.put (lineBytes line) fs).1, (log.put (lineBytes line) fs).2) := by
  unfold RollingLog.append
  dsimp only
  rw [hroom, if_neg Bool.false_ne_true]

/-- A line goes to the active file, or to the one that a rotation makes. -/
theorem append_eq_ok {line : String} {log' : RollingLog}
    (h : log.append line fs = (.ok log', fs')) :
    (log.isFull (lineBytes line).length = false ∧ (log', fs') = log.put (lineBytes line) fs) ∨
      ∃ rolled files, log.isFull (lineBytes line).length = true ∧
        log.rotate fs = (.ok rolled, files) ∧ (log', fs') = rolled.put (lineBytes line) files := by
  unfold RollingLog.append at h
  dsimp only at h
  split at h
  next hfull =>
    split at h
    · cases h
    next rolled files hrotate =>
      cases h
      exact .inr ⟨rolled, files, hfull, hrotate, rfl⟩
  next hfull =>
    cases h
    exact .inl ⟨Bool.eq_false_iff.2 hfull, rfl⟩

theorem append_eq_error {line : String} {e : Failure}
    (h : log.append line fs = (.error e, fs')) :
    log.isFull (lineBytes line).length = true ∧ log.rotate fs = (.error e, fs') := by
  unfold RollingLog.append at h
  dsimp only at h
  split at h
  next hfull =>
    split at h
    next hrotate =>
      cases h
      exact ⟨hfull, hrotate⟩
    · cases h
  next => cases h

theorem Tracks.append {line : String} {log' : RollingLog} (h : Tracks log fs)
    (happend : log.append line fs = (.ok log', fs')) : Tracks log' fs' := by
  rcases append_eq_ok happend with ⟨-, hput⟩ | ⟨rolled, files, -, hrotate, hput⟩
  · have htracks := h.put (lineBytes line)
    rwa [← hput] at htracks
  · obtain ⟨_, hattached⟩ := attached_of_rotate hrotate
    have htracks := hattached.tracks.put (lineBytes line)
    rwa [← hput] at htracks

theorem Tracks.append_error {line : String} {e : Failure} (h : Tracks log fs)
    (happend : log.append line fs = (.error e, fs')) : Tracks log fs' :=
  h.of_contents (contents_of_rotate_error (append_eq_error happend).2)

theorem Attached.append {line : String} {log' : RollingLog} (h : Attached log loc fs)
    (happend : log.append line fs = (.ok log', fs')) : ∃ loc', Attached log' loc' fs' := by
  rcases append_eq_ok happend with ⟨-, hput⟩ | ⟨rolled, files, -, hrotate, hput⟩
  · have hattached := h.put (lineBytes line)
    rw [← hput] at hattached
    exact ⟨loc, hattached⟩
  · obtain ⟨loc', hrolled⟩ := attached_of_rotate hrotate
    have hattached := hrolled.put (lineBytes line)
    rw [← hput] at hattached
    exact ⟨loc', hattached⟩

end ItemGuard.Audit
