import ItemGuard.Proofs.Audit.Appending

/-!
# Rotations with names that are too long

From some number on, the name of a numbered file may be too long for the file system. A rotation
passes over the files from there on, which cannot exist, and the files below move up
(`rotate_of_free`), unless one of them would get the first name that is too long: then the rotation
fails, and it does so before it has changed anything (`rotate_of_file`). A log is settled if it is
like that (`Settled`), and lines keep it so, written or not (`Settled.append`).
-/

namespace ItemGuard.Audit

open Storage (Failure Files Location Path nameLimit)
open RollingLog (dropFile lineBytes moveActive moveFile rolledPath shifts)

variable {log : RollingLog} {fs fs' : Files} {loc : Nat → Location} {path : String}
  {count n : Nat}

/-! ## Paths that no file can have -/

/-- The path or its last name is too long. -/
def Refused (fs : Files) (path : String) : Prop :=
  Files.checkPath (.ofText path) = .error .nameTooLong ∨
    ∃ dir name, fs.placeOf (.ofText path) = .ok (.entry dir name) ∧
      nameLimit < name.utf8ByteSize

theorem Refused.pathExists_eq (h : Refused fs path) : fs.pathExists path = false := by
  unfold Files.pathExists
  split
  next found hfind =>
    obtain ⟨loc, node⟩ := found
    obtain ⟨hcheck, hwalk, -⟩ := Files.find_eq_ok_iff.1 hfind
    rcases h with hlong | ⟨dir, name, hplace, hlong⟩
    · rw [hlong] at hcheck
      cases hcheck
    · obtain ⟨-, hlast, hdot, hdots, hdir, -⟩ := Files.placeOf_eq_entry_iff.1 hplace
      obtain ⟨around, hnames⟩ := List.getLast?_eq_some_iff.1 hlast
      rw [hnames, List.dropLast_concat] at hdir
      rw [hnames, Files.walk_append, hdir] at hwalk
      rcases (Files.walk_cons_eq_ok_iff.1 hwalk).2 with ⟨heq, -⟩ | ⟨heq, -⟩ | ⟨-, -, hsize, -⟩
      · exact absurd heq hdot
      · exact absurd heq hdots
      · exact absurd hlong (Nat.not_lt.2 hsize)
  next => rfl

theorem Refused.rename_error {source : String} {l : Location} (h : Refused fs path)
    (hs : fs.Names source l) :
    fs.rename source path = .error .nameTooLong ∨
      fs.rename source path = .error .notFound ∧ fs.node? l = none := by
  obtain ⟨dir, name, hplace, rfl, hsize, -⟩ := hs
  unfold Files.rename
  rcases h with hlong | ⟨dir', name', hplace', hlong⟩
  · have htarget : fs.placeOf (.ofText path) = .error .nameTooLong := by
      simp [Files.placeOf, hlong, bind, Except.bind]
    exact .inl (by simp [hplace, htarget, bind, Except.bind])
  · cases hnode : fs.node? (dir ++ [name]) with
    | none =>
      exact .inr (by simp [hplace, hplace', Files.lookUp, Nat.not_lt.2 hsize, hnode, bind,
        Except.bind])
    | some node =>
      refine .inl ?_
      cases node <;>
        simp [hplace, hplace', Files.lookUp, Nat.not_lt.2 hsize, hnode, hlong, bind, Except.bind]

/-- What is there cannot get a number whose name is too long. -/
theorem moveUp_of_refused {l : Location} (hnames : fs.Names (numbered path n) l)
    (hrefused : Refused fs (rolledPath path (n + 1))) (hthere : fs.node? l ≠ none) :
    moveUp path n fs = .error .nameTooLong := by
  have hrename : fs.rename (numbered path n) (rolledPath path (n + 1)) = .error .nameTooLong :=
    (hrefused.rename_error hnames).resolve_right fun h => hthere h.2
  cases n with
  | zero =>
    change moveActive path (rolledPath path 1) fs = _
    rw [numbered] at hrename
    simp [moveActive, hrename, Failure.nameTooLong]
  | succ n =>
    have hexists : fs.pathExists (rolledPath path (n + 1)) = true :=
      hnames.pathExists_eq.trans (Option.isSome_iff_ne_none.2 hthere)
    rw [moveUp, moveFile, hexists, if_pos rfl]
    exact hrename

theorem refused_rolledPath {l : Location} (h : fs.Names path l) {k : Nat}
    (hlong : ¬ (Path.ofText (rolledPath path k)).Short) : Refused fs (rolledPath path k) := by
  obtain ⟨dir, name, hplace, rfl, -, hplain⟩ := h
  obtain ⟨hcheck, hlast, -⟩ := Files.placeOf_eq_entry_iff.1 hplace
  obtain ⟨around, hnames⟩ := List.getLast?_eq_some_iff.1 hlast
  rw [short_rolledPath_iff hnames hplain, not_and_or] at hlong
  by_cases hsize : (Path.ofText (rolledPath path k)).size ≤ Storage.pathLimit
  · rcases hlong with hlong | hlong
    · exact absurd hsize hlong
    · exact .inr ⟨dir, _, placeOf_rolledPath hplace hplain hsize, Nat.lt_of_not_le hlong⟩
  · refine .inl ?_
    rw [checkPath_rolledPath_eq hnames hplain hcheck, if_pos (Nat.lt_of_not_le hsize)]

/-! ## What a rotation passes over -/

theorem attemptAll_skip {skipped shifts : List (Files → Except Failure Files)}
    (h : ∀ shift ∈ skipped, shift fs = .ok fs) :
    fs.attemptAll (skipped ++ shifts) = fs.attemptAll shifts := by
  induction skipped with
  | nil => rfl
  | cons shift skipped ih =>
    rw [List.cons_append, Files.attemptAll, h shift List.mem_cons_self]
    exact ih fun s hs => h s (List.mem_cons_of_mem _ hs)

/-- A rotation begins with the last number whose name is short enough. -/
theorem attemptAll_shifts_long {l : Location} (hnames : fs.Names path l) (hn : n + 1 < count)
    (hlong : ∀ k, n + 1 ≤ k → k < count → ¬ (Path.ofText (rolledPath path k)).Short) :
    fs.attemptAll (shifts path count) =
      fs.attemptAll ((List.range (n + 1)).reverse.map (moveUp path)) := by
  have hmissing : ∀ k, n + 1 ≤ k → k < count → fs.pathExists (rolledPath path k) = false :=
    fun k hle hlt => (refused_rolledPath hnames (hlong k hle hlt)).pathExists_eq
  obtain ⟨b, hb⟩ : ∃ b, count - 1 = n + 1 + b := ⟨count - 1 - (n + 1), by omega⟩
  rw [shifts_eq path (by omega), hb, List.range_add, List.reverse_append, List.map_append,
    ← List.cons_append]
  refine attemptAll_skip fun shift hshift => ?_
  rcases List.mem_cons.1 hshift with rfl | hshift
  · have hlast : n + 1 + b = n + b + 1 := by omega
    rw [hlast, numbered, dropFile, hmissing _ (by omega) (by omega), if_neg Bool.false_ne_true]
  · obtain ⟨k, hk, rfl⟩ := List.mem_map.1 hshift
    obtain ⟨i, hi, rfl⟩ := List.mem_map.1 (List.mem_reverse.1 hk)
    have hi := List.mem_range.1 hi
    have hmove : n + 1 + i = n + i + 1 := by omega
    rw [hmove, moveUp, moveFile, hmissing _ (by omega) (by omega), if_neg Bool.false_ne_true]

section Rotate

variable (h : Layout log.path (n + 1) loc fs) (hn : n + 1 < log.count)
  (hlong : ∀ k, n + 1 ≤ k → k < log.count → ¬ (Path.ofText (rolledPath log.path k)).Short)
include h hn hlong

/-- A file that cannot get the next number keeps the log from rolling over. -/
theorem rotate_of_file {id : Nat} (hfile : fs.node? (loc n) = some (.file id)) :
    log.rotate fs = (.error .nameTooLong, fs) := by
  have hactive : fs.Names log.path (loc 0) := h.names 0 (Nat.zero_le _)
  have hrefused := refused_rolledPath hactive (hlong (n + 1) (Nat.le_refl _) hn)
  have hmove := moveUp_of_refused (h.names n (Nat.le_refl _)) hrefused (by simp [hfile])
  unfold RollingLog.rotate
  rw [attemptAll_shifts_long hactive hn hlong, List.range_succ, List.reverse_concat,
    List.map_cons, Files.attemptAll, hmove]

/-- Otherwise the log rolls over as one with the files whose names are short enough. -/
theorem rotate_of_free (hfree : fs.node? (loc n) = none) (hactive : fs.node? (loc 0) ≠ none) :
    log.rotate fs =
      (.ok { (rotated { log with count := n + 1 } loc fs).1 with count := log.count },
        (rotated { log with count := n + 1 } loc fs).2) := by
  have hshifts : fs.attemptAll (shifts log.path log.count) =
      (.ok (), rollOver loc (n + 1) fs) := by
    rw [← (attemptAll_shifts h).1]
    cases n with
    | zero => exact absurd hfree hactive
    | succ n =>
      have hnames : fs.Names log.path (loc 0) := h.names 0 (Nat.zero_le _)
      -- the last place is free, so nothing moves on to a name that is too long
      have hmissing : fs.pathExists (rolledPath log.path (n + 1)) = false := by
        have hexists := (h.names (n + 1) (Nat.le_refl _)).pathExists_eq
        rwa [hfree] at hexists
      rw [attemptAll_shifts_long hnames hn hlong, shifts_eq _ (by omega), List.range_succ,
        List.reverse_concat, List.map_cons, Files.attemptAll, Files.attemptAll]
      simp only [moveUp, moveFile, hmissing, numbered, Nat.add_sub_cancel, dropFile]
      rfl
  have hlayout := layout_rollOver h
  have hopen := (hlayout.names 0 (Nat.zero_le _)).openFile_eq (hlayout.regular 0 (Nat.zero_le _))
  unfold RollingLog.rotate
  rw [hshifts]
  simp only [numbered] at hopen
  simp only [Files.openTruncated, hopen, bind, Except.bind]
  rfl

end Rotate

/-! ## Settled logs -/

/-- The first `m` files of a log have names that are short enough, and are as an open log has them.
The names of the others are too long. -/
structure Settled (m : Nat) (log : RollingLog) (loc : Nat → Location) (fs : Files) : Prop where
  active : Active { log with count := m } loc fs
  le_count : m ≤ log.count
  pos : 1 ≤ log.count → 1 ≤ m
  long : ∀ k, m ≤ k → k < log.count → ¬ (Path.ofText (rolledPath log.path k)).Short

namespace Settled

variable {m : Nat}

theorem attached (h : Settled m log loc fs) : Attached log (loc 0) fs :=
  have hattached := h.active.attached
  ⟨⟨hattached.tracks.atEnd, hattached.tracks.written⟩, hattached.names, hattached.file⟩

theorem put (h : Settled m log loc fs) (bytes : Bytes) :
    Settled m (log.put bytes fs).1 loc (log.put bytes fs).2 :=
  ⟨h.active.put bytes, h.le_count, h.pos, h.long⟩

/-- A rotation succeeds and leaves a settled log, or it changes nothing. -/
theorem rotate (h : Settled m log loc fs) :
    (∃ e, log.rotate fs = (.error e, fs)) ∨
      ∃ rolled files, log.rotate fs = (.ok rolled, files) ∧ Settled m rolled loc files := by
  obtain ⟨hactive, hle, hpos, hlong⟩ := h
  have hlayout := hactive.layout
  have hrolled : Settled m
      { (rotated { log with count := m } loc fs).1 with count := log.count } loc
      (rotated { log with count := m } loc fs).2 :=
    ⟨active_rotated hlayout, hle, hpos, hlong⟩
  by_cases hcount : m = log.count
  · subst hcount
    exact .inr ⟨_, _, rotate_eq hlayout, hrolled⟩
  · obtain ⟨n, rfl⟩ : ∃ n, m = n + 1 := ⟨m - 1, by omega⟩
    have hn : n + 1 < log.count := by omega
    have hthere : fs.node? (loc 0) ≠ none := by
      rw [hactive.file]
      exact Option.some_ne_none _
    cases hnode : fs.node? (loc n) with
    | none => exact .inr ⟨_, _, rotate_of_free hlayout hn hlong hnode hthere, hrolled⟩
    | some node =>
      cases node with
      | directory => exact absurd hnode (hlayout.regular n (Nat.le_refl _))
      | file id => exact .inl ⟨_, rotate_of_file hlayout hn hlong hnode⟩

/-- A line is written and leaves a settled log, or nothing changes. -/
theorem append (h : Settled m log loc fs) (line : String) :
    (∃ e, log.append line fs = (.error e, fs)) ∨
      ∃ log' fs', log.append line fs = (.ok log', fs') ∧ Settled m log' loc fs' := by
  unfold RollingLog.append
  dsimp only
  split
  · rcases h.rotate with ⟨e, hrotate⟩ | ⟨rolled, files, hrotate, hrolled⟩
    · exact .inl ⟨e, by rw [hrotate]⟩
    · exact .inr ⟨_, _, by rw [hrotate], hrolled.put _⟩
  · exact .inr ⟨_, _, rfl, h.put _⟩

end Settled

theorem settled_of_create {limit : Nat} {start : Files} (hwf : start.WellFormed)
    (hcreate : RollingLog.create path limit count start = (.ok log, fs))
    (hregular : ∀ k, 1 ≤ k → k < count → fs.isDirectory (.ofText (rolledPath path k)) = false) :
    ∃ m loc, Settled m log loc fs := by
  obtain ⟨made, l, -, ⟨dir, name, hplace, -, -, hplain⟩, -, -, rfl⟩ := create_eq_ok hcreate
  obtain ⟨around, hnames⟩ :=
    List.getLast?_eq_some_iff.1 (Files.placeOf_eq_entry_iff.1 hplace).2.1
  obtain ⟨m, hle, hpos, hshort, hlong⟩ := exists_short hnames hplain count
  obtain ⟨loc, hactive, -⟩ := active_of_create hwf (create_with_count hcreate m) hshort
    fun k hk hlt => hregular k hk (Nat.lt_of_lt_of_le hlt hle)
  exact ⟨m, loc, hactive, hle, hpos, hlong⟩

end ItemGuard.Audit
