import ItemGuard.Proofs.Audit.LongNames
import ItemGuard.Proofs.Audit.Run
import ItemGuard.Proofs.Storage.Moves

/-!
# Writes that fail

A record that cannot be written leaves the log and the files as they are (`failed_write_keeps`).
Only a rotation fails, and what makes it fail is in its way from the start: a directory in the last
place, a path that leads nowhere, a name that is too long. Once the first entry has moved, each
place is free when it is needed (`Vacated`), and so nothing can go wrong any more. The exception is
a path that climbs out of a numbered file: that has to be a directory, and the path leads nowhere
when it has moved (`failed_write_moves`).
-/

namespace ItemGuard.Audit

open Storage (Failure Files Location Path nameLimit)
open RollingLog (dropFile moveActive moveFile rolledPath shifts)

variable {fs moved : Files} {loc : Nat → Location} {path : String} {count n m : Nat}

/-! ## Paths of a log -/

/-- In some file system the path names an entry. -/
def Nameable (path : String) : Prop :=
  ∃ (fs : Files) (loc : Location), fs.Names path loc

theorem Nameable.lastName (h : Nameable path) :
    ∃ around name, (Path.ofText path).names = around ++ [name] ∧ name ≠ "." ∧ name ≠ ".." ∧
      name.utf8ByteSize ≤ nameLimit ∧ (Path.ofText path).trailing = false ∧
      Files.checkPath (.ofText path) = .ok () := by
  obtain ⟨fs, loc, dir, name, hplace, -, hsize, hplain⟩ := h
  obtain ⟨hcheck, hlast, hdot, hdots, -⟩ := Files.placeOf_eq_entry_iff.1 hplace
  obtain ⟨around, hnames⟩ := List.getLast?_eq_some_iff.1 hlast
  exact ⟨around, name, hnames, hdot, hdots, hsize, hplain, hcheck⟩

theorem Nameable.names_of_placeOf (h : Nameable path) {place : Files.Place}
    (hplace : fs.placeOf (.ofText path) = .ok place) :
    ∃ dir name, place = .entry dir name ∧ fs.Names path (dir ++ [name]) := by
  obtain ⟨around, name, hnames, hdot, hdots, hsize, hplain, hcheck⟩ := h.lastName
  have hlast : (Path.ofText path).names.getLast? = some name := by
    rw [hnames, List.getLast?_concat]
  cases place with
  | entry dir name' =>
    obtain ⟨-, hlast', -⟩ := Files.placeOf_eq_entry_iff.1 hplace
    obtain rfl : name = name' := Option.some.inj (hlast.symm.trans hlast')
    exact ⟨dir, name, rfl, dir, name, hplace, rfl, hsize, hplain⟩
  | directory =>
    simp only [Files.placeOf, hcheck, hlast, hdot, hdots, bind, Except.bind, or_self,
      if_false] at hplace
    split at hplace
    · cases hplace
    · split at hplace <;> cases hplace

theorem Nameable.start_numbered (h : Nameable path) (fs : Files) (k : Nat) :
    fs.start (.ofText (numbered path k)) = fs.start (.ofText path) := by
  obtain ⟨around, name, hnames, -⟩ := h.lastName
  have hne : path.toList ≠ [] := by
    intro hnil
    simp [Path.ofText, hnil, Text.splitOn] at hnames
  cases k with
  | zero => rfl
  | succ k =>
    unfold Files.start
    rw [numbered, rooted_rolledPath hne]

/-- A path and its numbered files lead the same way. -/
theorem through_numbered {l : Location} {k : Nat} (h : Nameable path) :
    fs.Through (.ofText (numbered path k)) l ↔ fs.Through (.ofText path) l := by
  obtain ⟨around, name, hnames, -, -, -, hplain, -⟩ := h.lastName
  unfold Files.Through
  rw [h.start_numbered, names_ofText_numbered hnames hplain, hnames, List.dropLast_concat,
    List.dropLast_concat]

/-- The path leads through no place of a file that moves when the log rolls over. -/
def ClearWay (path : String) (count : Nat) (fs : Files) : Prop :=
  ∀ k, k + 1 < count → ∀ l, fs.Names (numbered path k) l → ¬ fs.Through (.ofText path) l

/-- The way is clear where a path does not climb. -/
theorem clearWay_of_dots_notMem (h : Nameable path) (hdots : ".." ∉ (Path.ofText path).names)
    (count : Nat) (fs : Files) : ClearWay path count fs := by
  intro k _ l hl hthrough
  obtain ⟨around, name, hnames, -, -, -, hplain, -⟩ := h.lastName
  obtain ⟨dir, name', hplace, rfl, -⟩ := hl
  have hprefix := Files.prefix_of_through (dots_notMem_numbered hnames hplain hdots k) hplace
    ((through_numbered h).2 hthrough)
  have hlength := hprefix.length_le
  rw [List.length_append, List.length_singleton] at hlength
  omega

/-! ## Rotations that move nothing -/

theorem attemptAll_idle {shifts : List (Files → Except Failure Files)}
    (h : ∀ shift ∈ shifts, ∀ moved, shift fs = .ok moved → moved = fs) :
    (fs.attemptAll shifts).2 = fs := by
  refine Files.attemptAll_induct (P := fun moved => moved = fs) ?_ rfl
  rintro shift hmem moved moved' rfl hshift
  exact h shift hmem moved' hshift

theorem rotate_eq_error {log : RollingLog} {e : Failure} {fs' : Files}
    (h : log.rotate fs = (.error e, fs')) :
    fs.attemptAll (shifts log.path log.count) = (.error e, fs') ∨
      fs.attemptAll (shifts log.path log.count) = (.ok (), fs') ∧
        fs'.openTruncated log.path = .error e := by
  unfold RollingLog.rotate at h
  split at h
  next hshifts =>
    cases h
    exact .inl hshifts
  next hshifts =>
    split at h
    next hopen =>
      cases h
      exact .inr ⟨hshifts, hopen⟩
    next => cases h

section Lost

variable (h : Nameable path) (hlost : ∀ place, fs.placeOf (.ofText path) ≠ .ok place)
include h hlost

theorem pathExists_of_lost (k : Nat) : fs.pathExists (rolledPath path (k + 1)) = false := by
  obtain ⟨around, name, hnames, hdot, hdots, -, hplain, hcheck⟩ := h.lastName
  unfold Files.pathExists
  split
  next found hfind =>
    obtain ⟨-, hwalk, -⟩ := Files.find_eq_ok_iff.1 hfind
    have hstart : fs.start (.ofText (rolledPath path (k + 1))) = fs.start (.ofText path) :=
      h.start_numbered fs (k + 1)
    rw [hstart, names_rolledPath hnames hplain, Files.walk_append] at hwalk
    cases hdir : fs.walk (fs.start (.ofText path)) around with
    | error e => simp [hdir, Except.bind] at hwalk
    | ok dir =>
      rw [hdir] at hwalk
      have hplace : fs.placeOf (.ofText path) = .ok (.entry dir name) :=
        Files.placeOf_eq_entry_iff.2 ⟨hcheck, by rw [hnames, List.getLast?_concat], hdot, hdots,
          by rw [hnames, List.dropLast_concat, hdir], (Files.walk_cons_eq_ok_iff.1 hwalk).1⟩
      exact absurd hplace (hlost _)
  next => rfl

/-- Where a path leads nowhere, there is nothing to move. -/
theorem attemptAll_shifts_of_lost (count : Nat) :
    (fs.attemptAll (shifts path count)).2 = fs := by
  have hmissing := pathExists_of_lost h hlost
  by_cases hcount : 1 < count
  · rw [shifts_eq path hcount]
    refine attemptAll_idle fun shift hshift moved hmoved => ?_
    rcases List.mem_cons.1 hshift with rfl | hshift
    · obtain ⟨k, hk⟩ : ∃ k, count - 1 = k + 1 := ⟨count - 2, by omega⟩
      rw [hk, numbered, dropFile, hmissing, if_neg Bool.false_ne_true] at hmoved
      exact (Except.ok.inj hmoved).symm
    · obtain ⟨k, -, rfl⟩ := List.mem_map.1 hshift
      cases k with
      | zero =>
        cases hplace : fs.placeOf (.ofText path) with
        | ok place => exact absurd hplace (hlost place)
        | error e =>
          simp only [moveUp, moveActive, Files.rename, hplace, bind, Except.bind] at hmoved
          split at hmoved
          · exact (Except.ok.inj hmoved).symm
          · cases hmoved
      | succ k =>
        rw [moveUp, moveFile, hmissing, if_neg Bool.false_ne_true] at hmoved
        exact (Except.ok.inj hmoved).symm
  · rw [shifts, if_pos (Nat.le_of_not_lt hcount)]
    rfl

end Lost

/-! ## Rotations that have begun -/

theorem moveUp_succ_of_none {s : Location} (hs : fs.Names (numbered path (n + 1)) s)
    (hnone : fs.node? s = none) : moveUp path (n + 1) fs = .ok fs := by
  have hmissing : fs.pathExists (rolledPath path (n + 1)) = false :=
    hs.pathExists_eq.trans (by rw [hnone]; rfl)
  rw [moveUp, moveFile, hmissing, if_neg Bool.false_ne_true]

section MoveUp

variable {s t : Location} (hs : fs.Names (numbered path n) s)
include hs

theorem moveUp_of_none (ht : fs.Names (numbered path (n + 1)) t) (hnone : fs.node? s = none) :
    moveUp path n fs = .ok fs := by
  cases n with
  | zero =>
    have hrename : fs.rename path (rolledPath path 1) = .error .notFound :=
      hs.rename_of_none ht hnone
    rw [moveUp, moveActive, hrename]
    rfl
  | succ n => exact moveUp_succ_of_none hs hnone

theorem moveUp_of_rename (hthere : fs.node? s ≠ none)
    (hrename : fs.rename (numbered path n) (numbered path (n + 1)) = .ok moved) :
    moveUp path n fs = .ok moved := by
  cases n with
  | zero =>
    have hactive : fs.rename path (rolledPath path 1) = .ok moved := hrename
    rw [moveUp, moveActive, hactive]
  | succ n =>
    have hexists : fs.pathExists (rolledPath path (n + 1)) = true :=
      hs.pathExists_eq.trans (Option.isSome_iff_ne_none.2 hthere)
    rw [moveUp, moveFile, hexists, if_pos rfl]
    exact hrename

end MoveUp

/-- What was at the numbers from `n` to `m` has moved or is gone, and number `n` is free. The path
starts where it did. -/
structure Vacated (path : String) (loc : Nat → Location) (n m : Nat) (fs moved : Files) : Prop where
  start_eq : moved.start (.ofText path) = fs.start (.ofText path)
  other : ∀ l, (∀ k, n ≤ k → k ≤ m → ¬ loc k <+: l) → moved.node? l = fs.node? l
  free : ∀ l, loc n <+: l → moved.node? l = none

/-- No location is below two of the places. -/
def Apart (loc : Nat → Location) : Prop :=
  ∀ {j k l}, loc j <+: l → loc k <+: l → j = k

theorem apart_numbered (dir : Location) (name : String) :
    Apart fun k => dir ++ [numbered name k] := by
  rintro j k l ⟨rest, rfl⟩ ⟨rest', heq⟩
  simp only [List.append_assoc, List.append_cancel_left_eq, List.cons_append, List.nil_append,
    List.cons.injEq] at heq
  exact (numbered_inj.1 heq.1).symm

namespace Vacated

theorem self (hwf : fs.WellFormed) (hfree : fs.node? (loc n) = none) :
    Vacated path loc n m fs fs := by
  refine ⟨rfl, fun _ _ => rfl, fun l hl => ?_⟩
  by_cases heq : l = loc n
  · rw [heq, hfree]
  · exact hwf.node?_below (by simp [hfree]) hl heq

/-- To drop what is in the last place leaves it free, if that is a file. -/
theorem dropNode (hwf : fs.WellFormed) (hne : loc n ≠ [])
    (hregular : fs.node? (loc n) ≠ some .directory) :
    Vacated path loc n n fs (fs.dropNode (loc n)) := by
  refine ⟨?_, fun l hl => ?_, fun l hl => ?_⟩
  · unfold Files.start
    rw [Files.cwd_dropNode]
  · have hneq : l ≠ loc n := fun heq =>
      hl n (Nat.le_refl _) (Nat.le_refl _) (heq ▸ List.prefix_rfl)
    rw [Files.node?_dropNode hne, if_neg hneq]
  · rw [Files.node?_dropNode hne]
    split
    · rfl
    next heq => exact hwf.node?_below hregular hl heq

section Way

variable (hpath : Nameable path)
  (hway : ∀ l, fs.Through (.ofText path) l → ∀ k ≤ m, ¬ loc k <+: l)
include hpath hway

theorem names (h : Vacated path loc n m fs moved) {k : Nat} {l : Location}
    (hnames : fs.Names (numbered path k) l) : moved.Names (numbered path k) l :=
  hnames.of_agrees (by rw [hpath.start_numbered, hpath.start_numbered, h.start_eq]) fun l' hl' =>
    h.other l' fun j _ hj => hway l' ((through_numbered hpath).1 hl') j hj

/-- The next move succeeds, and leaves its place free. -/
theorem moveUp (h : Vacated path loc (n + 1) m fs moved) (hwf : fs.WellFormed) (hapart : Apart loc)
    (hn : n + 1 ≤ m) (hnames : ∀ k ≤ m, fs.Names (numbered path k) (loc k)) :
    ∃ moved', Audit.moveUp path n moved = .ok moved' ∧ Vacated path loc n m fs moved' := by
  have hsource := h.names hpath hway (hnames n (by omega))
  have htarget := h.names hpath hway (hnames (n + 1) hn)
  have hsame : ∀ l, loc n <+: l → moved.node? l = fs.node? l := by
    intro l hl
    refine h.other l fun k hk _ hkl => ?_
    have heq := hapart hl hkl
    omega
  have hbelow : moved.node? (loc n) ≠ some .directory → ∀ l, loc n <+: l → l ≠ loc n →
      moved.node? l = none := by
    intro hplain l hl hne
    rw [hsame _ List.prefix_rfl] at hplain
    rw [hsame l hl]
    exact hwf.node?_below hplain hl hne
  by_cases hthere : moved.node? (loc n) = none
  · refine ⟨moved, moveUp_of_none hsource htarget hthere, h.start_eq, fun l hl => ?_,
      fun l hl => ?_⟩
    · exact h.other l fun k hk hkm => hl k (by omega) hkm
    · by_cases heq : l = loc n
      · rw [heq, hthere]
      · exact hbelow (by simp [hthere]) l hl heq
  · have hgoes : ¬ loc n <+: loc (n + 1) := fun hprefix =>
      absurd (hapart hprefix List.prefix_rfl) (by omega)
    have hstart : ¬ loc n <+: moved.start (.ofText path) := by
      rw [h.start_eq]
      exact hway _ ⟨[], List.nil_prefix, rfl⟩ n (by omega)
    obtain ⟨moved', hrename, hstarts, hnode⟩ := hsource.rename_free htarget hthere
      (h.free _ List.prefix_rfl) hgoes hbelow
    refine ⟨moved', moveUp_of_rename hsource hthere hrename,
      (hstarts _ hstart).trans h.start_eq, fun l hl => ?_, fun l hl => ?_⟩
    · rw [hnode l (hl (n + 1) (by omega) hn), if_neg (hl n (Nat.le_refl _) (by omega))]
      exact h.other l fun k hk hkm => hl k (by omega) hkm
    · have hnot : ¬ loc (n + 1) <+: l := fun hprefix =>
        absurd (hapart hl hprefix) (by omega)
      rw [hnode l hnot, if_pos hl]

/-- All moves that remain succeed. -/
theorem attemptAll_moveUp (h : Vacated path loc n m fs moved) (hwf : fs.WellFormed)
    (hapart : Apart loc) (hn : n ≤ m) (hnames : ∀ k ≤ m, fs.Names (numbered path k) (loc k)) :
    ∃ moved', moved.attemptAll ((List.range n).reverse.map (Audit.moveUp path)) = (.ok (), moved') ∧
      Vacated path loc 0 m fs moved' := by
  induction n generalizing moved with
  | zero => exact ⟨moved, rfl, h⟩
  | succ n ih =>
    obtain ⟨moved', hmove, hmoved⟩ := h.moveUp hpath hway hwf hapart hn hnames
    rw [List.range_succ, List.reverse_concat, List.map_cons, Files.attemptAll, hmove]
    exact ih hmoved (by omega)

end Way
end Vacated

/-! ## Rotations that fail -/

/-- Moving the files of a log up fails and changes nothing, or it leaves the active place free. -/
def Movable (path : String) (count : Nat) (active : Location) (fs : Files) : Prop :=
  (∃ e, fs.attemptAll (shifts path count) = (.error e, fs)) ∨
    ∃ moved, fs.attemptAll (shifts path count) = (.ok (), moved) ∧ moved.Names path active ∧
      moved.node? active = none

section Rotate

variable {dir : Location} {name : String} (hwf : fs.WellFormed) (hpath : Nameable path)
  (hnames : fs.Names path (dir ++ [name])) (hcount : 1 < count) (hway : ClearWay path count fs)

include hnames hway in
theorem not_below_numbered {k : Nat} (hk : k + 1 < count)
    (hnumbered : fs.Names (numbered path k) (dir ++ [numbered name k])) {l : Location}
    (hl : fs.Through (.ofText path) l) : ¬ dir ++ [numbered name k] <+: l := by
  obtain ⟨dir', name', hplace, heq, -⟩ := hnames
  obtain ⟨rfl, -⟩ := List.append_inj' heq rfl
  refine Files.not_below_of_through hplace (fun hprefix => ?_) (hway k hk _ hnumbered) hl
  have hlength := hprefix.length_le
  rw [List.length_append, List.length_singleton] at hlength
  omega

include hwf hpath hnames hcount hway

theorem movable_of_short
    (hall : ∀ k < count, fs.Names (numbered path k) (dir ++ [numbered name k])) :
    Movable path count (dir ++ [name]) fs := by
  have hlast := hall (count - 1) (by omega)
  unfold Movable
  rw [shifts_eq path hcount, Files.attemptAll]
  by_cases hregular : fs.node? (dir ++ [numbered name (count - 1)]) = some .directory
  · refine .inl ⟨.isADirectory, ?_⟩
    have hexists := hlast.pathExists_eq
    rw [dropFile, hexists, hregular, Option.isSome_some, if_pos rfl,
      hlast.removeFile_of_directory hregular]
  · rw [dropFile_eq hlast hregular]
    have hbelow : ∀ l, fs.Through (.ofText path) l → ∀ k ≤ count - 1,
        ¬ dir ++ [numbered name k] <+: l := by
      intro l hl k hk hprefix
      by_cases hk' : k + 1 < count
      · exact not_below_numbered hnames hway hk' (hall k (by omega)) hl hprefix
      · obtain rfl : k = count - 1 := by omega
        obtain ⟨dir', name', hplace, -⟩ := hnames
        exact hregular (hwf.directory_above hprefix (hl.directory hplace))
    have hdropped : Vacated path (fun k => dir ++ [numbered name k]) (count - 1) (count - 1) fs
        (fs.dropNode (dir ++ [numbered name (count - 1)])) :=
      Vacated.dropNode hwf hlast.ne_nil hregular
    obtain ⟨moved, hmoves, hmoved⟩ := hdropped.attemptAll_moveUp hpath hbelow hwf
      (apart_numbered dir name) (Nat.le_refl _) fun k hk => hall k (by omega)
    exact .inr ⟨moved, hmoves, hmoved.names (k := 0) hpath hbelow hnames,
      hmoved.free _ List.prefix_rfl⟩

omit hcount in
theorem movable_of_long (hn : n + 1 < count)
    (hall : ∀ k ≤ n, fs.Names (numbered path k) (dir ++ [numbered name k]))
    (hlong : ∀ k, n + 1 ≤ k → k < count → ¬ (Path.ofText (rolledPath path k)).Short) :
    Movable path count (dir ++ [name]) fs := by
  have hrefused := refused_rolledPath hnames (hlong (n + 1) (Nat.le_refl _) hn)
  have hlast := hall n (Nat.le_refl _)
  unfold Movable
  rw [attemptAll_shifts_long hnames hn hlong, List.range_succ, List.reverse_concat,
    List.map_cons, Files.attemptAll]
  by_cases hthere : fs.node? (dir ++ [numbered name n]) = none
  · cases n with
    | zero =>
      rcases hrefused.rename_error hnames with hrename | ⟨hrename, -⟩
      · exact .inl ⟨.nameTooLong, by simp [moveUp, moveActive, hrename, Failure.nameTooLong]⟩
      · refine .inr ⟨fs, ?_, hnames, hthere⟩
        simp [moveUp, moveActive, hrename, Failure.notFound, Files.attemptAll]
    | succ n =>
      rw [moveUp_succ_of_none hlast hthere]
      have hbelow : ∀ l, fs.Through (.ofText path) l → ∀ k ≤ n + 1,
          ¬ dir ++ [numbered name k] <+: l := fun l hl k hk =>
        not_below_numbered hnames hway (by omega) (hall k hk) hl
      have hfirst : Vacated path (fun k => dir ++ [numbered name k]) (n + 1) (n + 1) fs fs :=
        Vacated.self hwf hthere
      obtain ⟨moved, hmoves, hmoved⟩ := hfirst.attemptAll_moveUp hpath hbelow hwf
        (apart_numbered dir name) (Nat.le_refl _) hall
      exact .inr ⟨moved, hmoves, hmoved.names (k := 0) hpath hbelow hnames,
        hmoved.free _ List.prefix_rfl⟩
  · rw [moveUp_of_refused hlast hrefused hthere]
    exact .inl ⟨_, rfl⟩

theorem movable : Movable path count (dir ++ [name]) fs := by
  obtain ⟨dir', name', hplace, heq, hsize, hplain⟩ := id hnames
  obtain ⟨rfl, hname⟩ := List.append_inj' heq rfl
  obtain rfl := List.singleton_inj.1 hname
  obtain ⟨around, hlast⟩ :=
    List.getLast?_eq_some_iff.1 (Files.placeOf_eq_entry_iff.1 hplace).2.1
  obtain ⟨m, hm, hpos, hshort, hlong⟩ := exists_short hlast hplain count
  have hall : ∀ k < m, fs.Names (numbered path k) (dir ++ [numbered name k]) := fun k hk =>
    names_numbered hplace hplain hsize fun hne => hshort k (Nat.pos_of_ne_zero hne) hk
  rcases Nat.eq_or_lt_of_le hm with rfl | hlt
  · exact movable_of_short hwf hpath hnames hcount hway hall
  · obtain ⟨n, rfl⟩ : ∃ n, m = n + 1 := ⟨m - 1, by omega⟩
    exact movable_of_long hwf hpath hnames hway hlt (fun k hk => hall k (by omega)) hlong

end Rotate

/-- A rotation that fails has changed nothing. -/
theorem files_of_rotate_error {log : RollingLog} {e : Failure} {fs' : Files} (hwf : fs.WellFormed)
    (hpath : Nameable log.path) (hway : ClearWay log.path log.count fs)
    (h : log.rotate fs = (.error e, fs')) : fs' = fs := by
  have hshifts : (fs.attemptAll (shifts log.path log.count)).2 = fs' := by
    rcases rotate_eq_error h with hshifts | ⟨hshifts, -⟩ <;> rw [hshifts]
  by_cases hcount : 1 < log.count
  · by_cases hlost : ∀ place, fs.placeOf (.ofText log.path) ≠ .ok place
    · rw [← hshifts]
      exact attemptAll_shifts_of_lost hpath hlost log.count
    · obtain ⟨place, hplace⟩ := not_forall_not.1 hlost
      obtain ⟨dir, name, -, hnames⟩ := hpath.names_of_placeOf hplace
      rcases movable hwf hpath hnames hcount hway with ⟨e', herror⟩ | ⟨moved, hok, hactive, hfree⟩
      · rw [← hshifts, herror]
      · -- the active file is made where nothing is, so the rotation has not failed
        rcases rotate_eq_error h with herror | ⟨hok', hopen⟩
        · rw [hok] at herror
          cases herror
        · rw [hok] at hok'
          cases hok'
          simp [Files.openTruncated, hactive.openFile_eq (by simp [hfree]), bind, Except.bind]
            at hopen
  · rw [← hshifts, shifts, if_pos (Nat.le_of_not_lt hcount)]
    rfl

/-! ## Loggers -/

namespace Logger

variable {s : AuditSettings} {env : Environment}

theorem nameable_of_opening {start : Files} {log : RollingLog}
    (hlog : (opening s env start).1.file = some log) :
    ∃ path, s.filePath env = some path ∧ OfSettings s path log ∧ Nameable path := by
  obtain ⟨path, hpath, hcreate⟩ := log_of_opening hlog
  obtain ⟨made, l, -, hnames, -⟩ := create_eq_ok hcreate
  exact ⟨path, hpath, ofSettings_of_create hcreate, made, l, hnames⟩

/-- Whatever happens, the path of the log is one that could be opened. -/
theorem nameable_afterwards {start : Files} {happenings : List Happening} {log : RollingLog}
    (hlog : (afterwards s env (opening s env start) happenings).1.file = some log) :
    ∃ path, s.filePath env = some path ∧ OfSettings s path log ∧ Nameable path := by
  induction happenings using List.reverseRecOn generalizing log with
  | nil => exact nameable_of_opening hlog
  | append_singleton happenings x ih =>
    rw [afterwards_concat] at hlog
    generalize afterwards s env (opening s env start) happenings = state at ih hlog
    obtain ⟨l, fs⟩ := state
    cases x with
    | outside change => exact ih hlog
    | step x =>
      cases x with
      | reopen => exact nameable_of_opening hlog
      | write r =>
        obtain ⟨old, hold, happend | ⟨rfl, -⟩⟩ := log_of_write hlog
        · obtain ⟨path, hpath, hsettings, hnameable⟩ := ih hold
          exact ⟨path, hpath, hsettings.append happend, hnameable⟩
        · exact ih hold

/-- Where the path of the settings does not climb, its way is clear whatever happens. -/
theorem clearWay_afterwards {start : Files} {happenings : List Happening} {path : String}
    (hpath : s.filePath env = some path) (hdots : ".." ∉ (Path.ofText path).names)
    (hopen : (afterwards s env (opening s env start) happenings).1.file.isSome = true)
    (fs : Files) : ClearWay path s.fileCount fs := by
  obtain ⟨log, hlog⟩ := Option.isSome_iff_exists.1 hopen
  obtain ⟨path', hpath', -, hnameable⟩ := nameable_afterwards hlog
  obtain rfl : path = path' := Option.some.inj (hpath.symm.trans hpath')
  exact clearWay_of_dots_notMem hnameable hdots s.fileCount fs

/-- **Failed writes.** Whatever has happened to a logger and to the files, a write that fails leaves
both as they are, unless the path of the log leads through the place of a file that a rotation
moves. So all that happens later comes to the same as if the write had not been tried. -/
theorem failed_write_keeps (s : AuditSettings) (env : Environment) (start : Files)
    (happenings : List Happening) (r : Record) (e : Failure) :
    let state := afterwards s env (opening s env start) happenings
    let w := state.1.write r state.2
    state.2.WellFormed →
    (∀ path, s.filePath env = some path → ClearWay path s.fileCount state.2) →
    w.result = .error e →
      w.sink = state.1 ∧ w.files = state.2 ∧
      ∀ later, results s env (w.sink, w.files) later = results s env state later ∧
        afterwards s env (w.sink, w.files) later = afterwards s env state later := by
  intro state w hwf hway herror
  obtain ⟨hsink, log, hlog, happend⟩ := append_of_write_error herror
  obtain ⟨path, hpath, ⟨hlogpath, -, hcount⟩, hnameable⟩ := nameable_afterwards hlog
  have hfiles : w.files = state.2 := by
    subst hlogpath
    refine files_of_rotate_error hwf hnameable ?_ (append_eq_error happend).2
    rw [hcount]
    exact hway _ hpath
  refine ⟨hsink, hfiles, fun later => ?_⟩
  rw [hsink, hfiles]
  exact ⟨rfl, rfl⟩

/-- All files of the log were removed, and a directory was made in the last place. -/
theorem failed_write_keeps_blocked :
    let s : AuditSettings := ⟨false, some "a.log", 1, 3⟩
    let env : Environment := ⟨none, none⟩
    let r : Record := ⟨⟨0, 0⟩, "alex", ⟨7⟩, .destroy, "no"⟩
    let blocked := ((Files.emptyAt []).makeParents "a.log.2/x").2
    let happenings := [.step (.write r), .outside fun _ => blocked]
    let state := afterwards s env (opening s env (Files.emptyAt [])) happenings
    let w := state.1.write r state.2
    state.2.WellFormed ∧ ClearWay "a.log" 3 state.2 ∧ w.result = .error .isADirectory ∧
      w.files = state.2 := by
  intro s env r blocked happenings state w
  have hwf : state.2.WellFormed := (Files.wellFormed_emptyAt []).makeParents "a.log.2/x"
  have hpath : s.filePath env = some "a.log" := by decide +kernel
  have herror : w.result = .error .isADirectory := by decide +kernel
  have hnames : (Files.emptyAt []).Names "a.log" ["a.log"] :=
    ⟨[], "a.log", by decide +kernel, rfl, by decide +kernel, by decide +kernel⟩
  have hdots : ".." ∉ (Path.ofText "a.log").names := by decide +kernel
  have hway : ClearWay "a.log" 3 state.2 := clearWay_of_dots_notMem ⟨_, _, hnames⟩ hdots 3 state.2
  have hways : ∀ path, s.filePath env = some path → ClearWay path s.fileCount state.2 := by
    intro path hpath'
    obtain rfl : "a.log" = path := Option.some.inj (hpath.symm.trans hpath')
    exact hway
  obtain ⟨-, hfiles, -⟩ :=
    failed_write_keeps s env (Files.emptyAt []) happenings r .isADirectory hwf hways herror
  exact ⟨hwf, hway, herror, hfiles⟩

/-- The path of this log climbs out of a directory that has the name of a numbered file. The
rotation before the second line moves that directory, and then the path leads nowhere. -/
theorem failed_write_moves :
    let s : AuditSettings := ⟨false, some "a.log.1/../a.log", 1, 3⟩
    let env : Environment := ⟨none, none⟩
    let r : Record := ⟨⟨0, 0⟩, "alex", ⟨7⟩, .destroy, "no"⟩
    let state := afterwards s env (opening s env (Files.emptyAt [])) [.step (.write r)]
    let w := state.1.write r state.2
    w.result = .error .notFound ∧
      state.2.isDirectory (.ofText "a.log.1") = true ∧
      w.files.isDirectory (.ofText "a.log.1") = false := by
  decide +kernel

end Logger

end ItemGuard.Audit
