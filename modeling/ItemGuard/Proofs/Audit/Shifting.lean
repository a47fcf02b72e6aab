import ItemGuard.Proofs.Audit.LongNames
import ItemGuard.Proofs.Storage.Upward

/-!
# A rotation as a shift of names

Let none of the files of a log be a directory, with any of them missing. A rotation succeeds, each
file then has the name with the next number, the one with the last number is gone, the active one is
empty, and no other entry has changed, the files with larger numbers among them
(`rotate_shiftsUp`).
-/

namespace ItemGuard

open Storage (Files Location Node Path)

namespace Storage.Files

variable {fs : Files} {path : String} {loc : Location}

/-- What a path leads to, with the content if that is a file. -/
def found? (fs : Files) (path : String) : Option (Node × Bytes) :=
  match fs.find (.ofText path) with
  | .ok (loc, node) => some (node, fs.contentAt loc)
  | .error _ => none

/-- What is at a location, with the content if that is a file. -/
def stored? (fs : Files) (loc : Location) : Option (Node × Bytes) :=
  (fs.node? loc).map fun node => (node, fs.contentAt loc)

theorem Names.found?_eq (h : fs.Names path loc) : fs.found? path = fs.stored? loc := by
  unfold found? stored?
  rw [h.find_eq]
  cases fs.node? loc <;> rfl

theorem found?_of_pathExists (h : fs.pathExists path = false) : fs.found? path = none := by
  unfold pathExists at h
  unfold found?
  split
  next hfind => simp [hfind] at h
  next => rfl

theorem stored?_congr {fs' : Files} {loc' : Location} (hnode : fs'.node? loc' = fs.node? loc)
    (hcontent : fs'.contentAt loc' = fs.contentAt loc) : fs'.stored? loc' = fs.stored? loc := by
  unfold stored?
  rw [hnode, hcontent]

end Storage.Files

namespace Audit

open RollingLog (rolledPath)

variable {fs fs' : Files} {loc : Nat → Location} {path : String} {count : Nat}

theorem cwd_shiftUp (n : Nat) (fs : Files) : (shiftUp loc n fs).cwd = fs.cwd := by
  induction n generalizing fs with
  | zero => rfl
  | succ n ih => rw [shiftUp, ih, Files.cwd_moveNode]

section Rotated

variable {log : RollingLog} (h : Layout log.path log.count loc fs)
include h

theorem contentAt_rollOver_of_ne {l : Location} (hl : ∀ k ≤ log.count - 1, l ≠ loc k) :
    (rollOver loc log.count fs).contentAt l = fs.contentAt l := by
  unfold Files.contentAt
  rw [node?_rollOver_of_ne h hl]
  split
  · exact content_rollOver h _
  · rfl

theorem node?_rotated (l : Location) :
    (rotated log loc fs).2.node? l =
      if l = loc 0 then some (.file (rotated log loc fs).1.handle.file)
      else (rollOver loc log.count fs).node? l := by
  have hlayout := layout_rollOver h
  exact Files.node?_openNode (hlayout.names 0 (Nat.zero_le _)).ne_nil
    (hlayout.regular 0 (Nat.zero_le _)) l

theorem node?_rotated_of_ne {l : Location} (hl : ∀ k ≤ log.count - 1, l ≠ loc k) :
    (rotated log loc fs).2.node? l = fs.node? l := by
  rw [node?_rotated h, if_neg (hl 0 (Nat.zero_le _)), node?_rollOver_of_ne h hl]

theorem stored?_rotated_zero :
    (rotated log loc fs).2.stored? (loc 0) =
      some (.file (rotated log loc fs).1.handle.file, []) := by
  unfold Files.stored?
  rw [node?_rotated h, contentAt_rotated h, if_pos rfl, if_pos rfl]
  rfl

/-- Every file of the log has moved to the next number. -/
theorem stored?_rotated_succ {k : Nat} (hk : k + 1 < log.count) :
    (rotated log loc fs).2.stored? (loc (k + 1)) = fs.stored? (loc k) := by
  have hne : loc (k + 1) ≠ loc 0 := fun heq => absurd (h.distinct heq) (Nat.succ_ne_zero k)
  refine Files.stored?_congr ?_ ?_
  · rw [node?_rotated h, if_neg hne, node?_rollOver_succ h (by omega)]
  · rw [contentAt_rotated h, if_neg hne, contentAt_rollOver_succ h (by omega)]

/-- What is not a file of the log stays. -/
theorem stored?_rotated_of_ne {l : Location} (hl : ∀ k ≤ log.count - 1, l ≠ loc k) :
    (rotated log loc fs).2.stored? l = fs.stored? l := by
  refine Files.stored?_congr (node?_rotated_of_ne h hl) ?_
  rw [contentAt_rotated h, if_neg (hl 0 (Nat.zero_le _)), contentAt_rollOver_of_ne h hl]

theorem keeps_rotated : fs.Keeps (rotated log loc fs).2 where
  cwd_eq := by
    have hrolled : (rollOver loc log.count fs).cwd = fs.cwd := by
      unfold rollOver
      split
      · rfl
      · rw [cwd_shiftUp, Files.cwd_dropNode]
    change ((rollOver loc log.count fs).openNode (loc 0)).1.cwd = fs.cwd
    rw [Files.cwd_openNode, hrolled]
  directory {l} hl := by
    have hne : ∀ k ≤ log.count - 1, l ≠ loc k := by
      rintro k hk rfl
      exact h.regular k hk hl
    rw [node?_rotated_of_ne h hne, hl]

/-- The file with the last number has no name any more. -/
theorem node?_rotated_ne_last (hcount : 1 < log.count) {id : Nat}
    (hlast : fs.node? (loc (log.count - 1)) = some (.file id)) (l : Location) :
    (rotated log loc fs).2.node? l ≠ some (.file id) := by
  intro hl
  have honly : ∀ {l'}, fs.node? l' = some (.file id) → l' = loc (log.count - 1) :=
    fun hl' => h.wellFormed.unlinked hl' hlast
  by_cases hlog : ∃ k ≤ log.count - 1, l = loc k
  · obtain ⟨k, hk, rfl⟩ := hlog
    cases k with
    | zero =>
      -- the active file is a new one, as nothing was left in its place
      have hshifted := shifted_rollOver h hcount
      have hnew : (rotated log loc fs).1.handle.file = fs.next := by
        change ((rollOver loc log.count fs).openNode (loc 0)).2 = fs.next
        rw [Files.openNode, hshifted.free, hshifted.next_eq, Files.next_dropNode]
      rw [node?_rotated h, if_pos rfl, hnew] at hl
      cases hl
      exact absurd (h.wellFormed.known hlast) (Nat.lt_irrefl _)
    | succ k =>
      have hne : loc (k + 1) ≠ loc 0 := fun heq => absurd (h.distinct heq) (Nat.succ_ne_zero k)
      rw [node?_rotated h, if_neg hne, node?_rollOver_succ h hk] at hl
      exact absurd (h.distinct (honly hl)) (Nat.ne_of_lt hk)
  · have hne : ∀ k ≤ log.count - 1, l ≠ loc k := fun k hk heq => hlog ⟨k, hk, heq⟩
    rw [node?_rotated_of_ne h hne] at hl
    exact hne _ (Nat.le_refl _) (honly hl)

end Rotated

/-! ## Names before and after -/

/-- The file of every number has the next number, the last one is gone, and the active file is empty.
Larger numbers, and all entries that are no files of the log, are untouched. -/
structure ShiftsUp (path : String) (count : Nat) (fs fs' : Files) : Prop where
  active : ∃ id, fs'.found? path = some (.file id, [])
  up : ∀ k, k + 1 < count → fs'.found? (numbered path (k + 1)) = fs.found? (numbered path k)
  gone : 1 < count → ∀ id bytes, fs.found? (numbered path (count - 1)) = some (.file id, bytes) →
    ∀ l, fs'.node? l ≠ some (.file id)
  beyond : ∀ m, 1 ≤ m → count ≤ m → fs'.found? (numbered path m) = fs.found? (numbered path m)
  other : ∀ l, (∀ k, k = 0 ∨ k < count → ¬ fs.Names (numbered path k) l) →
    fs'.stored? l = fs.stored? l

/-- A number that is too large for a name leads nowhere. -/
theorem found?_of_long {l : Location} (h : fs.Names path l) {k : Nat}
    (hlong : ¬ (Path.ofText (rolledPath path k)).Short) : fs.found? (rolledPath path k) = none :=
  Files.found?_of_pathExists (refused_rolledPath h hlong).pathExists_eq

theorem shiftsUp_rotated {log : RollingLog} (h : Layout log.path log.count loc fs)
    (hnames : ∀ k, (k ≠ 0 → (Path.ofText (rolledPath log.path k)).Short) →
      fs.Names (numbered log.path k) (loc k)) :
    ShiftsUp log.path log.count fs (rotated log loc fs).2 where
  active := ⟨_, (((h.names 0 (Nat.zero_le _)).keeps (keeps_rotated h)).found?_eq).trans
    (stored?_rotated_zero h)⟩
  up k hk := by
    rw [((h.names (k + 1) (by omega)).keeps (keeps_rotated h)).found?_eq,
      (h.names k (by omega)).found?_eq]
    exact stored?_rotated_succ h hk
  gone hcount id bytes hlast := by
    rw [(h.names _ (Nat.le_refl _)).found?_eq] at hlast
    obtain ⟨node, hnode, heq⟩ := Option.map_eq_some_iff.1 hlast
    cases heq
    exact node?_rotated_ne_last h hcount hnode
  beyond m hpos hm := by
    have hactive : fs.Names log.path (loc 0) := h.names 0 (Nat.zero_le _)
    by_cases hshort : (Path.ofText (rolledPath log.path m)).Short
    · have hm' := hnames m fun _ => hshort
      rw [(hm'.keeps (keeps_rotated h)).found?_eq, hm'.found?_eq]
      refine stored?_rotated_of_ne h fun k hk heq => ?_
      exact absurd (h.distinct heq) (by omega)
    · obtain ⟨m, rfl⟩ := Nat.exists_eq_succ_of_ne_zero (Nat.ne_of_gt hpos)
      exact (found?_of_long (hactive.keeps (keeps_rotated h)) hshort).trans
        (found?_of_long hactive hshort).symm
  other l hl := by
    refine stored?_rotated_of_ne h fun k hk heq => ?_
    exact hl k (by omega) (heq ▸ h.names k hk)

/-- **A rotation is a shift.** Let the path of a log name a place in a directory, let none of the
files of the log be a directory, and let their names be short enough. Whichever of them are missing,
and however many there are to be, a rotation succeeds, and every file has moved up by one number. -/
theorem RollingLog.rotate_shiftsUp (log : RollingLog) (fs : Files) (l : Location)
    (hwf : fs.WellFormed) (hpath : fs.Names log.path l)
    (hregular : ∀ k, k = 0 ∨ k < log.count → fs.isDirectory (.ofText (numbered log.path k)) = false)
    (hshort : ∀ k, 1 ≤ k → k < log.count → (Path.ofText (rolledPath log.path k)).Short) :
    ∃ handle fs', log.rotate fs = (.ok { log with handle := handle, written := 0 }, fs') ∧
      ShiftsUp log.path log.count fs fs' := by
  obtain ⟨dir, name, hplace, rfl, hsize, hplain⟩ := id hpath
  have hnames : ∀ k, (k ≠ 0 → (Path.ofText (rolledPath log.path k)).Short) →
      fs.Names (numbered log.path k) (dir ++ [numbered name k]) :=
    fun k => names_numbered hplace hplain hsize
  have hlayout : Layout log.path log.count (fun k => dir ++ [numbered name k]) fs :=
    layout_of_names hwf hpath.hasParent
      (fun k hk => hnames k fun hne => hshort k (Nat.pos_of_ne_zero hne) (by omega))
      fun k hk => hregular k (by omega)
  exact ⟨_, _, rotate_eq hlayout, shiftsUp_rotated hlayout hnames⟩

/-- A log of four files of which the first numbered one and the last one are missing. -/
theorem RollingLog.rotate_shiftsUp_gap :
    let first := ((Files.emptyAt []).openNode ["a.log"]).1.setContent 0 [1]
    let fs := (first.openNode ["a.log.2"]).1.setContent 1 [2]
    let log : RollingLog := ⟨"a.log", 1, 4, ⟨0, true, 0⟩, 1⟩
    ∃ handle fs', log.rotate fs = (.ok { log with handle := handle, written := 0 }, fs') ∧
      ShiftsUp "a.log" 4 fs fs' ∧
      fs'.found? "a.log.1" = some (.file 0, [1]) ∧ fs'.found? "a.log.2" = none ∧
      fs'.found? "a.log.3" = some (.file 1, [2]) := by
  intro first fs log
  have hfirst : first.WellFormed := by
    have hfree : (Files.emptyAt []).node? ([] ++ ["a.log"]) ≠ some .directory := by decide +kernel
    exact ((Files.wellFormed_emptyAt []).openNode rfl hfree).setContent _
  have hwf : fs.WellFormed := by
    have hfree : first.node? ([] ++ ["a.log.2"]) ≠ some .directory := by decide +kernel
    exact (hfirst.openNode rfl hfree).setContent _
  have hpath : fs.Names "a.log" ["a.log"] :=
    ⟨[], "a.log", by decide +kernel, rfl, by decide +kernel, by decide +kernel⟩
  have hregular : ∀ k < 4, fs.isDirectory (.ofText (numbered "a.log" k)) = false := by
    decide +kernel
  have hshort : ∀ k < 4, 1 ≤ k → (Path.ofText (rolledPath "a.log" k)).Short := by
    unfold Path.Short
    decide +kernel
  obtain ⟨handle, fs', hrotate, hshifts⟩ := log.rotate_shiftsUp fs ["a.log"] hwf hpath
    (fun k hk => hregular k (by rcases hk with rfl | hk; exacts [Nat.zero_lt_succ _, hk]))
    fun k hpos hk => hshort k hk hpos
  refine ⟨handle, fs', hrotate, hshifts, ?_, ?_, ?_⟩
  · exact (hshifts.up 0 (by decide)).trans (by decide +kernel)
  · exact (hshifts.up 1 (by decide)).trans (by decide +kernel)
  · exact (hshifts.up 2 (by decide)).trans (by decide +kernel)

end Audit
end ItemGuard
