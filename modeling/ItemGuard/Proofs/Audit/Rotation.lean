import ItemGuard.Proofs.Audit.Numbered

/-!
# Rolling over is a shift

Where the files of a log are no directories (`Layout`), rolling over cannot fail: the file with the
last number goes, every other one moves up by one number, and an empty active file is made
(`rotate_eq`). The moves start at the end, so each of them finds its target free, and what a number
had before has the next number afterwards (`shifted_shiftUp`).
-/

namespace ItemGuard.Audit

open Storage (Failure Files Location)
open RollingLog (dropFile moveActive moveFile rolledPath shifts)

variable {fs fs' : Files} {loc : Nat → Location} {path : String} {count : Nat}

/-- The files of a log are at different locations in a directory that is there. Each of them may be
missing, and none is a directory. -/
structure Layout (path : String) (count : Nat) (loc : Nat → Location) (fs : Files) : Prop where
  wellFormed : fs.WellFormed
  parent : fs.HasParent path
  names : ∀ k ≤ count - 1, fs.Names (numbered path k) (loc k)
  regular : ∀ k ≤ count - 1, fs.node? (loc k) ≠ some .directory
  distinct : ∀ {j k}, loc j = loc k → j = k

namespace Layout

theorem change (h : Layout path count loc fs) (hwf : fs'.WellFormed) (hkeeps : fs.Keeps fs')
    (hregular : ∀ k ≤ count - 1, fs'.node? (loc k) ≠ some .directory) :
    Layout path count loc fs' :=
  ⟨hwf, h.parent.keeps hkeeps, fun k hk => (h.names k hk).keeps hkeeps, hregular, h.distinct⟩

theorem setContent (h : Layout path count loc fs) (id : Nat) (bytes : Bytes) :
    Layout path count loc (fs.setContent id bytes) :=
  h.change (h.wellFormed.setContent bytes) (.setContent bytes) h.regular

theorem dropNode (h : Layout path count loc fs) {k : Nat} (hk : k ≤ count - 1) :
    Layout path count loc (fs.dropNode (loc k)) := by
  have hne := (h.names k hk).ne_nil
  refine h.change (h.wellFormed.dropNode (h.regular k hk)) (.dropNode (h.regular k hk) hne) ?_
  intro j hj
  rw [Files.node?_dropNode hne]
  split
  · exact Option.some_ne_none _ |>.symm
  · exact h.regular j hj

theorem openNode (h : Layout path count loc fs) :
    Layout path count loc (fs.openNode (loc 0)).1 := by
  have hne := (h.names 0 (Nat.zero_le _)).ne_nil
  have hactive := h.regular 0 (Nat.zero_le _)
  obtain ⟨dir, name, hloc, hdir⟩ := (h.names 0 (Nat.zero_le _)).inDirectory
  refine h.change ?_ (.openNode hactive hne) ?_
  · rw [hloc] at hactive ⊢
    exact h.wellFormed.openNode hdir hactive
  · intro j hj
    rw [Files.node?_openNode hne hactive]
    split
    · intro heq
      cases heq
    · exact h.regular j hj

theorem moveNode (h : Layout path count loc fs) {k : Nat} (hk : k + 1 ≤ count - 1)
    (hfree : fs.node? (loc (k + 1)) = none) :
    Layout path count loc (fs.moveNode (loc k) (loc (k + 1))) := by
  have hsource := h.names k (Nat.le_of_succ_le hk)
  have htarget := h.names (k + 1) hk
  have hregular := h.regular k (Nat.le_of_succ_le hk)
  obtain ⟨dir, name, hloc, hdir⟩ := htarget.inDirectory
  refine h.change ?_ (.moveNode hregular hfree hsource.ne_nil htarget.ne_nil) ?_
  · rw [hloc] at hfree ⊢
    exact h.wellFormed.moveNode hregular hdir (by simp [hfree])
  · intro j hj
    rw [Files.node?_moveNode hsource.ne_nil htarget.ne_nil hfree]
    split
    · exact hregular
    · split
      · exact Option.some_ne_none _ |>.symm
      · exact h.regular j hj

end Layout

/-- The files of a log have their places in the directory of the active one. -/
theorem layout_of_names {dir : Location} {name : String} (hwf : fs.WellFormed)
    (hparent : fs.HasParent path)
    (hnames : ∀ k ≤ count - 1, fs.Names (numbered path k) (dir ++ [numbered name k]))
    (hregular : ∀ k ≤ count - 1, fs.isDirectory (.ofText (numbered path k)) = false) :
    Layout path count (fun k => dir ++ [numbered name k]) fs where
  wellFormed := hwf
  parent := hparent
  names := hnames
  regular k hk := by
    have hthere := (hnames k hk).isDirectory_eq
    rw [hregular k hk] at hthere
    exact of_decide_eq_false hthere.symm
  distinct h := numbered_inj.1 (List.singleton_inj.1 (List.append_cancel_left h))

/-! ## Moving up -/

/-- What is at each of the first locations moves to the next one, the last one first. -/
def shiftUp (loc : Nat → Location) : Nat → Files → Files
  | 0, fs => fs
  | n + 1, fs => shiftUp loc n (fs.moveNode (loc n) (loc (n + 1)))

/-- What was at each of the first locations is at the next one. -/
structure Shifted (loc : Nat → Location) (n : Nat) (fs fs' : Files) : Prop where
  up : ∀ k < n, fs'.node? (loc (k + 1)) = fs.node? (loc k)
  free : fs'.node? (loc 0) = none
  other : ∀ l, (∀ k ≤ n, l ≠ loc k) → fs'.node? l = fs.node? l
  content_eq : ∀ id, fs'.content id = fs.content id
  next_eq : fs'.next = fs.next

theorem shifted_shiftUp (hdistinct : ∀ {j k}, loc j = loc k → j = k) {n : Nat}
    (hne : ∀ k ≤ n, loc k ≠ []) (hfree : fs.node? (loc n) = none) :
    Shifted loc n fs (shiftUp loc n fs) := by
  induction n generalizing fs with
  | zero =>
    exact ⟨fun k hk => absurd hk (Nat.not_lt_zero k), hfree, fun _ _ => rfl, fun _ => rfl, rfl⟩
  | succ n ih =>
    have hnode := Files.node?_moveNode (hne n (Nat.le_succ n)) (hne (n + 1) (Nat.le_refl _)) hfree
    have hapart : ∀ {j k}, j ≠ k → loc j ≠ loc k := fun h heq => h (hdistinct heq)
    have hvacated : (fs.moveNode (loc n) (loc (n + 1))).node? (loc n) = none := by
      rw [hnode, if_neg (hapart (Nat.ne_of_lt (Nat.lt_succ_self n))), if_pos rfl]
    have hrest := ih (fun k hk => hne k (Nat.le_succ_of_le hk)) hvacated
    refine ⟨fun k hk => ?_, hrest.free, fun l hl => ?_, fun id => ?_, ?_⟩
    -- what has moved first is out of reach of the moves that follow
    · by_cases hlast : k = n
      · subst hlast
        have houtside : ∀ j ≤ k, loc (k + 1) ≠ loc j := fun j hj => hapart (by omega)
        rw [shiftUp, hrest.other _ houtside, hnode, if_pos rfl]
      · rw [shiftUp, hrest.up k (by omega), hnode, if_neg (hapart (by omega)),
          if_neg (hapart hlast)]
    · rw [shiftUp, hrest.other l fun k hk => hl k (Nat.le_succ_of_le hk), hnode,
        if_neg (hl (n + 1) (Nat.le_refl _)), if_neg (hl n (Nat.le_succ n))]
    · rw [shiftUp, hrest.content_eq, Files.content_moveNode]
    · rw [shiftUp, hrest.next_eq, Files.next_moveNode]

/-! ## The operations of a rotation -/

theorem dropFile_eq {l : Location} (h : fs.Names path l) (hregular : fs.node? l ≠ some .directory) :
    dropFile path fs = .ok (fs.dropNode l) := by
  unfold dropFile Files.dropNode
  rw [h.pathExists_eq]
  cases hnode : fs.node? l with
  | none => rfl
  | some node =>
    cases node with
    | directory => exact absurd hnode hregular
    | file id => exact h.removeFile_eq hnode

section Move

variable {source target : String} {s t : Location}

theorem moveFile_eq (hs : fs.Names source s) (ht : fs.Names target t)
    (hregular : fs.node? s ≠ some .directory) (hfree : fs.node? t = none) :
    moveFile source target fs = .ok (fs.moveNode s t) := by
  unfold moveFile
  rw [hs.pathExists_eq]
  cases hnode : fs.node? s with
  | none =>
    unfold Files.moveNode
    rw [hnode]
    rfl
  | some node =>
    cases node with
    | directory => exact absurd hnode hregular
    | file id => exact hs.rename_eq ht hnode (by simp [hfree])

theorem moveActive_eq (hs : fs.Names source s) (ht : fs.Names target t)
    (hregular : fs.node? s ≠ some .directory) (hfree : fs.node? t = none) :
    moveActive source target fs = .ok (fs.moveNode s t) := by
  unfold moveActive
  cases hnode : fs.node? s with
  | none =>
    rw [hs.rename_of_none ht hnode]
    unfold Files.moveNode
    rw [hnode]
    rfl
  | some node =>
    cases node with
    | directory => exact absurd hnode hregular
    | file id => rw [hs.rename_eq ht hnode (by simp [hfree])]

end Move

/-- How the file with a number moves up. -/
def moveUp (path : String) : Nat → Files → Except Failure Files
  | 0 => moveActive path (rolledPath path 1)
  | k + 1 => moveFile (rolledPath path (k + 1)) (rolledPath path (k + 2))

theorem shifts_eq (path : String) {count : Nat} (h : 1 < count) :
    shifts path count = dropFile (numbered path (count - 1)) ::
      (List.range (count - 1)).reverse.map (moveUp path) := by
  obtain ⟨n, rfl⟩ : ∃ n, count = n + 2 := ⟨count - 2, by omega⟩
  have hrange : List.range (n + 1) = 0 :: (List.range n).map (· + 1) := by
    simp [List.range_succ_eq_map]
  unfold shifts
  rw [if_neg (by omega)]
  simp only [Nat.add_sub_cancel, Nat.add_succ_sub_one, hrange, List.reverse_cons, List.map_append,
    List.map_reverse, List.map_map]
  rfl

theorem moveUp_eq (h : Layout path count loc fs) {k : Nat} (hk : k + 1 ≤ count - 1)
    (hfree : fs.node? (loc (k + 1)) = none) :
    moveUp path k fs = .ok (fs.moveNode (loc k) (loc (k + 1))) := by
  have hsource := h.names k (Nat.le_of_succ_le hk)
  have htarget := h.names (k + 1) hk
  have hregular := h.regular k (Nat.le_of_succ_le hk)
  cases k with
  | zero => exact moveActive_eq hsource htarget hregular hfree
  | succ k => exact moveFile_eq hsource htarget hregular hfree

theorem attemptAll_moveUp {n : Nat} (h : Layout path count loc fs) (hn : n ≤ count - 1)
    (hfree : fs.node? (loc n) = none) :
    fs.attemptAll ((List.range n).reverse.map (moveUp path)) = (.ok (), shiftUp loc n fs) ∧
      Layout path count loc (shiftUp loc n fs) := by
  induction n generalizing fs with
  | zero => exact ⟨rfl, h⟩
  | succ n ih =>
    -- the move leaves the place free that the next one needs
    have hmoved := h.moveNode hn hfree
    have hvacated : (fs.moveNode (loc n) (loc (n + 1))).node? (loc n) = none := by
      have hne : loc n ≠ loc (n + 1) := fun heq => absurd (h.distinct heq) (by omega)
      rw [Files.node?_moveNode (h.names n (by omega)).ne_nil (h.names (n + 1) hn).ne_nil hfree,
        if_neg hne, if_pos rfl]
    rw [List.range_succ, List.reverse_concat, List.map_cons, Files.attemptAll,
      moveUp_eq h hn hfree]
    exact ih hmoved (Nat.le_of_succ_le hn) hvacated

/-! ## Rotations -/

/-- The files of a log after all of them have moved up, before the active one is made anew. -/
def rollOver (loc : Nat → Location) (count : Nat) (fs : Files) : Files :=
  if count ≤ 1 then fs else shiftUp loc (count - 1) (fs.dropNode (loc (count - 1)))

theorem attemptAll_shifts (h : Layout path count loc fs) :
    fs.attemptAll (shifts path count) = (.ok (), rollOver loc count fs) ∧
      Layout path count loc (rollOver loc count fs) := by
  unfold rollOver
  by_cases hcount : count ≤ 1
  · rw [shifts, if_pos hcount, if_pos hcount]
    exact ⟨rfl, h⟩
  · have hlast := h.names (count - 1) (Nat.le_refl _)
    have hfree : (fs.dropNode (loc (count - 1))).node? (loc (count - 1)) = none := by
      rw [Files.node?_dropNode hlast.ne_nil, if_pos rfl]
    rw [shifts_eq path (Nat.lt_of_not_le hcount), if_neg hcount, Files.attemptAll,
      dropFile_eq hlast (h.regular _ (Nat.le_refl _))]
    exact attemptAll_moveUp (h.dropNode (Nat.le_refl _)) (Nat.le_refl _) hfree

section RollOver

variable (h : Layout path count loc fs)
include h

theorem layout_rollOver : Layout path count loc (rollOver loc count fs) :=
  (attemptAll_shifts h).2

theorem shifted_rollOver (hcount : 1 < count) :
    Shifted loc (count - 1) (fs.dropNode (loc (count - 1))) (rollOver loc count fs) := by
  unfold rollOver
  rw [if_neg (Nat.not_le.2 hcount)]
  refine shifted_shiftUp h.distinct (fun k hk => (h.names k hk).ne_nil) ?_
  rw [Files.node?_dropNode (h.names _ (Nat.le_refl _)).ne_nil, if_pos rfl]

theorem content_rollOver (id : Nat) : (rollOver loc count fs).content id = fs.content id := by
  by_cases hcount : count ≤ 1
  · rw [rollOver, if_pos hcount]
  · rw [(shifted_rollOver h (Nat.lt_of_not_le hcount)).content_eq, Files.content_dropNode]

theorem node?_rollOver_succ {k : Nat} (hk : k < count - 1) :
    (rollOver loc count fs).node? (loc (k + 1)) = fs.node? (loc k) := by
  have hne : loc k ≠ loc (count - 1) := fun heq => absurd (h.distinct heq) (Nat.ne_of_lt hk)
  rw [(shifted_rollOver h (by omega)).up k hk,
    Files.node?_dropNode (h.names _ (Nat.le_refl _)).ne_nil, if_neg hne]

/-- What is not a file of the log stays. -/
theorem node?_rollOver_of_ne {l : Location} (hl : ∀ k ≤ count - 1, l ≠ loc k) :
    (rollOver loc count fs).node? l = fs.node? l := by
  by_cases hcount : count ≤ 1
  · rw [rollOver, if_pos hcount]
  · rw [(shifted_rollOver h (Nat.lt_of_not_le hcount)).other l hl,
      Files.node?_dropNode (h.names _ (Nat.le_refl _)).ne_nil, if_neg (hl _ (Nat.le_refl _))]

theorem contentAt_rollOver_succ {k : Nat} (hk : k < count - 1) :
    (rollOver loc count fs).contentAt (loc (k + 1)) = fs.contentAt (loc k) := by
  unfold Files.contentAt
  rw [node?_rollOver_succ h hk]
  split
  · exact content_rollOver h _
  · rfl

end RollOver

/-- A rotation moves the files up and goes on with an empty active file. -/
theorem rotate_eq {log : RollingLog} (h : Layout log.path log.count loc fs) :
    log.rotate fs =
      let opened := (rollOver loc log.count fs).openNode (loc 0)
      (.ok { log with handle := ⟨opened.2, false, 0⟩, written := 0 },
        opened.1.setContent opened.2 []) := by
  have hlayout := layout_rollOver h
  have hopen := (hlayout.names 0 (Nat.zero_le _)).openFile_eq (hlayout.regular 0 (Nat.zero_le _))
  unfold RollingLog.rotate
  rw [(attemptAll_shifts h).1]
  simp only [numbered] at hopen
  simp only [Files.openTruncated, hopen, bind, Except.bind]
  rfl

end ItemGuard.Audit
