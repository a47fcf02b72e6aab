import ItemGuard.Proofs.Audit.Rotation
import ItemGuard.Proofs.Audit.Tracking
import ItemGuard.Proofs.Storage.Pointing

/-!
# Appending lines

What a log holds in memory agrees with its active file (`Active`): the handle leads to it, writes at
its end, and its size is known. Opening establishes this and leaves what the files held
(`active_of_create`), and a line keeps it, with or without a rotation (`Active.append`). To open a
log again that is open changes no file (`Active.create_eq`).
-/

namespace ItemGuard.Audit

open Storage (Files Location Path)
open Storage.Files (Handle)
open RollingLog (lineBytes rolledPath)

variable {log : RollingLog} {fs : Files} {loc : Nat → Location}

/-! ## Open logs -/

/-- What the log knows about its active file is true. -/
structure Active (log : RollingLog) (loc : Nat → Location) (fs : Files) : Prop where
  layout : Layout log.path log.count loc fs
  file : fs.node? (loc 0) = some (.file log.handle.file)
  atEnd : AtEnd log.handle fs
  written : log.written = (fs.content log.handle.file).length

theorem Active.contentAt_eq (h : Active log loc fs) :
    fs.contentAt (loc 0) = fs.content log.handle.file :=
  Files.contentAt_of_file h.file

theorem Active.attached (h : Active log loc fs) : Attached log (loc 0) fs :=
  ⟨⟨h.atEnd, h.written⟩, h.layout.names 0 (Nat.zero_le _), h.file⟩

theorem Active.put (h : Active log loc fs) (bytes : Bytes) :
    Active (log.put bytes fs).1 loc (log.put bytes fs).2 := by
  have hput := h.attached.put bytes
  refine ⟨?_, hput.file, hput.tracks.atEnd, hput.tracks.written⟩
  rw [h.attached.tracks.put_eq]
  exact h.layout.setContent _ _

theorem Active.contentAt_put (h : Active log loc fs) (bytes : Bytes) (l : Location) :
    (log.put bytes fs).2.contentAt l =
      if l = loc 0 then fs.contentAt (loc 0) ++ bytes else fs.contentAt l := by
  rw [h.attached.tracks.put_eq, h.layout.wellFormed.contentAt_setContent h.file, h.contentAt_eq]

/-- The log and the files after a rotation. -/
def rotated (log : RollingLog) (loc : Nat → Location) (fs : Files) : RollingLog × Files :=
  let opened := (rollOver loc log.count fs).openNode (loc 0)
  ({ log with handle := ⟨opened.2, false, 0⟩, written := 0 }, opened.1.setContent opened.2 [])

section Rotated

variable (h : Layout log.path log.count loc fs)
include h

theorem node?_openNode_rollOver :
    ((rollOver loc log.count fs).openNode (loc 0)).1.node? (loc 0) =
      some (.file ((rollOver loc log.count fs).openNode (loc 0)).2) := by
  have hlayout := layout_rollOver h
  rw [Files.node?_openNode (hlayout.names 0 (Nat.zero_le _)).ne_nil
    (hlayout.regular 0 (Nat.zero_le _)), if_pos rfl]

theorem active_rotated : Active (rotated log loc fs).1 loc (rotated log loc fs).2 := by
  have hlayout := layout_rollOver h
  have hcontent : (rotated log loc fs).2.content (rotated log loc fs).1.handle.file = [] := by
    unfold rotated
    rw [Files.content_setContent, if_pos rfl]
  refine ⟨hlayout.openNode.setContent _ _, node?_openNode_rollOver h, .inr ?_, ?_⟩
  · exact (congrArg List.length hcontent).symm
  · exact (congrArg List.length hcontent).symm

theorem contentAt_rotated (l : Location) :
    (rotated log loc fs).2.contentAt l =
      if l = loc 0 then [] else (rollOver loc log.count fs).contentAt l := by
  have hlayout := layout_rollOver h
  have hopen := hlayout.openNode
  unfold rotated
  rw [hopen.wellFormed.contentAt_setContent (node?_openNode_rollOver h),
    hlayout.wellFormed.contentAt_openNode (hlayout.names 0 (Nat.zero_le _)).ne_nil
      (hlayout.regular 0 (Nat.zero_le _))]

end Rotated

/-- The log and the files after a line. -/
def appended (log : RollingLog) (loc : Nat → Location) (line : String) (fs : Files) :
    RollingLog × Files :=
  if log.isFull (lineBytes line).length then
    (rotated log loc fs).1.put (lineBytes line) (rotated log loc fs).2
  else log.put (lineBytes line) fs

theorem Layout.append_eq (h : Layout log.path log.count loc fs) (line : String) :
    log.append line fs = (.ok (appended log loc line fs).1, (appended log loc line fs).2) := by
  unfold RollingLog.append appended
  dsimp only
  cases hfull : log.isFull (lineBytes line).length with
  | true =>
    rw [if_pos rfl, if_pos rfl, rotate_eq h]
    rfl
  | false => rfl

theorem Active.append (h : Active log loc fs) (line : String) :
    Active (appended log loc line fs).1 loc (appended log loc line fs).2 := by
  unfold appended
  split
  · exact (active_rotated h.layout).put _
  · exact h.put _

/-- The path, the limit and the number of files of a log stay. -/
theorem appended_settings (log : RollingLog) (loc : Nat → Location) (line : String) (fs : Files) :
    (appended log loc line fs).1.path = log.path ∧
      (appended log loc line fs).1.limit = log.limit ∧
      (appended log loc line fs).1.count = log.count := by
  unfold appended
  split <;> exact ⟨rfl, rfl, rfl⟩

/-! ## Opening -/

theorem Active.reopened (h : Active log loc fs) : Active (reopened log) loc fs :=
  ⟨h.layout, h.file, .inl rfl, h.written⟩

section Create

variable {path : String} {limit count : Nat} {start : Files}

/-- The active file is made in its directory, so all files of the log have their places there. -/
theorem layout_openNode {name : String} {dir : Location} (hwf : fs.WellFormed)
    (hparent : fs.HasParent path)
    (hnames : ∀ k ≤ count - 1, fs.Names (numbered path k) (dir ++ [numbered name k]))
    (hactive : fs.node? (dir ++ [name]) ≠ some .directory)
    (hregular : ∀ k, 1 ≤ k → k < count →
      (fs.openNode (dir ++ [name])).1.isDirectory (.ofText (rolledPath path k)) = false) :
    Layout path count (fun k => dir ++ [numbered name k]) (fs.openNode (dir ++ [name])).1 := by
  have hne : dir ++ [name] ≠ [] := by simp
  have hkeeps := Files.Keeps.openNode hactive hne
  obtain ⟨dir', name', hloc, hdir⟩ := (hnames 0 (Nat.zero_le _)).inDirectory
  have heq : dir = dir' := (List.append_inj' hloc rfl).1
  subst heq
  refine layout_of_names (hwf.openNode hdir hactive) (hparent.keeps hkeeps)
    (fun k hk => (hnames k hk).keeps hkeeps) fun k hk => ?_
  cases k with
  | zero =>
    rw [((hnames 0 hk).keeps hkeeps).isDirectory_eq, numbered, Files.node?_openNode hne hactive,
      if_pos rfl]
    rfl
  | succ k => exact hregular (k + 1) (by omega) (by omega)

/-- A log that is opened has in its files what the places held to which their paths point. The paths
led there before, unless they climb through a directory that was missing. -/
theorem active_of_create (hwf : start.WellFormed)
    (hcreate : RollingLog.create path limit count start = (.ok log, fs))
    (hshort : ∀ k, 1 ≤ k → k < count → (Path.ofText (rolledPath path k)).Short)
    (hregular : ∀ k, 1 ≤ k → k < count → fs.isDirectory (.ofText (rolledPath path k)) = false) :
    ∃ loc, Active log loc fs ∧ ∀ k ≤ count - 1,
      fs.contentOf (numbered path k) = start.held (numbered path k) ∧
      (".." ∉ (Path.ofText path).names ∨ start.HasParent path →
        start.contentOf (numbered path k) = start.held (numbered path k)) := by
  obtain ⟨made, l, hparents, hnames, hactive, rfl, rfl⟩ := create_eq_ok hcreate
  have hmade : (start.makeParents path).2 = made := congrArg Prod.snd hparents
  have hextends := Files.Extends.makeParents start path
  have hmadewf := hwf.makeParents path
  rw [hmade] at hextends hmadewf
  obtain ⟨dir, name, hplace, rfl, hsize, hplain⟩ := hnames
  have hne : dir ++ [name] ≠ [] := by simp
  have hnumbered : ∀ k ≤ count - 1, made.Names (numbered path k) (dir ++ [numbered name k]) :=
    fun k hk => names_numbered hplace hplain hsize fun hk' => hshort k (by omega) (by omega)
  have hlayout := layout_openNode hmadewf (Files.hasParent_of_makeParents hparents) hnumbered
    hactive hregular
  have hfile : (made.openNode (dir ++ [name])).1.node? (dir ++ [name]) =
      some (.file (made.openNode (dir ++ [name])).2) := by
    rw [Files.node?_openNode hne hactive, if_pos rfl]
  refine ⟨fun k => dir ++ [numbered name k], ⟨hlayout, hfile, .inl rfl, rfl⟩, fun k hk => ⟨?_, ?_⟩⟩
  -- the directories that were made hold nothing, and neither does an active file that was made
  · rw [(hlayout.names k hk).contentOf_eq, hmadewf.contentAt_openNode hne hactive,
      ← (hnumbered k hk).contentOf_eq, ← (hnumbered k hk).held_eq, hextends.held_eq]
  · rintro (hdots | hparent)
    · obtain ⟨around, haround⟩ :=
        List.getLast?_eq_some_iff.1 (Files.placeOf_eq_entry_iff.1 hplace).2.1
      exact hextends.contentOf_eq_held hwf (dots_notMem_numbered haround hplain hdots k)
        (hnumbered k hk)
    · obtain rfl : start = made := by
        rw [← hmade, hparent.makeParents_eq]
      exact (hnumbered k hk).held_eq.symm

end Create

end ItemGuard.Audit
