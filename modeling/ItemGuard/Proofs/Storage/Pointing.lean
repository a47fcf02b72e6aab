import ItemGuard.Proofs.Storage.Directories
import ItemGuard.Proofs.Storage.Moves

/-!
# Where a path points

By its names alone a path points to a place (`Files.target`), whether or not the directories on its
way are there. Where they are, it names what is at that place (`Names.eq_target`). Removing entries
and renaming them within the directory of the place may leave the path without a way, but does not
change where it points, and puts nothing there (`Files.Clears`). So once the directories on the way
are made again, the path leads to what it led to before, if that is still there.
-/

namespace ItemGuard.Storage.Files

variable {fs fs' : Files} {path : String} {loc dir : Location} {names : List String}

/-! ## Names without a file system -/

/-- Where names lead if all directories on the way are there. -/
def follow : Location → List String → Location
  | loc, [] => loc
  | loc, name :: names =>
    if name = "." then follow loc names
    else if name = ".." then follow loc.dropLast names
    else follow (loc ++ [name]) names

theorem eq_follow_of_walk (hwalk : fs.walk loc names = .ok dir) : dir = follow loc names := by
  induction names generalizing loc with
  | nil =>
    cases hwalk
    rfl
  | cons name names ih =>
    obtain ⟨-, hnext⟩ := walk_cons_eq_ok_iff.1 hwalk
    rcases hnext with ⟨rfl, hrest⟩ | ⟨rfl, hrest⟩ | ⟨hdot, hdots, -, -, hrest⟩
    · exact ih hrest
    · exact ih hrest
    · rw [follow, if_neg hdot, if_neg hdots]
      exact ih hrest

theorem follow_concat {name : String} (hdot : name ≠ ".") (hdots : name ≠ "..") :
    follow loc (names ++ [name]) = follow loc names ++ [name] := by
  induction names generalizing loc with
  | nil => simp [follow, hdot, hdots]
  | cons first names ih =>
    simp only [List.cons_append, follow]
    split
    · exact ih
    · split
      · exact ih
      · exact ih

/-- Names that lead out of a directory lead to the same place if it has another name. -/
theorem follow_renamed {a b : String} {rest : Location}
    (hout : ¬ dir ++ [a] <+: follow (dir ++ [a] ++ rest) names) :
    follow (dir ++ [b] ++ rest) names = follow (dir ++ [a] ++ rest) names := by
  induction names generalizing rest with
  | nil => exact absurd (List.prefix_append _ _) hout
  | cons name names ih =>
    simp only [follow] at hout ⊢
    split
    next hdot =>
      rw [if_pos hdot] at hout
      exact ih hout
    next hdot =>
      rw [if_neg hdot] at hout
      split
      next hdots =>
        rw [if_pos hdots] at hout
        rcases List.eq_nil_or_concat rest with rfl | ⟨before, last, rfl⟩
        -- this is the way out, and around the directory its name plays no part
        · simp
        · rw [List.concat_eq_append, ← List.append_assoc, List.dropLast_concat] at hout
          rw [List.concat_eq_append, ← List.append_assoc, ← List.append_assoc,
            List.dropLast_concat, List.dropLast_concat]
          exact ih hout
      next hdots =>
        rw [if_neg hdots, List.append_assoc] at hout
        rw [List.append_assoc, List.append_assoc (dir ++ [a])]
        exact ih hout

/-! ## Places -/

/-- The place that a path points to. -/
def target (fs : Files) (path : String) : Location :=
  follow (fs.start (.ofText path)) (Path.ofText path).names

theorem Names.eq_target (h : fs.Names path loc) : loc = fs.target path := by
  obtain ⟨dir, name, hplace, rfl, -⟩ := h
  obtain ⟨-, hlast, hdot, hdots, hwalk, -⟩ := placeOf_eq_entry_iff.1 hplace
  obtain ⟨around, hnames⟩ := List.getLast?_eq_some_iff.1 hlast
  rw [hnames, List.dropLast_concat] at hwalk
  rw [target, hnames, follow_concat hdot hdots, eq_follow_of_walk hwalk]

theorem target_congr (h : fs'.cwd = fs.cwd) (path : String) : fs'.target path = fs.target path := by
  unfold target start
  rw [h]

/-- The content of the file at the place that a path points to; nothing if no file is there. -/
def held (fs : Files) (path : String) : Bytes :=
  fs.contentAt (fs.target path)

/-- A path holds what it leads to. -/
theorem Names.held_eq (h : fs.Names path loc) : fs.held path = fs.contentOf path := by
  rw [held, ← h.eq_target, h.contentOf_eq]

theorem Extends.held_eq (h : fs.Extends fs') (path : String) : fs'.held path = fs.held path := by
  unfold held
  rw [target_congr h.cwd_eq, h.contentAt_eq]

/-- A path that leads somewhere once directories are made, and does not climb, led to what is at its
place all along. -/
theorem Extends.contentOf_eq_held (h : fs.Extends fs') (hwf : fs.WellFormed)
    (hdots : ".." ∉ (Path.ofText path).names) (hnames : fs'.Names path loc) :
    fs.contentOf path = fs.held path := by
  rw [h.contentOf_eq hwf hdots hnames, ← hnames.held_eq, h.held_eq]

/-- A file that is opened holds what the path pointed to, if it is not a new one. -/
theorem Names.held_openNode (h : fs.Names path loc) (hregular : fs.node? loc ≠ some .directory) :
    (fs.openNode loc).1.content (fs.openNode loc).2 = fs.held path := by
  rw [held, ← h.eq_target]
  unfold openNode contentAt
  cases hnode : fs.node? loc with
  | none => simp [content_newFile]
  | some node =>
    cases node with
    | directory => exact absurd hnode hregular
    | file id => rfl

/-! ## Taking entries away -/

/-- The path points where it did, and what was there is still there or is gone. -/
structure Clears (path : String) (fs fs' : Files) : Prop where
  target_eq : fs'.target path = fs.target path
  node? : fs'.node? (fs.target path) = fs.node? (fs.target path) ∨
    fs'.node? (fs.target path) = none

namespace Clears

theorem refl (path : String) (fs : Files) : Clears path fs fs := ⟨rfl, .inl rfl⟩

theorem trans {fs₁ fs₂ fs₃ : Files} (h : Clears path fs₁ fs₂) (h' : Clears path fs₂ fs₃) :
    Clears path fs₁ fs₃ := by
  refine ⟨h'.target_eq.trans h.target_eq, ?_⟩
  have hnode := h'.node?
  rw [h.target_eq] at hnode
  rcases hnode with hsame | hnone
  · rw [hsame]
    exact h.node?
  · exact .inr hnone

theorem length_held_le (h : Clears path fs fs') (hcontents : fs'.contents = fs.contents) :
    (fs'.held path).length ≤ (fs.held path).length := by
  have hcontent : ∀ id, fs'.content id = fs.content id := by
    intro id
    unfold content
    rw [hcontents]
  unfold held contentAt
  rw [h.target_eq]
  rcases h.node? with hsame | hnone
  · simp only [hsame, hcontent]
    exact Nat.le_refl _
  · rw [hnone]
    exact Nat.zero_le _

theorem removeFile {other : String} (h : fs.removeFile other = .ok fs') : Clears path fs fs' := by
  obtain ⟨l, id, hfile, rfl⟩ := removeFile_eq_ok h
  have hne : l ≠ [] := by
    rintro rfl
    cases hfile
  refine ⟨target_congr rfl path, ?_⟩
  rw [node?_eraseNode hne]
  split
  · exact .inr rfl
  · exact .inl rfl

end Clears

/-- A rename moves a file, or a directory with everything below it, if it changes anything. -/
theorem rename_eq_ok {source : String} (h : fs.rename source path = .ok fs') :
    ∃ sdir sname tdir tname, fs.placeOf (.ofText source) = .ok (.entry sdir sname) ∧
      fs.placeOf (.ofText path) = .ok (.entry tdir tname) ∧
      (fs' = fs ∨
        (∃ id, fs' = (fs.eraseNode (sdir ++ [sname])).setNode (tdir ++ [tname]) (.file id)) ∨
        fs' = fs.moveTree (sdir ++ [sname]) (tdir ++ [tname])) := by
  unfold rename at h
  simp only [bind, Except.bind] at h
  cases hs : fs.placeOf (.ofText source) with
  | error e => simp [hs] at h
  | ok s =>
    cases ht : fs.placeOf (.ofText path) with
    | error e => simp [hs, ht] at h
    | ok t =>
      cases s with
      | directory => simp [hs, ht] at h
      | entry sdir sname =>
        cases t with
        | directory => simp [hs, ht] at h
        | entry tdir tname =>
          refine ⟨sdir, sname, tdir, tname, rfl, rfl, ?_⟩
          simp only [hs, ht] at h
          repeat' split at h
          all_goals cases h
          · exact .inr (.inl ⟨_, rfl⟩)
          · exact .inr (.inr rfl)
          · exact .inl rfl
          · exact .inr (.inr rfl)

section Rename

variable {source renamed name sname tname : String} {around : List String}
  (hnames : (Path.ofText path).names = around ++ [name]) (hdot : name ≠ ".") (hdots : name ≠ "..")
  (hsource : (Path.ofText source).names = around ++ [sname])
  (hrenamed : (Path.ofText renamed).names = around ++ [tname])

/-- Names that lead to the directory of an entry do so after that entry has been renamed there. -/
theorem follow_moveTree (hdir : dir = follow (fs.start (.ofText path)) around) (a b : String) :
    follow ((fs.moveTree (dir ++ [a]) (dir ++ [b])).start (.ofText path)) around = dir := by
  by_cases hbelow : dir ++ [a] <+: fs.start (.ofText path)
  · have hplain : (Path.ofText path).rooted = false := by
      cases hrooted : (Path.ofText path).rooted with
      | false => rfl
      | true => simp [start, hrooted] at hbelow
    have hstart : fs.start (.ofText path) = fs.cwd := by simp [start, hplain]
    rw [hstart] at hbelow hdir
    obtain ⟨rest, hrest⟩ := hbelow
    have hmoved : (fs.moveTree (dir ++ [a]) (dir ++ [b])).start (.ofText path) =
        dir ++ [b] ++ rest := by
      simp [start, hplain, moveTree, relocated, ← hrest, List.isPrefixOf_iff_prefix]
    rw [← hrest] at hdir
    have hout : ¬ dir ++ [a] <+: follow (dir ++ [a] ++ rest) around := by
      rw [← hdir]
      intro hwithin
      have hlength := hwithin.length_le
      rw [List.length_append, List.length_singleton] at hlength
      omega
    rw [hmoved, follow_renamed hout, ← hdir]
  · rw [start_moveTree _ hbelow, ← hdir]

include hnames hdot hdots hsource hrenamed

/-- An entry gets another name in the directory of the place, though not the name of the place. -/
theorem Clears.rename (hstart : fs.start (.ofText source) = fs.start (.ofText path))
    (hstart' : fs.start (.ofText renamed) = fs.start (.ofText path)) (hne : tname ≠ name)
    (h : fs.rename source renamed = .ok fs') : Clears path fs fs' := by
  obtain ⟨sdir, sname', tdir, tname', hs, ht, hfs'⟩ := rename_eq_ok h
  obtain ⟨-, hslast, -, -, hswalk, -⟩ := placeOf_eq_entry_iff.1 hs
  obtain ⟨-, htlast, -, -, htwalk, -⟩ := placeOf_eq_entry_iff.1 ht
  rw [hsource, List.getLast?_concat] at hslast
  rw [hrenamed, List.getLast?_concat] at htlast
  obtain rfl := Option.some.inj hslast
  obtain rfl := Option.some.inj htlast
  rw [hsource, hstart, List.dropLast_concat] at hswalk
  rw [hrenamed, hstart', List.dropLast_concat] at htwalk
  obtain rfl : sdir = tdir := Except.ok.inj (hswalk.symm.trans htwalk)
  have hdir := eq_follow_of_walk hswalk
  have htarget : fs.target path = sdir ++ [name] := by
    rw [target, hnames, follow_concat hdot hdots, ← hdir]
  have hother : sdir ++ [name] ≠ sdir ++ [tname] := fun heq =>
    hne (List.singleton_inj.1 (List.append_inj' heq rfl).2).symm
  rcases hfs' with rfl | ⟨id, rfl⟩ | rfl
  · exact .refl path fs'
  · refine ⟨target_congr rfl path, ?_⟩
    rw [htarget, node?_setNode (by simp), if_neg hother, node?_eraseNode (by simp)]
    split
    · exact .inr rfl
    · exact .inl rfl
  · have hbelow : ¬ sdir ++ [tname] <+: sdir ++ [name] := fun hwithin =>
      hother (hwithin.eq_of_length (by simp)).symm
    refine ⟨?_, ?_⟩
    · rw [htarget, target, hnames, follow_concat hdot hdots, follow_moveTree hdir]
    · rw [htarget, node?_moveTree (by simp) hbelow]
      split
      · exact .inr rfl
      · exact .inl rfl

end Rename

end ItemGuard.Storage.Files
