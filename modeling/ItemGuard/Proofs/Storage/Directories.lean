import ItemGuard.Proofs.Storage.Entries

/-!
# Making directories

Making directories changes nothing else (`Files.Extends`). What can be made once is there
afterwards (`hasParent_of_makeParents`), and to make it again does nothing
(`HasParent.makeParents_eq`).
-/

namespace ItemGuard.Storage.Files

variable {fs fs' : Files} {p : Path}

theorem isDirectory_iff : fs.isDirectory p = true ↔ ∃ loc, fs.find p = .ok (loc, .directory) := by
  unfold isDirectory
  split
  next loc h => exact ⟨fun _ => ⟨loc, h⟩, fun _ => rfl⟩
  next h =>
    constructor
    · intro hfalse
      cases hfalse
    · rintro ⟨loc, hloc⟩
      exact absurd hloc (h loc)

theorem isDirectory_keeps (h : fs.Keeps fs') (hdir : fs.isDirectory p = true) :
    fs'.isDirectory p = true := by
  obtain ⟨loc, hloc⟩ := isDirectory_iff.1 hdir
  obtain ⟨hcheck, hwalk, hnode, -⟩ := find_eq_ok_iff.1 hloc
  refine isDirectory_iff.2 ⟨loc, find_eq_ok_iff.2 ⟨hcheck, ?_, h.directory hnode, .inl rfl⟩⟩
  rw [start_keeps h]
  exact walk_keeps h hwalk hnode

/-! ## One directory -/

theorem makeDirectory_eq_ok_iff :
    fs.makeDirectory p = .ok fs' ↔
      ∃ dir name, fs.placeOf p = .ok (.entry dir name) ∧ name.utf8ByteSize ≤ nameLimit ∧
        fs.node? (dir ++ [name]) = none ∧ fs' = fs.setNode (dir ++ [name]) .directory := by
  constructor
  · intro h
    unfold makeDirectory at h
    simp only [bind, Except.bind] at h
    cases hplace : fs.placeOf p with
    | error e =>
      rw [hplace] at h
      cases h
    | ok place =>
      rw [hplace] at h
      cases place with
      | directory => cases h
      | entry dir name =>
        dsimp only [lookUp] at h
        by_cases hsize : nameLimit < name.utf8ByteSize
        · rw [if_pos hsize] at h
          cases h
        · rw [if_neg hsize] at h
          cases hnode : fs.node? (dir ++ [name]) with
          | some node =>
            rw [hnode] at h
            cases h
          | none =>
            rw [hnode] at h
            cases h
            exact ⟨dir, name, rfl, Nat.not_lt.1 hsize, hnode, rfl⟩
  · rintro ⟨dir, name, hplace, hsize, hfree, rfl⟩
    simp [makeDirectory, hplace, lookUp, Nat.not_lt.2 hsize, hfree, bind, Except.bind, setNode]

theorem makeDirectory_of_isDirectory (h : fs.isDirectory p = true) :
    fs.makeDirectory p = .error .alreadyExists := by
  obtain ⟨loc, hloc⟩ := isDirectory_iff.1 h
  obtain ⟨hcheck, hwalk, hnode, -⟩ := find_eq_ok_iff.1 hloc
  unfold makeDirectory
  cases hlast : p.names.getLast? with
  | none =>
    have hplace : fs.placeOf p = .ok .directory := by
      simp [placeOf, hcheck, hlast, bind, Except.bind]
    simp [hplace, bind, Except.bind]
  | some name =>
    obtain ⟨around, hnames⟩ := List.getLast?_eq_some_iff.1 hlast
    rw [hnames, walk_append] at hwalk
    cases hdir : fs.walk (fs.start p) around with
    | error e => simp [hdir, Except.bind] at hwalk
    | ok dir =>
      rw [hdir] at hwalk
      obtain ⟨hdirectory, hname⟩ := walk_cons_eq_ok_iff.1 hwalk
      have hplace : fs.placeOf p =
          .ok (if name = "." ∨ name = ".." then .directory else .entry dir name) := by
        simp [placeOf, hcheck, hnames, hdir, hdirectory, bind, Except.bind]
      rw [hplace]
      rcases hname with ⟨hdot, -⟩ | ⟨hdots, -⟩ | ⟨hdot, hdots, hsize, hthere, -⟩
      · simp [hdot, bind, Except.bind]
      · simp [hdots, bind, Except.bind]
      · obtain ⟨node, hthere⟩ := Option.ne_none_iff_exists'.1 hthere
        simp [hdot, hdots, lookUp, Nat.not_lt.2 hsize, hthere, bind, Except.bind]

theorem keeps_of_makeDirectory (h : fs.makeDirectory p = .ok fs') : fs.Keeps fs' := by
  obtain ⟨dir, name, -, -, hfree, rfl⟩ := makeDirectory_eq_ok_iff.1 h
  exact Keeps.setNode (by simp [hfree]) (by simp)

theorem isDirectory_of_makeDirectory (h : fs.makeDirectory p = .ok fs') :
    fs'.isDirectory p = true := by
  have hkeeps := keeps_of_makeDirectory h
  obtain ⟨dir, name, hplace, hsize, hfree, rfl⟩ := makeDirectory_eq_ok_iff.1 h
  obtain ⟨hcheck, hlast, hdot, hdots, hwalk, hdir⟩ :=
    placeOf_eq_entry_iff.1 (placeOf_keeps hkeeps hplace)
  obtain ⟨around, hnames⟩ := List.getLast?_eq_some_iff.1 hlast
  have hmade : (fs.setNode (dir ++ [name]) .directory).node? (dir ++ [name]) = some .directory := by
    rw [node?_setNode (by simp), if_pos rfl]
  refine isDirectory_iff.2 ⟨dir ++ [name], find_eq_ok_iff.2 ⟨hcheck, ?_, hmade, .inl rfl⟩⟩
  rw [hnames, List.dropLast_concat] at hwalk
  rw [hnames, walk_append, hwalk]
  refine walk_cons_eq_ok_iff.2 ⟨hdir, .inr (.inr ⟨hdot, hdots, hsize, ?_, rfl⟩)⟩
  simp [hmade]

theorem ensureDirectory_eq_ok (h : fs.ensureDirectory p = .ok fs') :
    fs.makeDirectory p = .ok fs' ∨ (fs.isDirectory p = true ∧ fs' = fs) := by
  unfold ensureDirectory at h
  split at h
  next hmake =>
    cases h
    exact .inl hmake
  next =>
    split at h
    next hdir =>
      cases h
      exact .inr ⟨hdir, rfl⟩
    next => cases h

/-! ## Directories around a path -/

/-- Making directories preserves what is preserved when one of them is made. -/
theorem makeDirectories_induct {P : Files → Prop} {paths : List String}
    (hmake : ∀ {fs path fs'}, path ∈ paths → P fs → fs.makeDirectory (.ofText path) = .ok fs' →
      P fs')
    (h : P fs) : P (fs.makeDirectories paths).2 := by
  induction paths with
  | nil => exact h
  | cons path around ih =>
    have ih := ih fun hpath => hmake (List.mem_cons_of_mem _ hpath)
    unfold makeDirectories
    dsimp only
    cases hfirst : fs.makeDirectory (.ofText path) with
    | ok made => exact hmake List.mem_cons_self h hfirst
    | error e =>
      dsimp only
      split
      · split
        next hrest =>
          rw [hrest] at ih
          exact ih
        next made hrest =>
          rw [hrest] at ih
          unfold attempt
          split
          next hensure =>
            rcases ensureDirectory_eq_ok hensure with again | ⟨-, heq⟩
            · exact hmake List.mem_cons_self ih again
            · rw [heq]
              exact ih
          next => exact ih
      · split <;> exact h

theorem isDirectory_of_makeDirectories {path : String} {around : List String}
    (h : fs.makeDirectories (path :: around) = (.ok (), fs')) :
    fs'.isDirectory (.ofText path) = true := by
  unfold makeDirectories at h
  dsimp only at h
  split at h
  next hmake =>
    cases h
    exact isDirectory_of_makeDirectory hmake
  next =>
    split at h
    · split at h
      · cases h
      · unfold attempt at h
        split at h
        next hensure =>
          cases h
          rcases ensureDirectory_eq_ok hensure with hmake | ⟨hdir, heq⟩
          · exact isDirectory_of_makeDirectory hmake
          · rw [heq]
            exact hdir
        next => cases h
    · split at h
      next hdir =>
        cases h
        exact hdir
      next => cases h

/-- The directory around the last name of a path is there, as far as the path says which. -/
def HasParent (fs : Files) (path : String) : Prop :=
  ∀ parent ∈ ((Path.upward path).drop 1).head?, fs.isDirectory (.ofText parent) = true

theorem HasParent.keeps {path : String} (h : fs.HasParent path) (hkeeps : fs.Keeps fs') :
    fs'.HasParent path :=
  fun parent hparent => isDirectory_keeps hkeeps (h parent hparent)

theorem hasParent_of_makeParents {path : String} (h : fs.makeParents path = (.ok (), fs')) :
    fs'.HasParent path := by
  unfold makeParents at h
  intro parent hparent
  cases hpaths : (Path.upward path).drop 1 with
  | nil => simp [hpaths] at hparent
  | cons first around =>
    rw [hpaths] at h hparent
    cases hparent
    exact isDirectory_of_makeDirectories h

theorem makeDirectories_of_isDirectory {paths : List String}
    (h : ∀ p ∈ paths.head?, fs.isDirectory (.ofText p) = true) :
    fs.makeDirectories paths = (.ok (), fs) := by
  cases paths with
  | nil => rfl
  | cons first around =>
    have hdir := h first rfl
    simp [makeDirectories, makeDirectory_of_isDirectory hdir, hdir, Failure.alreadyExists]

/-- Nothing has to be made around a path whose directory is there. -/
theorem HasParent.makeParents_eq {path : String} (h : fs.HasParent path) :
    fs.makeParents path = (.ok (), fs) :=
  makeDirectories_of_isDirectory h

/-! ## What making directories leaves alone -/

/-- The other file system has some directories more where nothing was, and is the same apart from
that. -/
structure Extends (fs fs' : Files) : Prop where
  cwd_eq : fs'.cwd = fs.cwd
  next_eq : fs'.next = fs.next
  contents_eq : fs'.contents = fs.contents
  node? : ∀ l, fs'.node? l = fs.node? l ∨ (fs.node? l = none ∧ fs'.node? l = some .directory)

namespace Extends

theorem refl (fs : Files) : fs.Extends fs := ⟨rfl, rfl, rfl, fun _ => .inl rfl⟩

theorem makeDirectory {made : Files} (h : fs.Extends fs') (hmake : fs'.makeDirectory p = .ok made) :
    fs.Extends made := by
  obtain ⟨dir, name, -, -, hfree, rfl⟩ := makeDirectory_eq_ok_iff.1 hmake
  refine ⟨h.cwd_eq, h.next_eq, h.contents_eq, fun l => ?_⟩
  rw [node?_setNode (by simp)]
  split
  next heq =>
    subst heq
    rcases h.node? (dir ++ [name]) with hsame | ⟨hnone, hmade⟩
    · exact .inr ⟨hsame ▸ hfree, rfl⟩
    · rw [hmade] at hfree
      cases hfree
  next => exact h.node? l

theorem makeParents (fs : Files) (path : String) : fs.Extends (fs.makeParents path).2 :=
  makeDirectories_induct (fun _ => makeDirectory) (refl fs)

theorem keeps (h : fs.Extends fs') : fs.Keeps fs' := by
  refine ⟨h.cwd_eq, fun {l} hl => ?_⟩
  rcases h.node? l with hsame | ⟨-, hmade⟩
  · rw [hsame, hl]
  · exact hmade

theorem content_eq (h : fs.Extends fs') (id : Nat) : fs'.content id = fs.content id := by
  unfold content
  rw [h.contents_eq]

theorem contentAt_eq (h : fs.Extends fs') (loc : Location) :
    fs'.contentAt loc = fs.contentAt loc := by
  unfold contentAt
  rcases h.node? loc with hsame | ⟨hnone, hmade⟩
  · rw [hsame]
    split
    · exact h.content_eq _
    · rfl
  · rw [hnone, hmade]

end Extends

/-- Where a path does not climb, what it leads to is not changed. -/
theorem Extends.contentOf_eq {path : String} {loc : Location} (h : fs.Extends fs')
    (hwf : fs.WellFormed) (hdots : ".." ∉ (Path.ofText path).names) (hnames : fs'.Names path loc) :
    fs.contentOf path = fs'.contentOf path := by
  rw [hnames.contentOf_eq, h.contentAt_eq]
  by_cases hthere : fs.node? loc = none
  · unfold contentAt contentOf
    rw [hthere]
    cases hread : fs.readBytes path with
    | error e => rfl
    | ok bytes =>
      obtain ⟨l, id, hl, hfile⟩ := Names.of_readBytes hwf hread
      rw [hnames.unique (hl.keeps h.keeps), hfile] at hthere
      cases hthere
  · exact (hnames.of_keeps hwf h.cwd_eq hdots hthere).contentOf_eq

theorem WellFormed.makeParents (h : fs.WellFormed) (path : String) :
    (fs.makeParents path).2.WellFormed := by
  refine makeDirectories_induct (P := WellFormed) ?_ h
  intro fs p fs' _ h hmake
  obtain ⟨dir, name, hplace, -, hfree, rfl⟩ := makeDirectory_eq_ok_iff.1 hmake
  obtain ⟨-, -, -, -, -, hdir⟩ := placeOf_eq_entry_iff.1 hplace
  refine h.setNode hdir (by simp [hfree]) ?_
  intro id hid
  cases hid

end ItemGuard.Storage.Files
