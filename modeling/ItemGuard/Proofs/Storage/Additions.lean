import ItemGuard.Proofs.Storage.Directories

/-!
# Additions to a file system

Directories and empty files that are added where nothing was (`Files.Adds`) leave every text that
could be read as it was (`Adds.readText_eq`). They make a text readable that was not only for a path
that goes up with `..` out of one of the new directories (`Adds.readText_back`).
-/

namespace ItemGuard.Storage.Files

variable {fs fs' : Files} {path text : String} {loc dir : Location} {names : List String}

theorem readText_eq_ok_iff :
    fs.readText path = .ok text ↔
      ∃ loc id, fs.find (.ofText path) = .ok (loc, .file id) ∧
        Text.ofUtf8? (fs.content id) = some text := by
  unfold readText readBytes
  cases hfind : fs.find (.ofText path) with
  | error e => simp [bind, Except.bind]
  | ok found =>
    obtain ⟨loc, node⟩ := found
    cases node with
    | directory => simp [bind, Except.bind]
    | file id =>
      simp only [bind, Except.bind]
      constructor
      · intro h
        split at h
        next read htext =>
          cases h
          exact ⟨loc, id, rfl, htext⟩
        next => cases h
      · rintro ⟨loc', id', hfound, htext⟩
        cases hfound
        rw [htext]

/-- The other file system has some directories and some empty files more where nothing was. -/
structure Adds (fs fs' : Files) : Prop where
  cwd_eq : fs'.cwd = fs.cwd
  node?_eq : ∀ {l node}, fs.node? l = some node → fs'.node? l = some node
  content_eq : ∀ {l id}, fs.node? l = some (.file id) → fs'.content id = fs.content id
  content_nil : ∀ {l id}, fs.node? l = none → fs'.node? l = some (.file id) → fs'.content id = []

/-- On its way, the path goes up with `..` out of the directory at a location. -/
def Climbs (fs : Files) (path : String) (loc : Location) : Prop :=
  ∃ before, before ++ [".."] <+: (Path.ofText path).names ∧
    fs.walk (fs.start (.ofText path)) before = .ok loc ∧ fs.node? loc = some .directory

theorem not_climbs_of_notMem (h : ".." ∉ (Path.ofText path).names) (loc : Location) :
    ¬ fs.Climbs path loc := by
  rintro ⟨before, hbefore, -⟩
  exact h (hbefore.subset (by simp))

namespace Adds

theorem refl (fs : Files) : fs.Adds fs where
  cwd_eq := rfl
  node?_eq h := h
  content_eq _ := rfl
  content_nil hnone hfile := by
    rw [hnone] at hfile
    cases hfile

theorem start_eq (h : fs.Adds fs') (p : Path) : fs'.start p = fs.start p := by
  unfold start
  rw [h.cwd_eq]

/-- Where a path led before, it still leads. -/
theorem walk_eq (h : fs.Adds fs') (hwalk : fs.walk loc names = .ok dir) :
    fs'.walk loc names = .ok dir := by
  induction names generalizing loc with
  | nil => exact hwalk
  | cons name names ih =>
    obtain ⟨hloc, hnext⟩ := walk_cons_eq_ok_iff.1 hwalk
    refine walk_cons_eq_ok_iff.2 ⟨h.node?_eq hloc, ?_⟩
    rcases hnext with ⟨hname, hrest⟩ | ⟨hname, hrest⟩ | ⟨hdot, hdots, hsize, hthere, hrest⟩
    · exact .inl ⟨hname, ih hrest⟩
    · exact .inr (.inl ⟨hname, ih hrest⟩)
    · obtain ⟨node, hnode⟩ := Option.ne_none_iff_exists'.1 hthere
      refine .inr (.inr ⟨hdot, hdots, hsize, ?_, ih hrest⟩)
      rw [h.node?_eq hnode]
      exact Option.some_ne_none _

theorem readText_eq (h : fs.Adds fs') (hread : fs.readText path = .ok text) :
    fs'.readText path = .ok text := by
  obtain ⟨loc, id, hfind, htext⟩ := readText_eq_ok_iff.1 hread
  obtain ⟨hcheck, hwalk, hnode, htrailing⟩ := find_eq_ok_iff.1 hfind
  refine readText_eq_ok_iff.2
    ⟨loc, id, find_eq_ok_iff.2 ⟨hcheck, ?_, h.node?_eq hnode, htrailing⟩, ?_⟩
  · rw [h.start_eq]
    exact h.walk_eq hwalk
  · rw [h.content_eq hnode, htext]

theorem node?_back (h : fs.Adds fs') {l : Location} {node : Node} (hthere : fs.node? l ≠ none)
    (hnode : fs'.node? l = some node) : fs.node? l = some node := by
  obtain ⟨old, hold⟩ := Option.ne_none_iff_exists'.1 hthere
  rw [hold, ← h.node?_eq hold, hnode]

/-- A path that leads to something that was there led to it before, unless it goes up out of a
directory that was not. -/
theorem walk_back (h : fs.Adds fs') (hwf : fs.WellFormed)
    (hclimbs : ∀ before l, before ++ [".."] <+: names → fs'.walk loc before = .ok l →
      fs'.node? l = some .directory → fs.node? l = some .directory)
    (hwalk : fs'.walk loc names = .ok dir) (hdir : fs.node? dir ≠ none) :
    fs.walk loc names = .ok dir ∧ fs.node? loc ≠ none := by
  induction names generalizing loc with
  | nil =>
    cases hwalk
    exact ⟨rfl, hdir⟩
  | cons name names ih =>
    obtain ⟨hloc', hnext⟩ := walk_cons_eq_ok_iff.1 hwalk
    rcases hnext with ⟨rfl, hrest⟩ | ⟨rfl, hrest⟩ | ⟨hdot, hdots, hsize, hthere', hrest⟩
    · obtain ⟨hback, hthere⟩ := ih (fun before l hbefore hl => hclimbs ("." :: before) l
        (by simpa using hbefore) (walk_cons_eq_ok_iff.2 ⟨hloc', .inl ⟨rfl, hl⟩⟩)) hrest
      have hloc := h.node?_back hthere hloc'
      exact ⟨walk_cons_eq_ok_iff.2 ⟨hloc, .inl ⟨rfl, hback⟩⟩, hthere⟩
    · -- what is around a directory says nothing of the directory itself
      have hloc := hclimbs [] loc (by simp) rfl hloc'
      obtain ⟨hback, -⟩ := ih (fun before l hbefore hl => hclimbs (".." :: before) l
        (by simpa using hbefore) (walk_cons_eq_ok_iff.2 ⟨hloc', .inr (.inl ⟨rfl, hl⟩)⟩)) hrest
      exact ⟨walk_cons_eq_ok_iff.2 ⟨hloc, .inr (.inl ⟨rfl, hback⟩)⟩, by simp [hloc]⟩
    · obtain ⟨hback, hthere⟩ := ih (fun before l hbefore hl => hclimbs (name :: before) l
        (by simpa using hbefore)
        (walk_cons_eq_ok_iff.2 ⟨hloc', .inr (.inr ⟨hdot, hdots, hsize, hthere', hl⟩)⟩)) hrest
      obtain ⟨node, hnode⟩ := Option.ne_none_iff_exists'.1 hthere
      have hloc := hwf.inside hnode
      exact ⟨walk_cons_eq_ok_iff.2 ⟨hloc, .inr (.inr ⟨hdot, hdots, hsize, hthere, hback⟩)⟩,
        by simp [hloc]⟩

/-- A text that can be read now could be read before, or it is that of a new file. -/
theorem readText_back (h : fs.Adds fs') (hwf : fs.WellFormed)
    (hclimbs : ∀ l, fs'.Climbs path l → fs.node? l = some .directory)
    (hread : fs'.readText path = .ok text) : fs.readText path = .ok text ∨ text = "" := by
  obtain ⟨loc, id, hfind, htext⟩ := readText_eq_ok_iff.1 hread
  obtain ⟨hcheck, hwalk, hfile', htrailing⟩ := find_eq_ok_iff.1 hfind
  by_cases hthere : fs.node? loc = none
  · rw [h.content_nil hthere hfile'] at htext
    exact .inr (Option.some.inj htext).symm
  · have hfile := h.node?_back hthere hfile'
    rw [h.content_eq hfile] at htext
    obtain ⟨hback, -⟩ := h.walk_back hwf (fun before l hbefore hl hdir => hclimbs l
      ⟨before, hbefore, hl, hdir⟩) hwalk hthere
    rw [h.start_eq] at hback
    exact .inl (readText_eq_ok_iff.2
      ⟨loc, id, find_eq_ok_iff.2 ⟨hcheck, hback, hfile, htrailing⟩, htext⟩)

end Adds

theorem Extends.adds (h : fs.Extends fs') : fs.Adds fs' where
  cwd_eq := h.cwd_eq
  node?_eq {l node} hnode := by
    rcases h.node? l with hsame | ⟨hnone, -⟩
    · rw [hsame, hnode]
    · rw [hnone] at hnode
      cases hnode
  content_eq _ := h.content_eq _
  content_nil {l id} hnone hfile := by
    rcases h.node? l with hsame | ⟨-, hmade⟩
    · rw [hsame, hnone] at hfile
      cases hfile
    · rw [hmade] at hfile
      cases hfile

/-- A file that is opened in a directory that was made is empty if it is new. -/
theorem Extends.adds_openNode (h : fs.Extends fs') (hwf : fs.WellFormed) (hloc : loc ≠ [])
    (hregular : fs'.node? loc ≠ some .directory) : fs.Adds (fs'.openNode loc).1 := by
  have hadds := h.adds
  cases hnode : fs'.node? loc with
  | some node =>
    cases node with
    | directory => exact absurd hnode hregular
    | file id =>
      have hopen : (fs'.openNode loc).1 = fs' := by simp [Files.openNode, hnode]
      rwa [hopen]
  | none =>
    have hopen : (fs'.openNode loc).1 = fs'.newFile loc := by simp [Files.openNode, hnode]
    rw [hopen]
    have hsame : ∀ {l node}, fs.node? l = some node → (fs'.newFile loc).node? l = some node := by
      intro l node hl
      rw [node?_newFile hloc, if_neg, hadds.node?_eq hl]
      rintro rfl
      rw [hadds.node?_eq hl] at hnode
      cases hnode
    refine ⟨h.cwd_eq, hsame, ?_, ?_⟩
    · intro l id hl
      rw [content_newFile, h.next_eq, if_neg (Nat.ne_of_lt (hwf.known hl)), h.content_eq]
    · intro l id hl hfile
      rw [node?_newFile hloc] at hfile
      split at hfile
      next =>
        cases hfile
        rw [content_newFile, if_pos rfl]
      next =>
        rcases h.node? l with hold | ⟨-, hmade⟩
        · rw [hold, hl] at hfile
          cases hfile
        · rw [hmade] at hfile
          cases hfile

end ItemGuard.Storage.Files
