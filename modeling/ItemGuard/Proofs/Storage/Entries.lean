import ItemGuard.Proofs.Storage.Changes

/-!
# What a path names

A path that names an entry of a directory (`Files.Names`) does so for as long as no directory is
lost (`Names.keeps`), and each operation reads or changes that entry alone.
-/

namespace ItemGuard.Storage.Files

variable {fs fs' : Files} {p : Path}

/-! ## Walks -/

theorem walk_append (fs : Files) (loc : Location) (as bs : List String) :
    fs.walk loc (as ++ bs) = (fs.walk loc as).bind fun l => fs.walk l bs := by
  induction as generalizing loc with
  | nil => rfl
  | cons name as ih =>
    simp only [List.cons_append, walk]
    cases hnode : fs.node? loc with
    | none => rfl
    | some node =>
      cases node with
      | file id => rfl
      | directory =>
        simp only
        by_cases hdot : name = "."
        · simp only [hdot, if_true, ih]
        · by_cases hdots : name = ".."
          · simp only [hdots, if_true, ih]
            rfl
          · simp only [hdot, hdots, if_false]
            cases fs.lookUp loc name with
            | error e => rfl
            | ok entry =>
              cases entry with
              | none => rfl
              | some n => exact ih _

/-- Where the first name of a walk leads. -/
theorem walk_cons_eq_ok_iff {loc dir : Location} {name : String} {names : List String} :
    fs.walk loc (name :: names) = .ok dir ↔
      fs.node? loc = some .directory ∧
        ((name = "." ∧ fs.walk loc names = .ok dir) ∨
          (name = ".." ∧ fs.walk loc.dropLast names = .ok dir) ∨
          (name ≠ "." ∧ name ≠ ".." ∧ name.utf8ByteSize ≤ nameLimit ∧
            fs.node? (loc ++ [name]) ≠ none ∧ fs.walk (loc ++ [name]) names = .ok dir)) := by
  rw [walk]
  cases hnode : fs.node? loc with
  | none => simp
  | some node =>
    cases node with
    | file id => simp
    | directory =>
      dsimp only
      by_cases hdot : name = "."
      · simp [hdot]
      · by_cases hdots : name = ".."
        · simp [hdots]
        · rw [if_neg hdot, if_neg hdots]
          unfold lookUp
          by_cases hlimit : nameLimit < name.utf8ByteSize
          · simp [hlimit, hdot, hdots, Nat.not_le.2 hlimit]
          · rw [if_neg hlimit]
            cases hnext : fs.node? (loc ++ [name]) with
            | none => simp [hdot, hdots]
            | some n => simp [hdot, hdots, Nat.not_lt.1 hlimit]

theorem node?_of_walk {loc dir : Location} {names : List String}
    (hwalk : fs.walk loc names = .ok dir) (hdir : fs.node? dir = some .directory) :
    fs.node? loc = some .directory := by
  cases names with
  | nil =>
    cases hwalk
    exact hdir
  | cons name names => exact (walk_cons_eq_ok_iff.1 hwalk).1

/-- A walk that ends in a directory meets directories only. -/
theorem walk_keeps {loc dir : Location} {names : List String} (h : fs.Keeps fs')
    (hwalk : fs.walk loc names = .ok dir) (hdir : fs.node? dir = some .directory) :
    fs'.walk loc names = .ok dir := by
  induction names generalizing loc with
  | nil => exact hwalk
  | cons name names ih =>
    rw [walk_cons_eq_ok_iff] at hwalk ⊢
    obtain ⟨hloc, hwalk⟩ := hwalk
    refine ⟨h.directory hloc, ?_⟩
    rcases hwalk with ⟨hname, hrest⟩ | ⟨hname, hrest⟩ | ⟨hdot, hdots, hsize, -, hrest⟩
    · exact .inl ⟨hname, ih hrest⟩
    · exact .inr (.inl ⟨hname, ih hrest⟩)
    · have hnext := h.directory (node?_of_walk hrest hdir)
      refine .inr (.inr ⟨hdot, hdots, hsize, ?_, ih hrest⟩)
      rw [hnext]
      exact Option.some_ne_none _

theorem start_keeps (h : fs.Keeps fs') (p : Path) : fs'.start p = fs.start p := by
  unfold start
  rw [h.cwd_eq]

/-! ## Places -/

theorem checkPath_eq_ok_iff :
    checkPath p = .ok () ↔ p.hasNull = false ∧ p.isEmpty = false ∧ p.size ≤ pathLimit := by
  unfold checkPath
  cases p.hasNull with
  | true => simp
  | false =>
    cases p.isEmpty with
    | true => simp
    | false =>
      by_cases hsize : pathLimit < p.size
      · simp [hsize, Nat.not_le.2 hsize]
      · simp [hsize, Nat.not_lt.1 hsize]

theorem placeOf_eq_entry_iff {dir : Location} {name : String} :
    fs.placeOf p = .ok (.entry dir name) ↔
      checkPath p = .ok () ∧ p.names.getLast? = some name ∧ name ≠ "." ∧ name ≠ ".." ∧
        fs.walk (fs.start p) p.names.dropLast = .ok dir ∧ fs.node? dir = some .directory := by
  unfold placeOf
  simp only [bind, Except.bind]
  cases hcheck : checkPath p with
  | error e => simp
  | ok _ =>
    cases hlast : p.names.getLast? with
    | none => simp
    | some last =>
      cases hwalk : fs.walk (fs.start p) p.names.dropLast with
      | error e => simp
      | ok loc =>
        cases hnode : fs.node? loc with
        | none => simp; grind
        | some node => cases node <;> simp <;> grind

theorem placeOf_keeps {dir : Location} {name : String} (h : fs.Keeps fs')
    (hplace : fs.placeOf p = .ok (.entry dir name)) : fs'.placeOf p = .ok (.entry dir name) := by
  rw [placeOf_eq_entry_iff] at hplace ⊢
  obtain ⟨hcheck, hlast, hdot, hdots, hwalk, hdir⟩ := hplace
  rw [start_keeps h]
  exact ⟨hcheck, hlast, hdot, hdots, walk_keeps h hwalk hdir, h.directory hdir⟩

theorem find_eq_ok_iff {loc : Location} {node : Node} :
    fs.find p = .ok (loc, node) ↔
      checkPath p = .ok () ∧ fs.walk (fs.start p) p.names = .ok loc ∧ fs.node? loc = some node ∧
        (node = .directory ∨ p.trailing = false) := by
  unfold find
  simp only [bind, Except.bind]
  cases hcheck : checkPath p with
  | error e => simp
  | ok _ =>
    cases hwalk : fs.walk (fs.start p) p.names with
    | error e => simp
    | ok l =>
      cases hnode : fs.node? l with
      | none => simp; grind
      | some found => cases found <;> simp <;> grind

/-- Where a path leads depends on the names alone. -/
theorem find_congr (hnodes : fs'.nodes = fs.nodes) (hcwd : fs'.cwd = fs.cwd) (p : Path) :
    fs'.find p = fs.find p := by
  have hnode : fs'.node? = fs.node? := by
    funext loc
    unfold node?
    rw [hnodes]
  have hwalk : ∀ loc names, fs'.walk loc names = fs.walk loc names := by
    intro loc names
    induction names generalizing loc with
    | nil => rfl
    | cons name names ih => simp only [walk, lookUp, hnode, ih]
  unfold find start
  simp only [hwalk, hnode, hcwd]

/-- The content of the file that a path leads to; nothing if no file is there. -/
def contentOf (fs : Files) (path : String) : Bytes :=
  match fs.readBytes path with
  | .ok bytes => bytes
  | .error _ => []

/-- The path names the entry at a location, in a directory that exists. -/
def Names (fs : Files) (path : String) (loc : Location) : Prop :=
  ∃ dir name, fs.placeOf (.ofText path) = .ok (.entry dir name) ∧ loc = dir ++ [name] ∧
    name.utf8ByteSize ≤ nameLimit ∧ (Path.ofText path).trailing = false

namespace Names

variable {path : String} {loc : Location}

theorem keeps (h : fs.Names path loc) (hkeeps : fs.Keeps fs') : fs'.Names path loc := by
  obtain ⟨dir, name, hplace, hrest⟩ := h
  exact ⟨dir, name, placeOf_keeps hkeeps hplace, hrest⟩

theorem ne_nil (h : fs.Names path loc) : loc ≠ [] := by
  obtain ⟨dir, name, -, rfl, -⟩ := h
  simp

theorem inDirectory (h : fs.Names path loc) :
    ∃ dir name, loc = dir ++ [name] ∧ fs.node? dir = some .directory := by
  obtain ⟨dir, name, hplace, hloc, -⟩ := h
  obtain ⟨-, -, -, -, -, hdir⟩ := placeOf_eq_entry_iff.1 hplace
  exact ⟨dir, name, hloc, hdir⟩

theorem find_eq (h : fs.Names path loc) :
    fs.find (.ofText path) =
      match fs.node? loc with
      | some node => .ok (loc, node)
      | none => .error .notFound := by
  obtain ⟨dir, name, hplace, rfl, hsize, hplain⟩ := h
  obtain ⟨hcheck, hlast, hdot, hdots, hwalk, hdir⟩ := placeOf_eq_entry_iff.1 hplace
  obtain ⟨around, hnames⟩ := List.getLast?_eq_some_iff.1 hlast
  rw [hnames, List.dropLast_concat] at hwalk
  unfold find
  rw [hcheck, hnames, walk_append, hwalk]
  simp only [bind, Except.bind, walk, hdir, lookUp, if_neg hdot, if_neg hdots,
    if_neg (Nat.not_lt.2 hsize)]
  cases hnode : fs.node? (dir ++ [name]) with
  | none => rfl
  | some node =>
    cases node with
    | file id => simp [hnode, hplain]
    | directory => simp [hnode]

theorem pathExists_eq (h : fs.Names path loc) : fs.pathExists path = (fs.node? loc).isSome := by
  unfold pathExists
  rw [h.find_eq]
  cases fs.node? loc <;> rfl

theorem isDirectory_eq (h : fs.Names path loc) :
    fs.isDirectory (.ofText path) = decide (fs.node? loc = some .directory) := by
  unfold isDirectory
  rw [h.find_eq]
  cases fs.node? loc with
  | none => rfl
  | some node => cases node <;> rfl

theorem contentOf_eq (h : fs.Names path loc) : fs.contentOf path = fs.contentAt loc := by
  unfold contentOf readBytes contentAt
  rw [h.find_eq]
  cases fs.node? loc with
  | none => rfl
  | some node => cases node <;> rfl

/-! ## Operations -/

theorem removeFile_eq (h : fs.Names path loc) {id : Nat} (hfile : fs.node? loc = some (.file id)) :
    fs.removeFile path = .ok (fs.eraseNode loc) := by
  obtain ⟨dir, name, hplace, rfl, hsize, hplain⟩ := h
  simp [removeFile, hplace, bind, Except.bind, lookUp, Nat.not_lt.2 hsize, hfile, hplain, eraseNode]

theorem rename_eq {source : String} {s : Location} (hs : fs.Names source s)
    (h : fs.Names path loc) {id : Nat} (hfile : fs.node? s = some (.file id))
    (hfree : fs.node? loc ≠ some .directory) :
    fs.rename source path = .ok (fs.moveNode s loc) := by
  obtain ⟨sdir, sname, hsplace, rfl, hssize, hsplain⟩ := hs
  obtain ⟨dir, name, hplace, rfl, hsize, hplain⟩ := h
  have hmove : fs.moveNode (sdir ++ [sname]) (dir ++ [name]) =
      { fs with nodes := (fs.nodes.erase (sdir ++ [sname])).insert (dir ++ [name]) (.file id) } := by
    simp only [moveNode, hfile]
    rfl
  rw [hmove]
  simp only [rename, hsplace, hplace, bind, Except.bind, lookUp, if_neg (Nat.not_lt.2 hssize),
    if_neg (Nat.not_lt.2 hsize), hfile, hplain, hsplain]
  cases hnode : fs.node? (dir ++ [name]) with
  | none => rfl
  | some node =>
    cases node with
    | file i => rfl
    | directory => exact absurd hnode hfree

theorem rename_of_none {source : String} {s : Location} (hs : fs.Names source s)
    (h : fs.Names path loc) (hnone : fs.node? s = none) :
    fs.rename source path = .error .notFound := by
  obtain ⟨sdir, sname, hsplace, rfl, hssize, -⟩ := hs
  obtain ⟨dir, name, hplace, -⟩ := h
  simp [rename, hsplace, hplace, bind, Except.bind, lookUp, Nat.not_lt.2 hssize, hnone]

theorem openFile_eq (h : fs.Names path loc) (hfile : fs.node? loc ≠ some .directory) :
    fs.openFile path = .ok (fs.openNode loc) := by
  obtain ⟨dir, name, hplace, rfl, hsize, hplain⟩ := h
  simp only [openFile, hplace, bind, Except.bind, lookUp, if_neg (Nat.not_lt.2 hsize), hplain,
    openNode]
  cases hnode : fs.node? (dir ++ [name]) with
  | none => rfl
  | some node =>
    cases node with
    | directory => exact absurd hnode hfile
    | file id => rfl

/-- A file can be opened only by a path that names its entry. -/
theorem of_openFile {opened : Files × Nat} (h : fs.openFile path = .ok opened) :
    ∃ loc, fs.Names path loc ∧ fs.node? loc ≠ some .directory := by
  unfold openFile at h
  simp only [bind, Except.bind] at h
  cases hplace : fs.placeOf (.ofText path) with
  | error e => simp [hplace] at h
  | ok place =>
    cases place with
    | directory => simp [hplace] at h
    | entry dir name =>
      cases hplain : (Path.ofText path).trailing with
      | true => simp [hplace, hplain] at h
      | false =>
        by_cases hsize : nameLimit < name.utf8ByteSize
        · simp [hplace, hplain, lookUp, hsize] at h
        · refine ⟨dir ++ [name], ⟨dir, name, hplace, rfl, Nat.not_lt.1 hsize, hplain⟩, ?_⟩
          intro hdir
          simp [hplace, hplain, lookUp, hsize, hdir] at h

end Names

/-- Only files are removed. -/
theorem removeFile_eq_ok {path : String} (h : fs.removeFile path = .ok fs') :
    ∃ loc id, fs.node? loc = some (.file id) ∧ fs' = fs.eraseNode loc := by
  unfold removeFile at h
  simp only [bind, Except.bind] at h
  cases hplace : fs.placeOf (.ofText path) with
  | error e => simp [hplace] at h
  | ok place =>
    cases place with
    | directory => simp [hplace] at h
    | entry dir name =>
      by_cases hsize : nameLimit < name.utf8ByteSize
      · simp [hplace, lookUp, hsize] at h
      · cases hnode : fs.node? (dir ++ [name]) with
        | none => simp [hplace, lookUp, hsize, hnode] at h
        | some node =>
          cases node with
          | directory => simp [hplace, lookUp, hsize, hnode] at h
          | file id =>
            cases hplain : (Path.ofText path).trailing with
            | true => simp [hplace, lookUp, hsize, hnode, hplain] at h
            | false =>
              simp only [hplace, lookUp, hsize, hnode, hplain, if_false] at h
              cases h
              exact ⟨_, id, hnode, rfl⟩

/-! ## Work in several parts -/

/-- Doing operations one after the other preserves what is preserved by each of them. -/
theorem attemptAll_induct {P : Files → Prop} {operations : List (Files → Except Failure Files)}
    (hstep : ∀ operation ∈ operations, ∀ {fs fs'}, P fs → operation fs = .ok fs' → P fs')
    (h : P fs) : P (fs.attemptAll operations).2 := by
  induction operations generalizing fs with
  | nil => exact h
  | cons operation operations ih =>
    unfold attemptAll
    cases hdone : operation fs with
    | error e => exact h
    | ok done =>
      exact ih (fun o ho => hstep o (List.mem_cons_of_mem _ ho))
        (hstep operation List.mem_cons_self h hdone)

/-! ## What the files hold

To remove or rename a file changes names and leaves all contents as they are.
-/

section Contents

variable {source target path : String}

theorem contents_of_removeFile (h : fs.removeFile path = .ok fs') :
    fs'.contents = fs.contents := by
  obtain ⟨_, _, -, rfl⟩ := removeFile_eq_ok h
  rfl

theorem contents_of_rename (h : fs.rename source target = .ok fs') :
    fs'.contents = fs.contents := by
  unfold rename at h
  simp only [bind, Except.bind] at h
  repeat' split at h
  all_goals cases h
  all_goals rfl

end Contents

/-! ## What was there before

More directories can only add to what a path leads to. Where a path does not climb with `..`, it led
to a file before directories were added if that file was there.
-/

theorem WellFormed.directory_above {a b : Location} (h : fs.WellFormed) (hab : a <+: b)
    (hb : fs.node? b = some .directory) : fs.node? a = some .directory := by
  obtain ⟨rest, rfl⟩ := hab
  induction rest generalizing a with
  | nil => rwa [List.append_nil] at hb
  | cons name rest ih =>
    have hnext : fs.node? (a ++ [name]) = some .directory := ih (by rwa [List.append_assoc])
    exact h.inside hnext

/-- Where a path that does not climb leads. -/
def placeBelow (fs : Files) (p : Path) : Location :=
  fs.start p ++ p.names.filter (· ≠ ".")

theorem eq_append_of_walk {loc dir : Location} {names : List String} (hdots : ".." ∉ names)
    (hwalk : fs.walk loc names = .ok dir) : dir = loc ++ names.filter (· ≠ ".") := by
  induction names generalizing loc with
  | nil =>
    cases hwalk
    exact (List.append_nil _).symm
  | cons name names ih =>
    have hrest : ".." ∉ names := fun h => hdots (List.mem_cons_of_mem _ h)
    obtain ⟨-, hwalk⟩ := walk_cons_eq_ok_iff.1 hwalk
    rcases hwalk with ⟨hname, hwalk⟩ | ⟨hname, -⟩ | ⟨hdot, -, -, -, hwalk⟩
    · rw [ih hrest hwalk]
      simp [hname]
    · exact absurd (hname ▸ List.mem_cons_self) hdots
    · rw [ih hrest hwalk]
      simp [hdot]

theorem prefix_of_walk {loc dir : Location} {names : List String} (hdots : ".." ∉ names)
    (hwalk : fs.walk loc names = .ok dir) : loc <+: dir :=
  ⟨_, (eq_append_of_walk hdots hwalk).symm⟩

theorem WellFormed.walk_of_keeps {loc dir : Location} {names : List String} (h : fs.WellFormed)
    (hdots : ".." ∉ names) (hwalk : fs'.walk loc names = .ok dir)
    (hdir : fs.node? dir = some .directory) : fs.walk loc names = .ok dir := by
  induction names generalizing loc with
  | nil => exact hwalk
  | cons name names ih =>
    have hrest : ".." ∉ names := fun h => hdots (List.mem_cons_of_mem _ h)
    have hloc := h.directory_above (prefix_of_walk hdots hwalk) hdir
    obtain ⟨-, hwalk⟩ := walk_cons_eq_ok_iff.1 hwalk
    refine walk_cons_eq_ok_iff.2 ⟨hloc, ?_⟩
    rcases hwalk with ⟨hname, hwalk⟩ | ⟨hname, -⟩ | ⟨hdot, hdots, hsize, -, hwalk⟩
    · exact .inl ⟨hname, ih hrest hwalk⟩
    · exact absurd (hname ▸ List.mem_cons_self) hdots
    · have hnext := h.directory_above (prefix_of_walk hrest hwalk) hdir
      refine .inr (.inr ⟨hdot, hdots, hsize, ?_, ih hrest hwalk⟩)
      rw [hnext]
      exact Option.some_ne_none _

namespace Names

variable {path : String} {loc : Location}

theorem unique {loc' : Location} (h : fs.Names path loc) (h' : fs.Names path loc') : loc = loc' := by
  obtain ⟨dir, name, hplace, hloc, -⟩ := h
  obtain ⟨dir', name', hplace', hloc', -⟩ := h'
  rw [hplace] at hplace'
  cases hplace'
  rw [hloc, hloc']

theorem of_keeps (hwf : fs.WellFormed) (hcwd : fs'.cwd = fs.cwd)
    (hdots : ".." ∉ (Path.ofText path).names) (h : fs'.Names path loc)
    (hthere : fs.node? loc ≠ none) : fs.Names path loc := by
  obtain ⟨dir, name, hplace, rfl, hrest⟩ := h
  obtain ⟨hcheck, hlast, hdot, hdots', hwalk, -⟩ := placeOf_eq_entry_iff.1 hplace
  obtain ⟨node, hnode⟩ := Option.ne_none_iff_exists'.1 hthere
  have hdir := hwf.inside hnode
  have haround : ".." ∉ (Path.ofText path).names.dropLast :=
    fun hmem => hdots (List.dropLast_subset _ hmem)
  have hstart : fs'.start (.ofText path) = fs.start (.ofText path) := by
    unfold start
    rw [hcwd]
  rw [hstart] at hwalk
  exact ⟨dir, name, placeOf_eq_entry_iff.2
    ⟨hcheck, hlast, hdot, hdots', hwf.walk_of_keeps haround hwalk hdir, hdir⟩, rfl, hrest⟩

/-- A path that can be read names the entry of a file. -/
theorem of_readBytes (hwf : fs.WellFormed) {bytes : Bytes} (h : fs.readBytes path = .ok bytes) :
    ∃ loc id, fs.Names path loc ∧ fs.node? loc = some (.file id) := by
  have hfind : ∃ loc id, fs.find (.ofText path) = .ok (loc, .file id) := by
    unfold readBytes at h
    cases hfind : fs.find (.ofText path) with
    | error e => simp [hfind, bind, Except.bind] at h
    | ok found =>
      obtain ⟨loc, node⟩ := found
      cases node with
      | directory => simp [hfind, bind, Except.bind] at h
      | file id => exact ⟨loc, id, rfl⟩
  obtain ⟨loc, id, hfind⟩ := hfind
  obtain ⟨hcheck, hwalk, hnode, hplain⟩ := find_eq_ok_iff.1 hfind
  have hplain : (Path.ofText path).trailing = false := by
    rcases hplain with hdir | hplain
    · cases hdir
    · exact hplain
  refine ⟨loc, id, ?_, hnode⟩
  cases hlast : (Path.ofText path).names.getLast? with
  | none =>
    -- without names the path is the root
    have hnames := List.getLast?_eq_none_iff.1 hlast
    have hrooted : (Path.ofText path).rooted = true := by
      have hempty := (checkPath_eq_ok_iff.1 hcheck).2.1
      simpa [Path.isEmpty, hnames] using hempty
    rw [hnames, start, if_pos hrooted] at hwalk
    cases hwalk
    cases hnode
  | some name =>
    obtain ⟨around, hnames⟩ := List.getLast?_eq_some_iff.1 hlast
    rw [hnames, walk_append] at hwalk
    cases hdir : fs.walk (fs.start (.ofText path)) around with
    | error e => simp [hdir, Except.bind] at hwalk
    | ok dir =>
      rw [hdir] at hwalk
      obtain ⟨hdirectory, hname⟩ := walk_cons_eq_ok_iff.1 hwalk
      rcases hname with ⟨-, hend⟩ | ⟨-, hend⟩ | ⟨hdot, hdots, hsize, -, hend⟩
      · cases hend
        rw [hnode] at hdirectory
        cases hdirectory
      · cases hend
        have hup : dir.dropLast <+: dir := List.dropLast_prefix dir
        have habove := hwf.directory_above hup hdirectory
        rw [hnode] at habove
        cases habove
      · cases hend
        refine ⟨dir, name, ?_, rfl, hsize, hplain⟩
        refine placeOf_eq_entry_iff.2 ⟨hcheck, hlast, hdot, hdots, ?_, hdirectory⟩
        rw [hnames, List.dropLast_concat, hdir]

end Names

end ItemGuard.Storage.Files
