import ItemGuard.Storage.Files

/-!
# Changes of a file system

The operations on files come down to a few changes: an entry is set, erased or moved, a file is made
or gets another content. A file system in which every file has one entry stays like that
(`Files.WellFormed`). `Files.Keeps` says that no directory is lost, so that paths keep their
meaning.
-/

namespace ItemGuard.Storage.Files

variable {fs fs' : Files} {loc : Location} {id : Nat}

def setNode (fs : Files) (loc : Location) (node : Node) : Files :=
  { fs with nodes := fs.nodes.insert loc node }

def eraseNode (fs : Files) (loc : Location) : Files :=
  { fs with nodes := fs.nodes.erase loc }

def setContent (fs : Files) (id : Nat) (bytes : Bytes) : Files :=
  { fs with contents := fs.contents.insert id bytes }

def newFile (fs : Files) (loc : Location) : Files :=
  { fs with
    nodes := fs.nodes.insert loc (.file fs.next)
    contents := fs.contents.insert fs.next []
    next := fs.next + 1 }

/-- Moves what is at a location, if anything is, to another location. -/
def moveNode (fs : Files) (source target : Location) : Files :=
  match fs.node? source with
  | some node => (fs.eraseNode source).setNode target node
  | none => fs

/-- Leaves nothing at a location where something may be. -/
def dropNode (fs : Files) (loc : Location) : Files :=
  if (fs.node? loc).isSome then fs.eraseNode loc else fs

/-- The file at a location, which is made if nothing is there. -/
def openNode (fs : Files) (loc : Location) : Files × Nat :=
  match fs.node? loc with
  | some (.file id) => (fs, id)
  | _ => (fs.newFile loc, fs.next)

/-- The content of the file at a location; nothing if no file is there. -/
def contentAt (fs : Files) (loc : Location) : Bytes :=
  match fs.node? loc with
  | some (.file id) => fs.content id
  | _ => []

/-! ## What is where after a change -/

theorem node?_of_ne_nil (h : loc ≠ []) : fs.node? loc = fs.nodes[loc]? := by
  simp [node?, h]

theorem node?_setNode (h : loc ≠ []) (node : Node) (l : Location) :
    (fs.setNode loc node).node? l = if l = loc then some node else fs.node? l := by
  by_cases hl : l = []
  · subst hl
    simp [node?, h.symm]
  · rw [node?_of_ne_nil hl, node?_of_ne_nil hl, setNode, Std.ExtTreeMap.getElem?_insert]
    simp [eq_comm (a := l)]

theorem node?_eraseNode (h : loc ≠ []) (l : Location) :
    (fs.eraseNode loc).node? l = if l = loc then none else fs.node? l := by
  by_cases hl : l = []
  · subst hl
    simp [node?, h.symm]
  · rw [node?_of_ne_nil hl, node?_of_ne_nil hl, eraseNode, Std.ExtTreeMap.getElem?_erase]
    simp [eq_comm (a := l)]

theorem node?_newFile (h : loc ≠ []) (l : Location) :
    (fs.newFile loc).node? l = if l = loc then some (.file fs.next) else fs.node? l :=
  node?_setNode h (.file fs.next) l

@[simp] theorem node?_setContent (bytes : Bytes) (l : Location) :
    (fs.setContent id bytes).node? l = fs.node? l := rfl

theorem node?_moveNode {source target : Location} (hs : source ≠ []) (ht : target ≠ [])
    (hfree : fs.node? target = none) (l : Location) :
    (fs.moveNode source target).node? l =
      if l = target then fs.node? source else if l = source then none else fs.node? l := by
  unfold moveNode
  cases hnode : fs.node? source with
  | none =>
    by_cases hl : l = target
    · simp [hl, hfree]
    · by_cases hl' : l = source
      · simp [hl', hnode]
      · simp [hl, hl']
  | some node =>
    dsimp only
    rw [node?_setNode ht, node?_eraseNode hs]

theorem node?_dropNode (h : loc ≠ []) (l : Location) :
    (fs.dropNode loc).node? l = if l = loc then none else fs.node? l := by
  unfold dropNode
  cases hnode : fs.node? loc with
  | some node => exact node?_eraseNode h l
  | none =>
    by_cases hl : l = loc
    · simp [hl, hnode]
    · simp [hl]

theorem node?_openNode (h : loc ≠ []) (hfile : fs.node? loc ≠ some .directory) (l : Location) :
    (fs.openNode loc).1.node? l =
      if l = loc then some (.file (fs.openNode loc).2) else fs.node? l := by
  unfold openNode
  cases hnode : fs.node? loc with
  | none => exact node?_newFile h l
  | some node =>
    cases node with
    | directory => exact absurd hnode hfile
    | file id =>
      by_cases hl : l = loc
      · simp [hl, hnode]
      · simp [hl]

theorem content_setContent (bytes : Bytes) (i : Nat) :
    (fs.setContent id bytes).content i = if i = id then bytes else fs.content i := by
  simp [setContent, content, Std.ExtTreeMap.getD_insert, eq_comm (a := i)]

theorem content_newFile (i : Nat) :
    (fs.newFile loc).content i = if i = fs.next then [] else fs.content i :=
  content_setContent [] i

theorem content_openNode {i : Nat} (h : i ≠ (fs.openNode loc).2) :
    (fs.openNode loc).1.content i = fs.content i := by
  unfold openNode at h ⊢
  split
  next => rfl
  next hnode =>
    split at h
    next id hfile => exact absurd hfile (hnode id)
    next => rw [content_newFile, if_neg h]

@[simp] theorem content_moveNode (source target : Location) (i : Nat) :
    (fs.moveNode source target).content i = fs.content i := by
  unfold moveNode
  cases fs.node? source <;> rfl

@[simp] theorem content_dropNode (i : Nat) : (fs.dropNode loc).content i = fs.content i := by
  unfold dropNode
  split <;> rfl

@[simp] theorem next_moveNode (source target : Location) :
    (fs.moveNode source target).next = fs.next := by
  unfold moveNode
  cases fs.node? source <;> rfl

@[simp] theorem next_dropNode : (fs.dropNode loc).next = fs.next := by
  unfold dropNode
  split <;> rfl

@[simp] theorem cwd_moveNode (source target : Location) :
    (fs.moveNode source target).cwd = fs.cwd := by
  unfold moveNode
  cases fs.node? source <;> rfl

@[simp] theorem cwd_dropNode : (fs.dropNode loc).cwd = fs.cwd := by
  unfold dropNode
  split <;> rfl

@[simp] theorem cwd_openNode : (fs.openNode loc).1.cwd = fs.cwd := by
  unfold openNode
  split <;> rfl

theorem contentAt_of_file (h : fs.node? loc = some (.file id)) :
    fs.contentAt loc = fs.content id := by
  simp [contentAt, h]

theorem contentAt_eraseNode (h : loc ≠ []) (l : Location) :
    (fs.eraseNode loc).contentAt l = if l = loc then [] else fs.contentAt l := by
  unfold contentAt
  rw [node?_eraseNode h]
  by_cases hl : l = loc
  · rw [if_pos hl, if_pos hl]
  · rw [if_neg hl, if_neg hl]
    rfl

/-- What is written to a file that has no entry is not to be found. -/
theorem contentAt_setContent_of_no_entry (h : ∀ l, fs.node? l ≠ some (.file id)) (bytes : Bytes)
    (l : Location) : (fs.setContent id bytes).contentAt l = fs.contentAt l := by
  unfold contentAt
  rw [node?_setContent]
  split
  next i hnode =>
    have hi : i ≠ id := fun heq => h l (heq ▸ hnode)
    rw [content_setContent, if_neg hi]
  next => rfl

/-! ## One entry for every file -/

/-- Entries lie in directories, and a file has one entry. -/
structure WellFormed (fs : Files) : Prop where
  inside : ∀ {loc name node}, fs.node? (loc ++ [name]) = some node → fs.node? loc = some .directory
  known : ∀ {loc id}, fs.node? loc = some (.file id) → id < fs.next
  unlinked : ∀ {loc loc' id}, fs.node? loc = some (.file id) → fs.node? loc' = some (.file id) →
    loc = loc'

namespace WellFormed

variable {directory : Location} {name : String}

theorem setContent (h : fs.WellFormed) (bytes : Bytes) : (fs.setContent id bytes).WellFormed :=
  ⟨h.inside, h.known, h.unlinked⟩

theorem eraseNode (h : fs.WellFormed) (hfile : fs.node? loc = some (.file id)) :
    (fs.eraseNode loc).WellFormed := by
  have hloc : loc ≠ [] := by
    intro heq
    subst heq
    cases hfile
  have hnode : ∀ {l n}, (fs.eraseNode loc).node? l = some n → l ≠ loc ∧ fs.node? l = some n := by
    intro l n hl
    rw [node?_eraseNode hloc] at hl
    split at hl
    · cases hl
    next hne => exact ⟨hne, hl⟩
  refine ⟨fun {l name node} hl => ?_, fun hl => h.known (hnode hl).2,
    fun hl hl' => h.unlinked (hnode hl).2 (hnode hl').2⟩
  have hdir := h.inside (hnode hl).2
  rw [node?_eraseNode hloc, if_neg, hdir]
  intro heq
  rw [heq, hfile] at hdir
  cases hdir

/-- An entry may be set in a directory, though not to a file that has an entry, nor in place of a
directory. -/
theorem setNode {node : Node} (h : fs.WellFormed) (hdir : fs.node? directory = some .directory)
    (hfree : fs.node? (directory ++ [name]) ≠ some .directory)
    (hfile : ∀ id, node = .file id → id < fs.next ∧ ∀ l, fs.node? l ≠ some (.file id)) :
    (fs.setNode (directory ++ [name]) node).WellFormed := by
  have hnode : ∀ l, (fs.setNode (directory ++ [name]) node).node? l =
      if l = directory ++ [name] then some node else fs.node? l := node?_setNode (by simp) node
  refine ⟨fun {l n m} hl => ?_, fun {l i} hl => ?_, fun {l l' i} hl hl' => ?_⟩
  · have hold : fs.node? l = some .directory := by
      rw [hnode] at hl
      split at hl
      next heq => rw [(List.append_inj' heq rfl).1, hdir]
      next => exact h.inside hl
    rw [hnode, if_neg, hold]
    intro heq
    exact hfree (heq ▸ hold)
  · rw [hnode] at hl
    split at hl
    · exact (hfile i (Option.some.inj hl)).1
    · exact h.known hl
  · rw [hnode] at hl hl'
    split at hl
    next heq =>
      split at hl'
      next heq' => rw [heq, heq']
      next => exact absurd hl' ((hfile i (Option.some.inj hl)).2 l')
    next =>
      split at hl'
      next => exact absurd hl ((hfile i (Option.some.inj hl')).2 l)
      next => exact h.unlinked hl hl'

theorem newFile (h : fs.WellFormed) (hdir : fs.node? directory = some .directory)
    (hfree : fs.node? (directory ++ [name]) = none) :
    (fs.newFile (directory ++ [name])).WellFormed := by
  have hnext : ({ fs with
      contents := fs.contents.insert fs.next []
      next := fs.next + 1 } : Files).WellFormed :=
    ⟨h.inside, fun hl => Nat.lt_succ_of_lt (h.known hl), h.unlinked⟩
  refine hnext.setNode hdir ?_ ?_
  · intro heq
    have hnone : fs.node? (directory ++ [name]) = some .directory := heq
    rw [hfree] at hnone
    cases hnone
  · rintro i ⟨⟩
    exact ⟨Nat.lt_succ_self _, fun l hl => Nat.lt_irrefl _ (h.known hl)⟩

theorem moveNode {source : Location} (h : fs.WellFormed)
    (hsource : fs.node? source ≠ some .directory) (hdir : fs.node? directory = some .directory)
    (hfree : fs.node? (directory ++ [name]) ≠ some .directory) :
    (fs.moveNode source (directory ++ [name])).WellFormed := by
  unfold Files.moveNode
  cases hnode : fs.node? source with
  | none => exact h
  | some node =>
    cases node with
    | directory => exact absurd hnode hsource
    | file i =>
      have hne : source ≠ [] := by
        intro heq
        subst heq
        cases hnode
      have herase : ∀ l, fs.node? l = some .directory →
          (fs.eraseNode source).node? l = some .directory := by
        intro l hl
        rw [node?_eraseNode hne, if_neg, hl]
        intro heq
        exact hsource (heq ▸ hl)
      -- the file has no entry while it is between its two places
      refine setNode (h.eraseNode hnode) (herase _ hdir) ?_ ?_
      · rw [node?_eraseNode hne]
        split
        · intro heq
          cases heq
        · exact hfree
      · rintro j ⟨⟩
        refine ⟨h.known hnode, fun l hl => ?_⟩
        rw [node?_eraseNode hne] at hl
        split at hl
        · cases hl
        next hl' => exact hl' (h.unlinked hl hnode)

theorem dropNode (h : fs.WellFormed) (hfile : fs.node? loc ≠ some .directory) :
    (fs.dropNode loc).WellFormed := by
  unfold Files.dropNode
  cases hnode : fs.node? loc with
  | none => exact h
  | some node =>
    cases node with
    | directory => exact absurd hnode hfile
    | file id => exact h.eraseNode hnode

theorem openNode (h : fs.WellFormed) (hdir : fs.node? directory = some .directory)
    (hfile : fs.node? (directory ++ [name]) ≠ some .directory) :
    (fs.openNode (directory ++ [name])).1.WellFormed := by
  unfold Files.openNode
  cases hnode : fs.node? (directory ++ [name]) with
  | none => exact h.newFile hdir hnode
  | some node =>
    cases node with
    | directory => exact absurd hnode hfile
    | file id => exact h

theorem contentAt_setContent (h : fs.WellFormed) (hfile : fs.node? loc = some (.file id))
    (bytes : Bytes) (l : Location) :
    (fs.setContent id bytes).contentAt l = if l = loc then bytes else fs.contentAt l := by
  unfold contentAt
  rw [node?_setContent]
  by_cases hl : l = loc
  · simp [hl, hfile, content_setContent]
  · rw [if_neg hl]
    cases hnode : fs.node? l with
    | none => rfl
    | some node =>
      cases node with
      | directory => rfl
      | file i =>
        have hi : i ≠ id := by
          intro heq
          exact hl (h.unlinked hnode (heq ▸ hfile))
        simp [content_setContent, hi]

/-- A file that is made is empty, as a missing one counts. -/
theorem contentAt_openNode (h : fs.WellFormed) (hloc : loc ≠ [])
    (hfile : fs.node? loc ≠ some .directory) (l : Location) :
    (fs.openNode loc).1.contentAt l = fs.contentAt l := by
  unfold Files.openNode
  cases hnode : fs.node? loc with
  | some node =>
    cases node with
    | directory => exact absurd hnode hfile
    | file id => rfl
  | none =>
    unfold contentAt
    rw [node?_newFile hloc]
    by_cases hl : l = loc
    · simp [hl, hnode, content_newFile]
    · rw [if_neg hl]
      cases hl' : fs.node? l with
      | none => rfl
      | some node =>
        cases node with
        | directory => rfl
        | file i =>
          have hi : i ≠ fs.next := Nat.ne_of_lt (h.known hl')
          simp [content_newFile, hi]

end WellFormed

/-! ## The file system at the start -/

theorem getElem?_foldl_directories (locs : List Location) (m : Std.ExtTreeMap Location Node)
    (loc : Location) :
    ((locs.map fun l => (l, Node.directory)).foldl (fun m p => m.insert p.1 p.2) m)[loc]? =
      if loc ∈ locs then some Node.directory else m[loc]? := by
  induction locs generalizing m with
  | nil => rfl
  | cons l locs ih =>
    rw [List.map_cons, List.foldl_cons, ih, Std.ExtTreeMap.getElem?_insert]
    by_cases hmem : loc ∈ locs
    · simp [hmem]
    · by_cases hl : loc = l
      · simp [hl]
      · simp [hmem, hl, eq_comm (a := l)]

/-- There is nothing but the directories down to the working directory. -/
theorem node?_emptyAt (cwd loc : Location) :
    (emptyAt cwd).node? loc = if loc <+: cwd then some .directory else none := by
  by_cases hloc : loc = []
  · subst hloc
    simp [node?]
  · have hmem : loc ∈ (List.range cwd.length).map (fun n => cwd.take (n + 1)) ↔ loc <+: cwd := by
      constructor
      · intro h
        obtain ⟨n, -, rfl⟩ := List.mem_map.1 h
        exact List.take_prefix _ _
      · intro h
        have hlength := h.length_le
        have hpos := List.length_pos_iff.2 hloc
        refine List.mem_map.2 ⟨loc.length - 1, List.mem_range.2 (by omega), ?_⟩
        rw [Nat.sub_add_cancel hpos]
        exact (List.prefix_iff_eq_take.1 h).symm
    have hlist : (List.range cwd.length).map (fun n => (cwd.take (n + 1), Node.directory)) =
        ((List.range cwd.length).map fun n => cwd.take (n + 1)).map fun l => (l, Node.directory) := by
      simp
    rw [node?_of_ne_nil hloc, emptyAt]
    simp only [hlist, getElem?_foldl_directories, hmem]
    simp

theorem wellFormed_emptyAt (cwd : Location) : (emptyAt cwd).WellFormed := by
  have hfile : ∀ {loc id}, (emptyAt cwd).node? loc ≠ some (.file id) := by
    intro loc id h
    rw [node?_emptyAt] at h
    split at h <;> cases h
  refine ⟨fun {loc name node} h => ?_, fun h => absurd h hfile, fun h => absurd h hfile⟩
  rw [node?_emptyAt] at h ⊢
  split at h
  next habove => rw [if_pos ((List.prefix_append loc [name]).trans habove)]
  next => cases h

/-! ## Directories that stay -/

/-- The other file system has all the directories, and the same working directory. -/
structure Keeps (fs fs' : Files) : Prop where
  cwd_eq : fs'.cwd = fs.cwd
  directory : ∀ {loc}, fs.node? loc = some .directory → fs'.node? loc = some .directory

namespace Keeps

theorem refl (fs : Files) : fs.Keeps fs := ⟨rfl, fun hl => hl⟩

theorem trans {fs₁ fs₂ fs₃ : Files} (h : fs₁.Keeps fs₂) (h' : fs₂.Keeps fs₃) : fs₁.Keeps fs₃ :=
  ⟨h'.cwd_eq.trans h.cwd_eq, fun hl => h'.directory (h.directory hl)⟩

theorem setContent (bytes : Bytes) : fs.Keeps (fs.setContent id bytes) := ⟨rfl, fun hl => hl⟩

theorem eraseNode (h : fs.node? loc ≠ some .directory) (hne : loc ≠ []) :
    fs.Keeps (fs.eraseNode loc) := by
  refine ⟨rfl, fun {l} hl => ?_⟩
  rw [node?_eraseNode hne, if_neg, hl]
  intro heq
  exact h (heq ▸ hl)

theorem setNode {node : Node} (h : fs.node? loc ≠ some .directory) (hne : loc ≠ []) :
    fs.Keeps (fs.setNode loc node) := by
  refine ⟨rfl, fun {l} hl => ?_⟩
  rw [node?_setNode hne, if_neg, hl]
  intro heq
  exact h (heq ▸ hl)

theorem newFile (h : fs.node? loc ≠ some .directory) (hne : loc ≠ []) :
    fs.Keeps (fs.newFile loc) := by
  have hset : fs.Keeps (fs.setNode loc (.file fs.next)) := setNode h hne
  exact ⟨rfl, hset.directory⟩

theorem dropNode (h : fs.node? loc ≠ some .directory) (hne : loc ≠ []) :
    fs.Keeps (fs.dropNode loc) := by
  unfold Files.dropNode
  split
  · exact eraseNode h hne
  · exact refl fs

theorem openNode (h : fs.node? loc ≠ some .directory) (hne : loc ≠ []) :
    fs.Keeps (fs.openNode loc).1 := by
  unfold Files.openNode
  split
  · exact refl fs
  · exact newFile h hne

theorem moveNode {source target : Location} (hs : fs.node? source ≠ some .directory)
    (ht : fs.node? target = none) (hsne : source ≠ []) (htne : target ≠ []) :
    fs.Keeps (fs.moveNode source target) := by
  refine ⟨cwd_moveNode source target, fun {l} hl => ?_⟩
  rw [node?_moveNode hsne htne ht, if_neg, if_neg, hl]
  · intro heq
    exact hs (heq ▸ hl)
  · intro heq
    rw [heq, ht] at hl
    cases hl

end Keeps

end ItemGuard.Storage.Files
