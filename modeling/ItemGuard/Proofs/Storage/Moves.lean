import ItemGuard.Proofs.Storage.Entries

/-!
# Moving directories

To move an entry takes everything below it along and touches nothing else (`Names.rename_free`). A
path goes on naming its entry through such changes as long as none of the directories on its way is
affected (`Names.of_agrees`). The way of a path gets out of a directory only through that directory
itself, so it keeps clear of what is below if it keeps clear of the top (`not_below_of_through`).
-/

namespace ItemGuard.Storage.Files

variable {fs fs' : Files} {p : Path} {path : String} {loc : Location}

/-! ## The way of a path -/

/-- The path leads through the location, before it comes to its last name. -/
def Through (fs : Files) (p : Path) (loc : Location) : Prop :=
  ∃ names, names <+: p.names.dropLast ∧ fs.walk (fs.start p) names = .ok loc

/-- A walk is the same where nothing on it is different. -/
theorem walk_of_agrees {dir : Location} {names : List String}
    (hagrees : ∀ before l, before <+: names → fs.walk loc before = .ok l → fs'.node? l = fs.node? l)
    (hwalk : fs.walk loc names = .ok dir) : fs'.walk loc names = .ok dir := by
  induction names generalizing loc with
  | nil => exact hwalk
  | cons name names ih =>
    have hloc := hagrees [] loc List.nil_prefix rfl
    rw [walk_cons_eq_ok_iff] at hwalk ⊢
    obtain ⟨hdir, hwalk⟩ := hwalk
    have hrest : ∀ next, (∀ before l, fs.walk next before = .ok l →
        fs.walk loc (name :: before) = .ok l) → fs.walk next names = .ok dir →
        fs'.walk next names = .ok dir := fun next hnext => by
      refine ih fun before l hbefore hl => ?_
      exact hagrees (name :: before) l (List.cons_prefix_cons.2 ⟨rfl, hbefore⟩) (hnext before l hl)
    refine ⟨hloc.trans hdir, ?_⟩
    rcases hwalk with ⟨hname, hwalk⟩ | ⟨hname, hwalk⟩ | ⟨hdot, hdots, hsize, hthere, hwalk⟩
    · refine .inl ⟨hname, hrest _ (fun before l hl => ?_) hwalk⟩
      exact walk_cons_eq_ok_iff.2 ⟨hdir, .inl ⟨hname, hl⟩⟩
    · refine .inr (.inl ⟨hname, hrest _ (fun before l hl => ?_) hwalk⟩)
      exact walk_cons_eq_ok_iff.2 ⟨hdir, .inr (.inl ⟨hname, hl⟩)⟩
    · have hfirst : ∀ before l, fs.walk (loc ++ [name]) before = .ok l →
          fs.walk loc (name :: before) = .ok l := fun before l hl =>
        walk_cons_eq_ok_iff.2 ⟨hdir, .inr (.inr ⟨hdot, hdots, hsize, hthere, hl⟩)⟩
      refine .inr (.inr ⟨hdot, hdots, hsize, ?_, hrest _ hfirst hwalk⟩)
      rw [hagrees [name] _ (List.cons_prefix_cons.2 ⟨rfl, List.nil_prefix⟩) (hfirst [] _ rfl)]
      exact hthere

theorem Names.of_agrees (h : fs.Names path loc)
    (hstart : fs'.start (.ofText path) = fs.start (.ofText path))
    (hagrees : ∀ l, fs.Through (.ofText path) l → fs'.node? l = fs.node? l) :
    fs'.Names path loc := by
  obtain ⟨dir, name, hplace, hrest⟩ := h
  obtain ⟨hcheck, hlast, hdot, hdots, hwalk, hdir⟩ := placeOf_eq_entry_iff.1 hplace
  refine ⟨dir, name, placeOf_eq_entry_iff.2 ⟨hcheck, hlast, hdot, hdots, ?_, ?_⟩, hrest⟩
  · rw [hstart]
    exact walk_of_agrees (fun before l hbefore hl => hagrees l ⟨before, hbefore, hl⟩) hwalk
  · rw [hagrees dir ⟨_, List.prefix_rfl, hwalk⟩, hdir]

/-- A path leads through directories. -/
theorem Through.directory (h : fs.Through p loc) {dir : Location} {name : String}
    (hplace : fs.placeOf p = .ok (.entry dir name)) : fs.node? loc = some .directory := by
  obtain ⟨before, ⟨rest, hnames⟩, hbefore⟩ := h
  obtain ⟨-, -, -, -, hwalk, hdir⟩ := placeOf_eq_entry_iff.1 hplace
  rw [← hnames, walk_append, hbefore] at hwalk
  exact node?_of_walk hwalk hdir

/-- A walk stays below a location that it does not come to. -/
theorem below_of_walk {top dir : Location} {names : List String} (htop : top <+: loc)
    (havoids : ∀ before, before <+: names → fs.walk loc before ≠ .ok top)
    (hwalk : fs.walk loc names = .ok dir) : top <+: dir := by
  induction names generalizing loc with
  | nil =>
    cases hwalk
    exact htop
  | cons name names ih =>
    have hne : top ≠ loc := fun heq => havoids [] List.nil_prefix (congrArg Except.ok heq.symm)
    obtain ⟨hdir, hwalk⟩ := walk_cons_eq_ok_iff.1 hwalk
    have hrest : ∀ next, top <+: next → (∀ before l, fs.walk next before = .ok l →
        fs.walk loc (name :: before) = .ok l) → fs.walk next names = .ok dir → top <+: dir :=
      fun next hnext hfirst => ih hnext fun before hbefore hwalk =>
        havoids (name :: before) (List.cons_prefix_cons.2 ⟨rfl, hbefore⟩) (hfirst before top hwalk)
    rcases hwalk with ⟨hname, hwalk⟩ | ⟨hname, hwalk⟩ | ⟨hdot, hdots, hsize, hthere, hwalk⟩
    · refine hrest loc htop (fun before l hl => ?_) hwalk
      exact walk_cons_eq_ok_iff.2 ⟨hdir, .inl ⟨hname, hl⟩⟩
    · have hparent : top <+: loc.dropLast := by
        obtain ⟨rest, rfl⟩ := htop
        have hrest : rest ≠ [] := fun hnil => hne (by rw [hnil, List.append_nil])
        rw [List.dropLast_append_of_ne_nil hrest]
        exact List.prefix_append _ _
      refine hrest _ hparent (fun before l hl => ?_) hwalk
      exact walk_cons_eq_ok_iff.2 ⟨hdir, .inr (.inl ⟨hname, hl⟩)⟩
    · refine hrest _ (htop.trans (List.prefix_append _ _)) (fun before l hl => ?_) hwalk
      exact walk_cons_eq_ok_iff.2 ⟨hdir, .inr (.inr ⟨hdot, hdots, hsize, hthere, hl⟩)⟩

theorem not_below_of_through {top dir : Location} {name : String}
    (hplace : fs.placeOf p = .ok (.entry dir name)) (hdir : ¬ top <+: dir)
    (htop : ¬ fs.Through p top) (h : fs.Through p loc) : ¬ top <+: loc := by
  intro hbelow
  obtain ⟨before, ⟨rest, hnames⟩, hbefore⟩ := h
  obtain ⟨-, -, -, -, hwalk, -⟩ := placeOf_eq_entry_iff.1 hplace
  rw [← hnames, walk_append, hbefore] at hwalk
  refine hdir (below_of_walk hbelow (fun more hmore htoptop => htop ⟨before ++ more, ?_, ?_⟩) hwalk)
  · rw [← hnames]
    exact (List.prefix_append_right_inj before).2 hmore
  · rw [walk_append, hbefore]
    exact htoptop

/-- Where a path does not climb, it goes down to the directory of its entry. -/
theorem prefix_of_through {dir : Location} {name : String} (hdots : ".." ∉ p.names)
    (hplace : fs.placeOf p = .ok (.entry dir name)) (h : fs.Through p loc) : loc <+: dir := by
  obtain ⟨before, ⟨rest, hnames⟩, hbefore⟩ := h
  obtain ⟨-, -, -, -, hwalk, -⟩ := placeOf_eq_entry_iff.1 hplace
  rw [← hnames, walk_append, hbefore] at hwalk
  refine prefix_of_walk (fun hmem => hdots ?_) hwalk
  exact (List.dropLast_subset _) (hnames ▸ List.mem_append_right _ hmem)

/-! ## Trees -/

section Insert

variable {f : Location → Location} {ps : List (Location × Node)} {m : Std.ExtTreeMap Location Node}

theorem getElem?_foldl_insert_of_forall_ne (h : ∀ p ∈ ps, f p.1 ≠ loc) :
    (ps.foldl (fun m p => m.insert (f p.1) p.2) m)[loc]? = m[loc]? := by
  induction ps generalizing m with
  | nil => rfl
  | cons p ps ih =>
    rw [List.foldl_cons, ih fun q hq => h q (List.mem_cons_of_mem _ hq),
      Std.ExtTreeMap.getElem?_insert]
    simp [h p List.mem_cons_self]

theorem getElem?_foldl_insert_of_mem {node : Node}
    (hkeys : ps.Pairwise fun p q => p.1 ≠ q.1) (hf : ∀ p ∈ ps, f p.1 = f loc → p.1 = loc)
    (hmem : (loc, node) ∈ ps) :
    (ps.foldl (fun m p => m.insert (f p.1) p.2) m)[f loc]? = some node := by
  obtain ⟨before, rest, rfl⟩ := List.append_of_mem hmem
  have hrest : ∀ p ∈ rest, f p.1 ≠ f loc := by
    intro p hp heq
    have hkey := (List.pairwise_cons.1 (List.pairwise_append.1 hkeys).2.1).1 p hp
    exact hkey (hf p (List.mem_append_right _ (List.mem_cons_of_mem _ hp)) heq).symm
  rw [List.foldl_append, List.foldl_cons, getElem?_foldl_insert_of_forall_ne hrest,
    Std.ExtTreeMap.getElem?_insert_self]

end Insert

theorem start_moveTree {source : Location} (target : Location)
    (h : ¬ source <+: fs.start p) : (fs.moveTree source target).start p = fs.start p := by
  unfold start at h ⊢
  split
  · rfl
  next hrooted =>
    rw [if_neg hrooted] at h
    exact if_neg fun hbelow => h (List.isPrefixOf_iff_prefix.1 hbelow)

/-- Outside of its target, a move empties its source and changes nothing else. -/
theorem node?_moveTree {source target l : Location} (hs : source ≠ []) (hl : ¬ target <+: l) :
    (fs.moveTree source target).node? l = if source <+: l then none else fs.node? l := by
  have hrelocated : ∀ l', relocated source target l' = l → ¬ source <+: l' ∧ l' = l := by
    intro l' heq
    unfold relocated at heq
    split at heq
    · exact absurd ⟨_, heq⟩ hl
    next hprefix => exact ⟨fun h => hprefix (List.isPrefixOf_iff_prefix.2 h), heq⟩
  by_cases hnil : l = []
  · subst hnil
    simp [node?, List.prefix_nil, hs]
  · rw [node?_of_ne_nil hnil, node?_of_ne_nil hnil, moveTree]
    split
    next hbelow =>
      rw [getElem?_foldl_insert_of_forall_ne, Std.ExtTreeMap.getElem?_empty]
      intro p _ heq
      obtain ⟨hnot, rfl⟩ := hrelocated p.1 heq
      exact hnot hbelow
    next hbelow =>
      have hself : relocated source target l = l :=
        if_neg fun h => hbelow (List.isPrefixOf_iff_prefix.1 h)
      cases hnode : fs.nodes[l]? with
      | none =>
        rw [getElem?_foldl_insert_of_forall_ne, Std.ExtTreeMap.getElem?_empty]
        intro p hp heq
        obtain ⟨-, rfl⟩ := hrelocated p.1 heq
        rw [Std.ExtTreeMap.mem_toList_iff_getElem?_eq_some.1 hp] at hnode
        cases hnode
      | some node =>
        have hkeys : fs.nodes.toList.Pairwise fun p q => p.1 ≠ q.1 := by
          refine Std.ExtTreeMap.distinct_keys_toList.imp fun {p q} h heq => h ?_
          rw [heq]
          exact Std.ReflCmp.compare_self
        have hmem : (l, node) ∈ fs.nodes.toList :=
          Std.ExtTreeMap.mem_toList_iff_getElem?_eq_some.2 hnode
        have honly : ∀ p ∈ fs.nodes.toList,
            relocated source target p.1 = relocated source target l → p.1 = l :=
          fun p _ heq => (hrelocated p.1 (heq.trans hself)).2
        have hfound := getElem?_foldl_insert_of_mem (m := ∅) hkeys honly hmem
        rwa [hself] at hfound

/-! ## Renaming -/

theorem WellFormed.node?_below {top : Location} (h : fs.WellFormed)
    (htop : fs.node? top ≠ some .directory) (hbelow : top <+: loc) (hne : loc ≠ top) :
    fs.node? loc = none := by
  obtain ⟨rest, rfl⟩ := hbelow
  rcases List.eq_nil_or_concat rest with rfl | ⟨before, name, rfl⟩
  · exact absurd (List.append_nil top) hne
  · rw [List.concat_eq_append, ← List.append_assoc]
    cases hnode : fs.node? (top ++ before ++ [name]) with
    | none => rfl
    | some node =>
      exact absurd (h.directory_above (List.prefix_append _ _) (h.inside hnode)) htop

section Rename

variable {source : String} {s t : Location}

theorem Names.rename_directory (hs : fs.Names source s) (ht : fs.Names path t)
    (hdir : fs.node? s = some .directory) (hfree : fs.node? t = none) (hapart : ¬ s <+: t) :
    fs.rename source path = .ok (fs.moveTree s t) := by
  obtain ⟨sdir, sname, hsplace, rfl, hssize, -⟩ := hs
  obtain ⟨dir, name, hplace, rfl, hsize, -⟩ := ht
  have hnot : (sdir ++ [sname]).isPrefixOf (dir ++ [name]) = false :=
    Bool.eq_false_iff.2 fun h => hapart (List.isPrefixOf_iff_prefix.1 h)
  simp [rename, hsplace, hplace, bind, Except.bind, lookUp, Nat.not_lt.2 hssize,
    Nat.not_lt.2 hsize, hdir, hfree, hnot]

/-- A move to a free place succeeds. Elsewhere it takes away what is at its source and below. -/
theorem Names.rename_free (hs : fs.Names source s) (ht : fs.Names path t)
    (hthere : fs.node? s ≠ none) (hfree : fs.node? t = none) (hapart : ¬ s <+: t)
    (hbelow : fs.node? s ≠ some .directory → ∀ l, s <+: l → l ≠ s → fs.node? l = none) :
    ∃ moved, fs.rename source path = .ok moved ∧
      (∀ p, ¬ s <+: fs.start p → moved.start p = fs.start p) ∧
      ∀ l, ¬ t <+: l → moved.node? l = if s <+: l then none else fs.node? l := by
  cases hnode : fs.node? s with
  | none => exact absurd hnode hthere
  | some node =>
    cases node with
    | directory =>
      exact ⟨_, hs.rename_directory ht hnode hfree hapart, fun _ => start_moveTree t,
        fun l hl => node?_moveTree hs.ne_nil hl⟩
    | file id =>
      have hplain : fs.node? s ≠ some .directory := by simp [hnode]
      refine ⟨_, hs.rename_eq ht hnode (by simp [hfree]), fun p _ => ?_, fun l hl => ?_⟩
      · unfold start
        rw [cwd_moveNode]
      · have hne : l ≠ t := fun heq => hl (heq ▸ List.prefix_rfl)
        rw [node?_moveNode hs.ne_nil ht.ne_nil hfree, if_neg hne]
        by_cases hl : l = s
        · rw [if_pos hl, if_pos (hl ▸ List.prefix_rfl)]
        · rw [if_neg hl]
          split
          next hprefix => exact hbelow hplain l hprefix hl
          next => rfl

theorem Names.removeFile_of_directory (h : fs.Names path loc)
    (hdir : fs.node? loc = some .directory) : fs.removeFile path = .error .isADirectory := by
  obtain ⟨dir, name, hplace, rfl, hsize, -⟩ := h
  simp [removeFile, hplace, bind, Except.bind, lookUp, Nat.not_lt.2 hsize, hdir]

end Rename

end ItemGuard.Storage.Files
