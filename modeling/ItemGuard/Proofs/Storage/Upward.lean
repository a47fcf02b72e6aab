import ItemGuard.Proofs.Storage.Directories
import Mathlib.Data.List.Chain

/-!
# The directories around a path

Each path of `Path.upward` leads through the one after it (`isChain_upward`), so the directory
around an entry is there as soon as a path names the entry (`Names.hasParent`). Making directories
gets as far as it can at once: where it has failed, it fails again and changes nothing
(`makeParents_again`).
-/

namespace ItemGuard.Storage

/-! ## Names between slashes -/

namespace Path

/-- The names in the text of a path. -/
def namesOf (cs : List Char) : List String :=
  ((Text.splitOn '/' cs).filter fun f => !f.isEmpty).map String.ofList

theorem namesOf_append_slash (as bs : List Char) :
    namesOf (as ++ '/' :: bs) = namesOf as ++ namesOf bs := by
  simp [namesOf, Text.splitOn_append_sep]

theorem namesOf_field {field : List Char} (hslash : '/' ∉ field) (hne : field ≠ []) :
    namesOf field = [String.ofList field] := by
  simp [namesOf, Text.splitOn_of_not_mem hslash, hne]

/-- The inner path goes on, behind a `/`, where the outer one ends. -/
def Around (outer inner : String) : Prop :=
  ∃ rest, inner.toList = outer.toList ++ '/' :: rest ∧ namesOf outer.toList ≠ [] ∧
    namesOf rest ≠ []

namespace Around

variable {outer inner : String}

theorem names_eq (h : Around outer inner) :
    ∃ more, more ≠ [] ∧ (ofText inner).names = (ofText outer).names ++ more := by
  obtain ⟨rest, hinner, -, hrest⟩ := h
  refine ⟨namesOf rest, hrest, ?_⟩
  change namesOf inner.toList = namesOf outer.toList ++ namesOf rest
  rw [hinner, namesOf_append_slash]

theorem rooted_eq (h : Around outer inner) : (ofText outer).rooted = (ofText inner).rooted := by
  obtain ⟨rest, hinner, houter, -⟩ := h
  cases hlist : outer.toList with
  | nil => simp [hlist, namesOf, Text.splitOn] at houter
  | cons c cs => simp [ofText, hinner, hlist]

theorem size_le (h : Around outer inner) : (ofText outer).size ≤ (ofText inner).size := by
  obtain ⟨rest, hinner, -⟩ := h
  have htext : inner = outer ++ String.ofList ('/' :: rest) := by
    apply String.toList_injective
    simp [hinner]
  change outer.utf8ByteSize ≤ inner.utf8ByteSize
  rw [htext, String.utf8ByteSize_append]
  exact Nat.le_add_right _ _

theorem trans {middle : String} (h : Around outer middle) (h' : Around middle inner) :
    Around outer inner := by
  obtain ⟨rest, hmiddle, houter, hrest⟩ := h
  obtain ⟨rest', hinner, -, -⟩ := h'
  refine ⟨rest ++ '/' :: rest', by rw [hinner, hmiddle, List.append_assoc, List.cons_append],
    houter, ?_⟩
  rw [namesOf_append_slash]
  exact List.append_ne_nil_of_left_ne_nil hrest _

theorem checkPath_outer (h : Around outer inner) (hcheck : Files.checkPath (ofText inner) = .ok ()) :
    Files.checkPath (ofText outer) = .ok () := by
  obtain ⟨hnull, -, hsize⟩ := Files.checkPath_eq_ok_iff.1 hcheck
  obtain ⟨more, -, hnames⟩ := h.names_eq
  refine Files.checkPath_eq_ok_iff.2 ⟨?_, ?_, h.size_le.trans hsize⟩
  · simp only [hasNull, hnames, List.any_append, Bool.or_eq_false_iff] at hnull
    exact hnull.1
  · obtain ⟨-, -, houter, -⟩ := h
    have hne : (ofText outer).names ≠ [] := houter
    simp [isEmpty, hne]

end Around

/-! ## The way up -/

/-- The text of the first path on the way up ends where a field ends. -/
theorem head_upwardOf {fields : List (List Char)} (hslash : ∀ f ∈ fields, '/' ∉ f) {q : String}
    (hq : q ∈ (upwardOf fields).head?) :
    namesOf q.toList ≠ [] ∧ ∃ tail, (tail = [] ∨ tail.head? = some '/') ∧
      ['/'].intercalate fields.reverse = q.toList ++ tail := by
  induction fields with
  | nil => cases hq
  | cons field above ih =>
    rw [upwardOf] at hq
    split at hq
    next hskip =>
      -- no text ends with this field, so the first one ends with a field above it
      obtain ⟨hnames, tail, htail, heq⟩ := ih (fun f hf => hslash f (List.mem_cons_of_mem _ hf)) hq
      have habove : above.reverse ≠ [] := by
        intro hnil
        rw [List.reverse_eq_nil_iff.1 hnil] at hq
        cases hq
      refine ⟨hnames, tail ++ '/' :: field, .inr ?_, ?_⟩
      · rcases htail with rfl | htail
        · rfl
        · rw [List.head?_append, htail]
          rfl
      · rw [List.reverse_cons, Text.intercalate_concat _ habove, heq, List.append_assoc]
    next hkeep =>
      cases hq
      have hfield : namesOf field ≠ [] := by
        rw [namesOf_field (hslash field List.mem_cons_self) fun hnil => hkeep (.inl hnil)]
        exact List.cons_ne_nil _ _
      refine ⟨?_, [], .inl rfl, by simp⟩
      rw [String.toList_ofList, List.reverse_cons]
      by_cases habove : above.reverse = []
      · rw [habove]
        simpa using hfield
      · rw [Text.intercalate_concat _ habove, namesOf_append_slash]
        exact List.append_ne_nil_of_right_ne_nil _ hfield

theorem isChain_upwardOf {fields : List (List Char)} (hslash : ∀ f ∈ fields, '/' ∉ f) :
    (upwardOf fields).IsChain fun inner outer => Around outer inner := by
  induction fields with
  | nil => exact .nil
  | cons field above ih =>
    have habove : ∀ f ∈ above, '/' ∉ f := fun f hf => hslash f (List.mem_cons_of_mem _ hf)
    rw [upwardOf]
    split
    next => exact ih habove
    next hkeep =>
      refine List.isChain_cons.2 ⟨fun q hq => ?_, ih habove⟩
      obtain ⟨hnames, tail, htail, heq⟩ := head_upwardOf habove hq
      have hne : above.reverse ≠ [] := by
        intro hnil
        rw [List.reverse_eq_nil_iff.1 hnil] at hq
        cases hq
      have hfield : namesOf field ≠ [] := by
        rw [namesOf_field (hslash field List.mem_cons_self) fun hnil => hkeep (.inl hnil)]
        exact List.cons_ne_nil _ _
      have hinner : (String.ofList (['/'].intercalate (field :: above).reverse)).toList =
          q.toList ++ (tail ++ '/' :: field) := by
        rw [String.toList_ofList, List.reverse_cons, Text.intercalate_concat _ hne, heq,
          List.append_assoc]
      cases tail with
      | nil => exact ⟨field, hinner, hnames, hfield⟩
      | cons c tail =>
        obtain rfl : c = '/' := by simpa using htail
        refine ⟨tail ++ '/' :: field, hinner, hnames, ?_⟩
        rw [namesOf_append_slash]
        exact List.append_ne_nil_of_right_ne_nil _ hfield

theorem isChain_upward (text : String) :
    (upward text).IsChain fun inner outer => Around outer inner :=
  isChain_upwardOf fun _ hf => Text.not_mem_of_mem_splitOn (List.mem_reverse.1 hf)

/-- A path with a name of its own at its end comes first on its way up. -/
theorem head?_upward {text : String} (hplain : (ofText text).trailing = false)
    {name : String} (hlast : (ofText text).names.getLast? = some name) (hdot : name ≠ ".") :
    (upward text).head? = some text := by
  have hnil : '/' ∉ ([] : List Char) := List.not_mem_nil
  obtain ⟨before, last, hsplit, -, hempty⟩ := Text.splitOn_append hnil text.toList
  have hlastne : last ≠ [] := by
    intro hnil
    rcases hempty hnil with htext | hend
    · simp [ofText, htext, Text.splitOn] at hlast
    · simp [ofText, hend] at hplain
  have hname : String.ofList last = name := by
    simpa [ofText, hsplit, List.filter_append, hlastne] using hlast
  have hlastdot : last ≠ ['.'] := by
    rintro rfl
    exact hdot hname.symm
  have htext : String.ofList (['/'].intercalate (before ++ [last])) = text := by
    rw [← hsplit, Text.intercalate_splitOn, String.ofList_toList]
  rw [upward, hsplit, List.reverse_concat, upwardOf,
    if_neg (not_or.2 ⟨hlastne, hlastdot⟩), List.reverse_cons, List.reverse_reverse, htext]
  rfl

theorem around_of_mem_upward {text : String} (hhead : (upward text).head? = some text) :
    ∀ outer ∈ (upward text).drop 1, Around outer text := by
  have htrans : IsTrans String fun inner outer => Around outer inner :=
    ⟨fun _ _ _ h h' => h'.trans h⟩
  have hpairwise := List.isChain_iff_pairwise.1 (isChain_upward text)
  cases hpaths : upward text with
  | nil => simp [hpaths] at hhead
  | cons first around =>
    rw [hpaths] at hhead hpairwise
    obtain rfl : first = text := Option.some.inj hhead
    exact (List.pairwise_cons.1 hpairwise).1

end Path

/-! ## Directories on the way -/

namespace Files

open ItemGuard.Storage.Path (Around)

variable {fs fs' : Files} {outer inner : String}

theorem isDirectory_of_walk (h : Around outer inner)
    (hcheck : checkPath (.ofText inner) = .ok ()) {more : List String} {dir : Location}
    (hwalk : fs.walk (fs.start (.ofText inner)) ((Path.ofText outer).names ++ more) = .ok dir)
    (hdir : fs.node? dir = some .directory) : fs.isDirectory (.ofText outer) = true := by
  rw [walk_append] at hwalk
  cases houter : fs.walk (fs.start (.ofText inner)) (Path.ofText outer).names with
  | error e => simp [houter, Except.bind] at hwalk
  | ok loc =>
    rw [houter] at hwalk
    have hstart : fs.start (.ofText outer) = fs.start (.ofText inner) := by
      unfold start
      rw [h.rooted_eq]
    refine isDirectory_iff.2 ⟨loc, find_eq_ok_iff.2
      ⟨h.checkPath_outer hcheck, ?_, node?_of_walk hwalk hdir, .inl rfl⟩⟩
    rw [hstart, houter]

theorem isDirectory_around (h : Around outer inner)
    (hdir : fs.isDirectory (.ofText inner) = true) : fs.isDirectory (.ofText outer) = true := by
  obtain ⟨loc, hloc⟩ := isDirectory_iff.1 hdir
  obtain ⟨hcheck, hwalk, hnode, -⟩ := find_eq_ok_iff.1 hloc
  obtain ⟨more, -, hnames⟩ := h.names_eq
  rw [hnames] at hwalk
  exact isDirectory_of_walk h hcheck hwalk hnode

theorem isDirectory_around_of_placeOf (h : Around outer inner) {dir : Location} {name : String}
    (hplace : fs.placeOf (.ofText inner) = .ok (.entry dir name)) :
    fs.isDirectory (.ofText outer) = true := by
  obtain ⟨hcheck, -, -, -, hwalk, hdir⟩ := placeOf_eq_entry_iff.1 hplace
  obtain ⟨more, hmore, hnames⟩ := h.names_eq
  rw [hnames, List.dropLast_append_of_ne_nil hmore] at hwalk
  exact isDirectory_of_walk h hcheck hwalk hdir

theorem Names.head?_upward {path : String} {loc : Location} (h : fs.Names path loc) :
    (Path.upward path).head? = some path := by
  obtain ⟨dir, name, hplace, -, -, hplain⟩ := h
  obtain ⟨-, hlast, hdot, -⟩ := placeOf_eq_entry_iff.1 hplace
  exact Path.head?_upward hplain hlast hdot

/-- The directory around an entry is there. -/
theorem Names.hasParent {path : String} {loc : Location} (h : fs.Names path loc) :
    fs.HasParent path := by
  intro parent hparent
  have haround := Path.around_of_mem_upward h.head?_upward parent (List.mem_of_head? hparent)
  obtain ⟨dir, name, hplace, -⟩ := h
  exact isDirectory_around_of_placeOf haround hplace

/-! ## What is made

The directories that are made for a path which does not climb lie on its way.
-/

theorem eq_placeBelow_of_placeOf {path name : String} {dir : Location}
    (hdots : ".." ∉ (Path.ofText path).names)
    (hplace : fs.placeOf (.ofText path) = .ok (.entry dir name)) :
    dir ++ [name] = fs.placeBelow (.ofText path) := by
  obtain ⟨-, hlast, hdot, -, hwalk, -⟩ := placeOf_eq_entry_iff.1 hplace
  obtain ⟨around, hnames⟩ := List.getLast?_eq_some_iff.1 hlast
  rw [hnames, List.dropLast_concat] at hwalk
  have haround : ".." ∉ around := fun hmem => hdots (hnames ▸ List.mem_append_left _ hmem)
  rw [eq_append_of_walk haround hwalk, placeBelow, hnames, List.filter_append]
  simp [hdot]

theorem node?_makeParents (fs : Files) {path : String} (hdots : ".." ∉ (Path.ofText path).names)
    (hhead : (Path.upward path).head? = some path) (l : Location) :
    (fs.makeParents path).2.node? l = fs.node? l ∨
      ∃ outer, Around outer path ∧ l = fs.placeBelow (.ofText outer) := by
  refine (makeDirectories_induct (P := fun made => made.cwd = fs.cwd ∧ ∀ l,
    made.node? l = fs.node? l ∨ ∃ outer, Around outer path ∧ l = fs.placeBelow (.ofText outer))
    ?_ ⟨rfl, fun _ => .inl rfl⟩).2 l
  intro made outer made' hmem ⟨hcwd, hnode⟩ hmake
  have haround := Path.around_of_mem_upward hhead outer hmem
  obtain ⟨more, -, hnames⟩ := haround.names_eq
  have hdots' : ".." ∉ (Path.ofText outer).names :=
    fun hmem => hdots (hnames ▸ List.mem_append_left _ hmem)
  obtain ⟨dir, name, hplace, -, -, rfl⟩ := makeDirectory_eq_ok_iff.1 hmake
  refine ⟨hcwd, fun l => ?_⟩
  rw [node?_setNode (by simp)]
  split
  next heq =>
    refine .inr ⟨outer, haround, ?_⟩
    rw [heq, eq_placeBelow_of_placeOf hdots' hplace, placeBelow, placeBelow, start, start, hcwd]
  next => exact hnode l

/-! ## Trying again -/

/-- The directory is missing and cannot be made. -/
def Blocked (fs : Files) (path : String) : Prop :=
  fs.isDirectory (.ofText path) = false ∧ ∀ made, fs.makeDirectory (.ofText path) ≠ .ok made

theorem Blocked.of_around (haround : Around outer inner) (h : fs.Blocked outer) :
    fs.Blocked inner := by
  refine ⟨Bool.eq_false_iff.2 fun hdir => ?_, fun made hmake => ?_⟩
  · exact Bool.eq_false_iff.1 h.1 (isDirectory_around haround hdir)
  · obtain ⟨dir, name, hplace, -⟩ := makeDirectory_eq_ok_iff.1 hmake
    exact Bool.eq_false_iff.1 h.1 (isDirectory_around_of_placeOf haround hplace)

theorem blocked_of_ensureDirectory {path : String} {e : Failure}
    (h : fs.ensureDirectory (.ofText path) = .error e) : fs.Blocked path := by
  unfold ensureDirectory at h
  cases hmake : fs.makeDirectory (.ofText path) with
  | ok made => simp [hmake] at h
  | error e' =>
    cases hdir : fs.isDirectory (.ofText path) with
    | true => simp [hmake, hdir] at h
    | false =>
      refine ⟨hdir, fun made hok => ?_⟩
      rw [hmake] at hok
      cases hok

/-- To try changes nothing, if that is so for the directories around where they are tried. -/
theorem Blocked.makeDirectories {path : String} {around : List String} (h : fs.Blocked path)
    (haround : ∀ e, fs.makeDirectory (.ofText path) = .error e → e.kind = .notFound →
      (fs.makeDirectories around).2 = fs) :
    ∃ e, fs.makeDirectories (path :: around) = (.error e, fs) := by
  unfold Files.makeDirectories
  dsimp only
  cases hfirst : fs.makeDirectory (.ofText path) with
  | ok made => exact absurd hfirst (h.2 made)
  | error e =>
    dsimp only
    split
    next hkind =>
      cases hrest : fs.makeDirectories around with
      | mk result fs' =>
        obtain rfl : fs' = fs := (congrArg Prod.snd hrest).symm.trans (haround e hfirst hkind)
        cases result with
        | error e' => exact ⟨e', rfl⟩
        | ok _ => exact ⟨e, by simp [attempt, ensureDirectory, hfirst, h.1]⟩
    next => exact ⟨e, by simp [h.1]⟩

/-- Why directories could not be made: the first one could not and was not there to begin with, or
those around it could not be made, or they were made and it still could not. -/
theorem makeDirectories_cons_eq_error {path : String} {around : List String} {e : Failure}
    (h : fs.makeDirectories (path :: around) = (.error e, fs')) :
    (fs' = fs ∧ fs.Blocked path ∧
        ∃ e₁, fs.makeDirectory (.ofText path) = .error e₁ ∧ e₁.kind ≠ .notFound) ∨
      (∃ e₁, fs.makeDirectories around = (.error e₁, fs')) ∨
      fs.makeDirectories around = (.ok (), fs') ∧ fs'.Blocked path := by
  unfold Files.makeDirectories at h
  dsimp only at h
  split at h
  · cases h
  next e₁ hfirst =>
    split at h
    next =>
      split at h
      next hrest =>
        cases h
        exact .inr (.inl ⟨_, hrest⟩)
      next hrest =>
        unfold attempt at h
        dsimp only at h
        split at h
        · cases h
        next hensure =>
          cases h
          exact .inr (.inr ⟨hrest, blocked_of_ensureDirectory hensure⟩)
    next hkind =>
      cases hdir : fs.isDirectory (.ofText path) with
      | true => simp [hdir] at h
      | false =>
        simp only [hdir] at h
        cases h
        refine .inl ⟨rfl, ⟨hdir, fun made hok => ?_⟩, e, hfirst, hkind⟩
        rw [hfirst] at hok
        cases hok

/-- Where directories could not be made, the innermost one is missing, and a second try changes
nothing. -/
theorem makeDirectories_again {paths : List String} {e : Failure}
    (hchain : paths.IsChain fun inner outer => Around outer inner)
    (h : fs.makeDirectories paths = (.error e, fs')) :
    (∀ p ∈ paths.head?, fs'.Blocked p) ∧ ∃ e', fs'.makeDirectories paths = (.error e', fs') := by
  induction paths generalizing e with
  | nil => cases h
  | cons path around ih =>
    obtain ⟨hhead, htail⟩ := List.isChain_cons.1 hchain
    -- that a second try changes nothing around the path matters only if it comes to that
    suffices hblocked : fs'.Blocked path ∧
        ∀ e, fs'.makeDirectory (.ofText path) = .error e → e.kind = .notFound →
          (fs'.makeDirectories around).2 = fs' by
      refine ⟨?_, hblocked.1.makeDirectories hblocked.2⟩
      rintro p ⟨⟩
      exact hblocked.1
    rcases makeDirectories_cons_eq_error h with
      ⟨rfl, hblocked, e₁, hfirst, hkind⟩ | ⟨e₁, hrest⟩ | ⟨hrest, hblocked⟩
    · refine ⟨hblocked, fun e' he' hkind' => ?_⟩
      rw [hfirst] at he'
      cases he'
      exact absurd hkind' hkind
    · obtain ⟨houter, e₂, hagain⟩ := ih htail hrest
      refine ⟨?_, fun _ _ _ => congrArg Prod.snd hagain⟩
      cases around with
      | nil => cases hrest
      | cons outer further => exact (houter outer rfl).of_around (hhead outer rfl)
    · have hthere : ∀ p ∈ around.head?, fs'.isDirectory (.ofText p) = true := by
        cases around with
        | nil => exact fun p hp => nomatch hp
        | cons outer further =>
          rintro p ⟨⟩
          exact isDirectory_of_makeDirectories hrest
      exact ⟨hblocked, fun _ _ _ => congrArg Prod.snd (makeDirectories_of_isDirectory hthere)⟩

theorem makeParents_again {path : String} {e : Failure}
    (h : fs.makeParents path = (.error e, fs')) :
    ∃ e', fs'.makeParents path = (.error e', fs') :=
  (makeDirectories_again ((Path.isChain_upward path).drop 1) h).2

end Files
end ItemGuard.Storage
