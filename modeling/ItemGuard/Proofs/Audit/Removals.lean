import ItemGuard.Proofs.Audit.Framing
import ItemGuard.Proofs.Audit.Reopening
import ItemGuard.Proofs.Audit.Sizes

/-!
# Logs whose files are removed

Files of a log may be removed while it is in use. A log whose active file is gone writes on, into a
file that has no name any more, and makes a new one when it rolls over (`Loose`). So no write fails,
and what the files of the log hold is always some of the records in the order in which they were
written (`writes_despite_removals`).
-/

namespace ItemGuard

namespace Storage.Files

theorem nothing_of_pathExists {fs : Files} {path : String} (h : fs.pathExists path = false) :
    fs.isDirectory (.ofText path) = false ∧ fs.contentOf path = [] := by
  unfold pathExists at h
  unfold isDirectory contentOf readBytes
  split at h
  · cases h
  next hfind => exact ⟨by rw [hfind], by rw [hfind]; rfl⟩

end Storage.Files

namespace Audit

open Storage (Files Location Path)
open RollingLog (lineBytes rolledPath)
open Text (utf8)

variable {log : RollingLog} {fs fs' : Files} {loc : Nat → Location} {path : String} {count : Nat}

theorem rolledPath_mem_paths {k : Nat} (hpos : 1 ≤ k) (hlt : k < count) :
    rolledPath path k ∈ paths path count := by
  obtain ⟨k, rfl⟩ := Nat.exists_eq_add_of_le' hpos
  refine List.mem_append_left _ (List.mem_map.2 ⟨k, ?_, rfl⟩)
  exact List.mem_reverse.2 (List.mem_range.2 (Nat.lt_sub_of_add_lt hlt))

/-! ## What is left of the records -/

/-- Each content is the text of some records, and these are, from the first content to the last,
some of the given ones in their order. -/
def Preserves (records : List Record) (held : List Bytes) : Prop :=
  ∃ groups : List (List Record), held = groups.map (fun group => utf8 (linesText group)) ∧
    groups.flatten.Sublist records

theorem utf8_linesText_concat (group : List Record) (r : Record) :
    utf8 (linesText (group ++ [r])) = utf8 (linesText group) ++ lineBytes r.json := by
  rw [utf8_linesText, utf8_linesText, List.flatMap_append, List.flatMap_singleton]

namespace Preserves

variable {records : List Record} {held held' : List Bytes}

theorem of_empty (h : ∀ bytes ∈ held, bytes = []) : Preserves [] held := by
  refine ⟨held.map fun _ => [], ?_, by simp⟩
  rw [List.map_map]
  refine (List.map_id held).symm.trans (List.map_congr_left fun bytes hbytes => ?_)
  rw [id_eq, h bytes hbytes, Function.comp_apply, utf8_linesText]
  rfl

theorem concat (h : Preserves records held) (r : Record) : Preserves (records ++ [r]) held := by
  obtain ⟨groups, hheld, hgroups⟩ := h
  exact ⟨groups, hheld, hgroups.trans (List.sublist_append_left _ _)⟩

theorem adds {r : Record} (h : Preserves records held)
    (hadds : Adds (lineBytes r.json) held held') : Preserves (records ++ [r]) held' := by
  obtain ⟨groups, rfl, hgroups⟩ := h
  -- the record joins the newest group, or it is a group of its own and the oldest one is lost
  rcases hadds with ⟨before, active, hheld, rfl⟩ | rfl
  · obtain ⟨older, newest, rfl, rfl, hactive⟩ := List.map_eq_append_iff.1 hheld
    obtain ⟨group, rfl, rfl⟩ := List.map_eq_singleton_iff.1 hactive
    refine ⟨older ++ [group ++ [r]], ?_, ?_⟩
    · rw [List.map_append, List.map_singleton, utf8_linesText_concat]
    · rw [List.flatten_concat] at hgroups ⊢
      rw [← List.append_assoc]
      exact hgroups.append (List.Sublist.refl _)
  · refine ⟨groups.tail ++ [[r]], ?_, ?_⟩
    · rw [List.map_append, List.map_tail, List.map_singleton, utf8_linesText]
      simp
    · have htail : groups.tail.flatten.Sublist groups.flatten := by
        cases groups with
        | nil => exact List.Sublist.refl _
        | cons group groups => exact List.sublist_append_right _ _
      rw [List.flatten_concat]
      exact (htail.trans hgroups).append (List.Sublist.refl _)

/-- Contents may be lost. -/
theorem lose (h : Preserves records held)
    (hlost : List.Forall₂ (fun old new => new = old ∨ new = []) held held') :
    Preserves records held' := by
  obtain ⟨groups, rfl, hgroups⟩ := h
  suffices ∃ groups' : List (List Record),
      held' = groups'.map (fun group => utf8 (linesText group)) ∧
        groups'.flatten.Sublist groups.flatten by
    obtain ⟨groups', hheld, hsublist⟩ := this
    exact ⟨groups', hheld, hsublist.trans hgroups⟩
  clear hgroups
  induction groups generalizing held' with
  | nil =>
    cases hlost
    exact ⟨[], rfl, List.Sublist.refl _⟩
  | cons group groups ih =>
    rw [List.map_cons] at hlost
    cases hlost with
    | @cons _ new _ rest hnew hrest =>
      obtain ⟨groups', rfl, hsublist⟩ := ih hrest
      rcases hnew with rfl | rfl
      · exact ⟨group :: groups', rfl, (List.Sublist.refl group).append hsublist⟩
      · exact ⟨[] :: groups', rfl, hsublist.trans (List.sublist_append_right _ _)⟩

end Preserves

/-! ## Logs without their file -/

/-- The log writes at the end of its file, which is the active one or has no name any more. -/
structure Loose (log : RollingLog) (loc : Nat → Location) (fs : Files) : Prop where
  layout : Layout log.path log.count loc fs
  tracks : Tracks log fs
  file : fs.node? (loc 0) = some (.file log.handle.file) ∨
    fs.node? (loc 0) = none ∧ ∀ l, fs.node? l ≠ some (.file log.handle.file)

theorem Active.loose (h : Active log loc fs) : Loose log loc fs :=
  ⟨h.layout, h.attached.tracks, .inl h.file⟩

namespace Loose

theorem put (h : Loose log loc fs) (bytes : Bytes) :
    Loose (log.put bytes fs).1 loc (log.put bytes fs).2 := by
  refine ⟨?_, h.tracks.put bytes, ?_⟩
  · rw [h.tracks.put_eq]
    exact h.layout.setContent _ _
  · rw [h.tracks.put_eq]
    dsimp only
    rw [file_advance]
    exact h.file

/-- A line goes to the end of the active file, or it is lost. -/
theorem contents_put (h : Loose log loc fs) (bytes : Bytes) :
    Adds bytes (contents log.path log.count fs)
        (contents log.path log.count (log.put bytes fs).2) ∨
      contents log.path log.count (log.put bytes fs).2 = contents log.path log.count fs := by
  rcases h.file with hfile | ⟨-, hnone⟩
  · have hactive : Active log loc fs := ⟨h.layout, hfile, h.tracks.atEnd, h.tracks.written⟩
    exact .inl (hactive.adds_put bytes)
  -- only the content of a file changes that no entry leads to
  · have hput : Layout log.path log.count loc (log.put bytes fs).2 := (h.put bytes).layout
    refine .inr ?_
    rw [contents_eq hput, contents_eq h.layout, h.tracks.put_eq]
    simp only [Files.contentAt_setContent_of_no_entry hnone]

theorem append (h : Loose log loc fs) (line : String) :
    Loose (appended log loc line fs).1 loc (appended log loc line fs).2 := by
  unfold appended
  split
  · exact ((active_rotated h.layout).put _).loose
  · exact h.put _

theorem contents_appended (h : Loose log loc fs) (line : String) :
    Adds (lineBytes line) (contents log.path log.count fs)
        (contents log.path log.count (appended log loc line fs).2) ∨
      contents log.path log.count (appended log loc line fs).2 =
        contents log.path log.count fs := by
  unfold appended
  split
  · exact .inl (.inr (contents_rotated h.layout _))
  · exact h.contents_put _

section Erase

variable {l : Location} {id : Nat} (h : Loose log loc fs) (hfile : fs.node? l = some (.file id))
include h hfile

theorem eraseNode : Loose log loc (fs.eraseNode l) := by
  have hne : l ≠ [] := by
    rintro rfl
    cases hfile
  have hplain : fs.node? l ≠ some .directory := by simp [hfile]
  have hnode : ∀ l', (fs.eraseNode l).node? l' = if l' = l then none else fs.node? l' :=
    Files.node?_eraseNode hne
  refine ⟨?_, h.tracks.of_contents rfl, ?_⟩
  · refine h.layout.change (h.layout.wellFormed.eraseNode hfile) (.eraseNode hplain hne) ?_
    intro k hk
    rw [hnode]
    split
    · exact (Option.some_ne_none _).symm
    · exact h.layout.regular k hk
  · rcases h.file with hactive | ⟨hnone, hlost⟩
    · by_cases heq : loc 0 = l
      -- the active file goes, and its entry was the only one
      · subst heq
        refine .inr ⟨by rw [hnode, if_pos rfl], fun l' hl' => ?_⟩
        rw [hnode] at hl'
        split at hl'
        · cases hl'
        next hne' => exact hne' (h.layout.wellFormed.unlinked hl' hactive)
      · exact .inl (by rw [hnode, if_neg heq, hactive])
    · refine .inr ⟨?_, fun l' hl' => ?_⟩
      · rw [hnode, hnone, ite_self]
      · rw [hnode] at hl'
        split at hl'
        · cases hl'
        · exact hlost l' hl'

theorem contents_eraseNode :
    List.Forall₂ (fun old new => new = old ∨ new = []) (contents log.path log.count fs)
      (contents log.path log.count (fs.eraseNode l)) := by
  have hne : l ≠ [] := by
    rintro rfl
    cases hfile
  have herased : Layout log.path log.count loc (fs.eraseNode l) := (h.eraseNode hfile).layout
  unfold contents
  rw [List.forall₂_map_left_iff, List.forall₂_map_right_iff, List.forall₂_same]
  intro p hp
  obtain ⟨k, hk, rfl⟩ := exists_numbered_of_mem_paths hp
  rw [(h.layout.names k hk).contentOf_eq, (herased.names k hk).contentOf_eq,
    Files.contentAt_eraseNode hne]
  split
  · exact .inr rfl
  · exact .inl rfl

end Erase
end Loose

/-! ## Runs with removals -/

/-- Removes the file of a path, if that can be done. -/
def removing (path : String) (fs : Files) : Files :=
  match fs.removeFile path with
  | .ok fs => fs
  | .error _ => fs

/-- A logger writes a record, or someone removes a file. -/
inductive Turn where
  | write (record : Record)
  | remove (path : String)

namespace Turn

def happening : Turn → Happening
  | write r => .step (.write r)
  | remove path => .outside (removing path)

def record? : Turn → Option Record
  | write r => some r
  | remove _ => none

end Turn

namespace Logger

variable {s : AuditSettings} {env : Environment} {l : Logger} {r : Record}

/-- After a rotation the record is all that is in the active file. -/
theorem readBytes_of_rotates (hfile : l.file = some log) (h : Rotates l r fs) :
    (l.write r fs).files.readBytes log.path = .ok (lineBytes r.json) := by
  obtain ⟨log', rolled, files, hfile', hrotate, happend⟩ := h
  obtain rfl : log = log' := Option.some.inj (hfile.symm.trans hfile')
  obtain ⟨l', hattached⟩ := attached_of_rotate hrotate
  have hput := hattached.put (lineBytes r.json)
  have hpath : (rolled.put (lineBytes r.json) files).1.path = log.path := by
    obtain ⟨_, _, -, -, -, rfl, -⟩ := rotate_eq_ok hrotate
    rfl
  have hsame : (rolled.put (lineBytes r.json) files).1.handle.file = rolled.handle.file := by
    rw [hattached.tracks.put_eq, file_advance]
  rw [write_of_append hfile happend, ← hpath, hput.readBytes_eq, hattached.tracks.content_put,
    if_pos hsame, hsame, content_of_rotate hrotate, if_pos rfl, List.nil_append]

/-- The log of the settings is open, though its file may be gone, and its files hold some of the
records. -/
structure Survives (s : AuditSettings) (path : String) (loc : Nat → Location)
    (records : List Record) (state : Logger × Files) : Prop where
  loose : ∃ log, state.1.file = some log ∧ OfSettings s path log ∧ Loose log loc state.2
  preserves : Preserves records (contents path s.fileCount state.2)

namespace Survives

variable {records : List Record}

theorem write (h : Survives s path loc records (l, fs)) (r : Record) :
    (l.write r fs).result = .ok () ∧
      Survives s path loc (records ++ [r]) ((l.write r fs).sink, (l.write r fs).files) := by
  obtain ⟨⟨log, hfile, ⟨rfl, hlimit, hcount⟩, hloose⟩, hpreserves⟩ := h
  have happend := hloose.layout.append_eq r.json
  obtain ⟨hpath', hlimit', hcount'⟩ := appended_settings log loc r.json fs
  rw [write_of_append hfile happend]
  refine ⟨rfl, ⟨_, rfl, ⟨hpath', hlimit'.trans hlimit, hcount'.trans hcount⟩,
    hloose.append r.json⟩, ?_⟩
  have hcontents := hloose.contents_appended r.json
  rw [hcount] at hcontents
  rcases hcontents with hadds | hsame
  · exact hpreserves.adds hadds
  · change Preserves _ (contents log.path s.fileCount (appended log loc r.json fs).2)
    rw [hsame]
    exact hpreserves.concat r

theorem remove (h : Survives s path loc records (l, fs)) (p : String) :
    Survives s path loc records (l, removing p fs) := by
  unfold removing
  split
  next fs' hremove =>
    obtain ⟨l', id, hnode, rfl⟩ := Files.removeFile_eq_ok hremove
    obtain ⟨⟨log, hfile, hsettings, hloose⟩, hpreserves⟩ := h
    have hlost := hloose.contents_eraseNode hnode
    rw [hsettings.1, hsettings.2.2] at hlost
    exact ⟨⟨log, hfile, hsettings, hloose.eraseNode hnode⟩, hpreserves.lose hlost⟩
  next => exact h

theorem run {state : Logger × Files} (h : Survives s path loc records state) (turns : List Turn) :
    (∀ w ∈ results s env state (turns.map Turn.happening), w.result = .ok ()) ∧
      Survives s path loc (records ++ turns.filterMap Turn.record?)
        (afterwards s env state (turns.map Turn.happening)) := by
  induction turns generalizing records state with
  | nil =>
    rw [List.filterMap_nil, List.append_nil]
    exact ⟨fun w hw => absurd hw List.not_mem_nil, h⟩
  | cons turn turns ih =>
    obtain ⟨l, fs⟩ := state
    cases turn with
    | write r =>
      obtain ⟨hresult, hwritten⟩ := h.write r
      obtain ⟨hresults, hrest⟩ := ih hwritten
      have hrecords : records ++ (Turn.write r :: turns).filterMap Turn.record? =
          records ++ [r] ++ turns.filterMap Turn.record? := by simp [Turn.record?]
      rw [hrecords]
      refine ⟨fun w hw => ?_, hrest⟩
      rcases List.mem_cons.1 hw with rfl | hw
      · exact hresult
      · exact hresults w hw
    | remove p => exact ih (h.remove p)

end Survives

theorem survives_opening {start : Files} (hwf : start.WellFormed)
    (hpath : s.filePath env = some path) (hopen : (opening s env start).1.file.isSome = true)
    (hfits : ∀ k, 1 ≤ k → k < s.fileCount → (Path.ofText (rolledPath path k)).Fits)
    (hregular : ∀ k, 1 ≤ k → k < s.fileCount →
      (opening s env start).2.isDirectory (.ofText (rolledPath path k)) = false)
    (hempty : ∀ p ∈ paths path s.fileCount, (opening s env start).2.contentOf p = []) :
    ∃ loc, Survives s path loc [] (opening s env start) := by
  obtain ⟨loc, ⟨log, hfile, hlogpath, hlimit, hcount, hactive⟩, -⟩ :=
    opened_opening hwf hpath hopen hfits hregular
  refine ⟨loc, ⟨log, hfile, ⟨hlogpath, hlimit, hcount⟩, hactive.loose⟩, .of_empty fun bytes h => ?_⟩
  obtain ⟨p, hp, rfl⟩ := List.mem_map.1 h
  exact hempty p hp

/-- **Removals.** Let the log of the settings be opened, with short enough paths for all its files
and nothing in the place of one that is a directory or has content. However its files are removed
between the writes, every write succeeds, and what the files hold in order are whole lines: those of
some of the records so far, each at most once and in the order in which they were written. After a
write that rolls the log over, the active file holds its record and nothing else. -/
theorem writes_despite_removals (s : AuditSettings) (env : Environment) (start : Files)
    (path : String) (hwf : start.WellFormed) (hpath : s.filePath env = some path)
    (hopen : (opening s env start).1.file.isSome = true)
    (hfits : ∀ k, 1 ≤ k → k < s.fileCount → (Path.ofText (rolledPath path k)).Fits)
    (hregular : ∀ k, 1 ≤ k → k < s.fileCount →
      (opening s env start).2.isDirectory (.ofText (rolledPath path k)) = false)
    (hempty : ∀ p ∈ paths path s.fileCount, (opening s env start).2.contentOf p = [])
    (turns : List Turn) :
    let first := opening s env start
    let state := afterwards s env first (turns.map Turn.happening)
    (∀ w ∈ results s env first (turns.map Turn.happening), w.result = .ok ()) ∧
    (∃ groups : List (List Record),
      contents path s.fileCount state.2 = groups.map (fun group => utf8 (linesText group)) ∧
      groups.flatten.Sublist (turns.filterMap Turn.record?)) ∧
    ∀ r, (state.1.write r state.2).result = .ok () ∧
      (Rotates state.1 r state.2 →
        (state.1.write r state.2).files.readBytes path = .ok (lineBytes r.json)) := by
  intro first state
  obtain ⟨loc, hfirst⟩ := survives_opening hwf hpath hopen hfits hregular hempty
  obtain ⟨hresults, hstate⟩ := hfirst.run turns
  rw [List.nil_append] at hstate
  refine ⟨hresults, hstate.preserves, fun r => ⟨(hstate.write r).1, fun hrotates => ?_⟩⟩
  obtain ⟨log, hfile, ⟨hlogpath, -, -⟩, -⟩ := hstate.loose
  rw [← hlogpath]
  exact readBytes_of_rotates hfile hrotates

/-- Where the path does not climb, it is enough that none of the files is there before the log is
opened. -/
theorem fresh_opening {start : Files} (hwf : start.WellFormed)
    (hpath : s.filePath env = some path) (hopen : (opening s env start).1.file.isSome = true)
    (hfits : ∀ k, 1 ≤ k → k < s.fileCount → (Path.ofText (rolledPath path k)).Fits)
    (hdots : ".." ∉ (Path.ofText path).names)
    (hmissing : ∀ p ∈ paths path s.fileCount, start.pathExists p = false) :
    (∀ k, 1 ≤ k → k < s.fileCount →
      (opening s env start).2.isDirectory (.ofText (rolledPath path k)) = false) ∧
    ∀ p ∈ paths path s.fileCount, (opening s env start).2.contentOf p = [] := by
  have hregular : ∀ k, 1 ≤ k → k < s.fileCount →
      (opening s env start).2.isDirectory (.ofText (rolledPath path k)) = false := by
    obtain ⟨log, -, ⟨hlog, ⟨rfl, -, hcount⟩, -⟩, -⟩ := running_opening hpath hopen
    rw [← hcount] at hmissing ⊢
    refine regular_opening hwf hpath hdots (fun k hpos hlt => ?_) log hlog
    exact (Files.nothing_of_pathExists (hmissing _ (rolledPath_mem_paths hpos (hcount ▸ hlt)))).1
  obtain ⟨_, -, hfirst, hstart⟩ := opened_opening hwf hpath hopen hfits hregular
  refine ⟨hregular, fun p hp => ?_⟩
  rw [List.map_inj_left.1 (hfirst.trans (hstart (.inl hdots)).symm) p hp]
  exact (Files.nothing_of_pathExists (hmissing p hp)).2

/-- A log of three files of at most one line each, in an empty directory. A numbered file is removed
and then the active one, and the log writes on. -/
theorem writes_despite_removals_gap :
    let s : AuditSettings := ⟨false, some "a.log", 1, 3⟩
    let env : Environment := ⟨none, none⟩
    let r : Record := ⟨⟨0, 0⟩, "alex", ⟨7⟩, .destroy, "no"⟩
    let turns : List Turn :=
      [.write r, .write r, .remove "a.log.1", .write r, .remove "a.log", .write r]
    ∀ w ∈ results s env (opening s env (Files.emptyAt [])) (turns.map Turn.happening),
      w.result = .ok () := by
  intro s env r turns
  have hfits : ∀ k, 1 ≤ k → k < 3 → (Path.ofText (rolledPath "a.log" k)).Fits := by
    have hall : ∀ k < 3, 1 ≤ k → (Path.ofText (rolledPath "a.log" k)).Fits := by decide +kernel
    exact fun k hpos hlt => hall k hlt hpos
  have hpath : s.filePath env = some "a.log" := by decide +kernel
  have hopen : (opening s env (Files.emptyAt [])).1.file.isSome = true := by decide +kernel
  have hdots : ".." ∉ (Path.ofText "a.log").names := by decide +kernel
  have hmissing : ∀ p ∈ paths "a.log" 3, (Files.emptyAt []).pathExists p = false := by
    decide +kernel
  have hwf := Files.wellFormed_emptyAt []
  obtain ⟨hregular, hempty⟩ := fresh_opening hwf hpath hopen hfits hdots hmissing
  exact (writes_despite_removals s env (Files.emptyAt []) "a.log" hwf hpath hopen hfits hregular
    hempty turns).1

/-- The path of this log climbs through a directory with the name of a numbered file. The rotation
before the second line moves that directory away, so the path leads nowhere. -/
theorem removals_climbing :
    let s : AuditSettings := ⟨false, some "a.log.1/../a.log", 1, 3⟩
    let env : Environment := ⟨none, none⟩
    let r : Record := ⟨⟨0, 0⟩, "alex", ⟨7⟩, .destroy, "no"⟩
    let turns : List Turn := [.write r, .write r]
    let first := opening s env (Files.emptyAt [])
    (∀ p ∈ paths "a.log.1/../a.log" 3, (Files.emptyAt []).pathExists p = false) ∧
      (results s env first (turns.map Turn.happening)).map (·.result) =
        [.ok (), .error .notFound] := by
  decide +kernel

end Logger
end Audit
end ItemGuard
