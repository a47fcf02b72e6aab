import ItemGuard.Proofs.Audit.Numbered
import ItemGuard.Proofs.Audit.Run
import Mathlib.Data.List.Induction

/-!
# The size of audit files

A log rolls over by the size that it remembers, which is the size of the active file, so the limit
holds for what is on disk (`sizes_after`): a file that the log has written is within the limit or
is a single line. Each write keeps this (`Sized.write`), because a line that would exceed the limit
is put into an empty file. Without a limit only the active file is ever written.
-/

namespace ItemGuard.Audit

open Storage (Files Location Node Path)
open RollingLog (lineBytes rolledPath)

variable {log rolled : RollingLog} {fs fs' files : Files} {line : String}

/-! ## Lines and limits -/

theorem length_lineBytes (line : String) : (lineBytes line).length = line.utf8ByteSize + 1 := by
  rw [lineBytes, List.length_append, Text.length_utf8, List.length_singleton]

theorem isFull_iff (log : RollingLog) (size : Nat) :
    log.isFull size = true ↔
      0 < log.limit ∧ 0 < log.written ∧ log.limit < log.written + size := by
  simp [RollingLog.isFull, and_assoc]

/-- After a line the active file holds the line alone if the log was full, and else what it held
before and the line. The other files stay as they are. -/
theorem Tracks.content_append {log' : RollingLog} (h : Tracks log fs)
    (happend : log.append line fs = (.ok log', fs')) (id : Nat) :
    fs'.content id =
      if id = log'.handle.file then
        if log.isFull (lineBytes line).length then lineBytes line
        else fs.content log.handle.file ++ lineBytes line
      else fs.content id := by
  rcases append_eq_ok happend with ⟨hfull, hput⟩ | ⟨rolled, files, hfull, hrotate, hput⟩
  · have hfile : log'.handle.file = log.handle.file := by
      have hlog : log' = (log.put (lineBytes line) fs).1 := congrArg Prod.fst hput
      rw [hlog, h.put_eq, file_advance]
    have hfiles : fs' = (log.put (lineBytes line) fs).2 := congrArg Prod.snd hput
    rw [hfiles, h.content_put, hfull, hfile, if_neg Bool.false_ne_true]
    split
    next heq => rw [heq]
    next => rfl
  · obtain ⟨_, hattached⟩ := attached_of_rotate hrotate
    have hfile : log'.handle.file = rolled.handle.file := by
      have hlog : log' = (rolled.put (lineBytes line) files).1 := congrArg Prod.fst hput
      rw [hlog, hattached.tracks.put_eq, file_advance]
    have hfiles : fs' = (rolled.put (lineBytes line) files).2 := congrArg Prod.snd hput
    rw [hfiles, hattached.tracks.content_put, content_of_rotate hrotate, hfull, hfile, if_pos rfl]
    split <;> rfl

/-- The active file is within the limit after a line, or it is the line. -/
theorem Tracks.length_append {log' : RollingLog} (h : Tracks log fs)
    (happend : log.append line fs = (.ok log', fs')) (hlimit : 0 < log.limit) :
    (fs'.content log'.handle.file).length ≤ log.limit ∨
      fs'.content log'.handle.file = lineBytes line := by
  rw [h.content_append happend, if_pos rfl]
  cases hfull : log.isFull (lineBytes line).length with
  | true => exact .inr rfl
  | false =>
    rw [if_neg Bool.false_ne_true, List.length_append, ← h.written]
    by_cases hwritten : log.written = 0
    · have hempty : fs.content log.handle.file = [] :=
        List.length_eq_zero_iff.1 (h.written.symm.trans hwritten)
      exact .inr (by rw [hempty, List.nil_append])
    · have hfits := (isFull_iff log (lineBytes line).length).not.1 (Bool.eq_false_iff.1 hfull)
      exact .inl (by omega)

/-- Without a limit a line changes no name, and the active file stays the same one. -/
theorem Tracks.append_unlimited {log' : RollingLog} (h : Tracks log fs)
    (happend : log.append line fs = (.ok log', fs')) (hlimit : log.limit = 0) :
    fs'.nodes = fs.nodes ∧ fs'.cwd = fs.cwd ∧ log'.handle.file = log.handle.file := by
  rcases append_eq_ok happend with ⟨-, hput⟩ | ⟨_, _, hfull, -, -⟩
  · rw [h.put_eq] at hput
    obtain ⟨rfl, rfl⟩ := Prod.mk.inj hput
    exact ⟨rfl, rfl, file_advance _ _⟩
  · have hpos := ((isFull_iff _ _).1 hfull).1
    omega

/-! ## Rotations -/

namespace Logger

variable {l : Logger} {r : Record} {s : AuditSettings} {env : Environment} {path : String}
  {loc : Location}

/-- The write of a record rolls the log over and puts the record into the new active file. -/
def Rotates (l : Logger) (r : Record) (fs : Files) : Prop :=
  ∃ log rolled files, l.file = some log ∧ log.rotate fs = (.ok rolled, files) ∧
    log.append r.json fs =
      (.ok (rolled.put (lineBytes r.json) files).1, (rolled.put (lineBytes r.json) files).2)

/-- The handle is as it was opened, or something has been written through it. -/
def Begun (log : RollingLog) : Prop :=
  log.handle.appends = true ∨ 0 < log.written

theorem begun_of_append {log' : RollingLog} (happend : log.append line fs = (.ok log', fs')) :
    Begun log' := by
  refine .inr ?_
  have hlength := length_lineBytes line
  rcases append_eq_ok happend with ⟨-, hput⟩ | ⟨rolled, files, -, -, hput⟩
  · obtain rfl : log' = (log.put (lineBytes line) fs).1 := congrArg Prod.fst hput
    change 0 < log.written + (lineBytes line).length
    omega
  · obtain rfl : log' = (rolled.put (lineBytes line) files).1 := congrArg Prod.fst hput
    change 0 < rolled.written + (lineBytes line).length
    omega

/-- The two ways in which a line is put leave logs that differ: a rotation leaves a handle of its
own, with nothing before the line. -/
theorem put_ne_put (h : Tracks log fs) (hbegun : Begun log)
    (hrotate : log.rotate fs = (.ok rolled, files)) (bytes : Bytes) :
    (log.put bytes fs).1 ≠ (rolled.put bytes files).1 := by
  obtain ⟨_, hattached⟩ := attached_of_rotate hrotate
  obtain ⟨moved, l, -, -, -, hrolled, -⟩ := rotate_eq_ok hrotate
  rw [h.put_eq, hattached.tracks.put_eq]
  intro heq
  have hwritten : log.written + bytes.length = rolled.written + bytes.length :=
    congrArg RollingLog.written heq
  have hhandle : advance log.handle bytes = advance rolled.handle bytes :=
    congrArg RollingLog.handle heq
  rw [hrolled] at hwritten hhandle
  rcases hbegun with happends | hpos
  · have hsame := congrArg Storage.Files.Handle.appends hhandle
    simp [advance, happends] at hsame
  · have hzero : (({ log with handle := ⟨(moved.openNode l).2, false, 0⟩, written := 0 } :
        RollingLog)).written = 0 := rfl
    omega

theorem rotates_iff (htracks : Tracks log fs) (hbegun : Begun log) (hfile : l.file = some log)
    (hok : (l.write r fs).result = .ok ()) :
    Rotates l r fs ↔ log.isFull (lineBytes r.json).length = true := by
  obtain ⟨log', happend, -⟩ := append_of_write hfile hok
  constructor
  · rintro ⟨log₀, rolled, files, hfile', hrotate, hrotated⟩
    obtain rfl : log = log₀ := Option.some.inj (hfile.symm.trans hfile')
    rcases append_eq_ok hrotated with ⟨-, hput⟩ | ⟨_, _, hfull, -, -⟩
    · exact absurd (congrArg Prod.fst hput).symm (put_ne_put htracks hbegun hrotate _)
    · exact hfull
  · intro hfull
    rcases append_eq_ok happend with ⟨hroom, -⟩ | ⟨rolled, files, -, hrotate, hput⟩
    · rw [hfull] at hroom
      cases hroom
    · refine ⟨log, rolled, files, hfile, hrotate, ?_⟩
      rw [happend, ← hput]

/-- What a write that succeeds makes of the active file. -/
theorem write_sizes {state : Logger × Files} (h : Running s path log loc state)
    (hbegun : Begun log) (hok : (state.1.write r state.2).result = .ok ()) :
    let old := state.2.contentOf path
    let new := (state.1.write r state.2).files.contentOf path
    (Rotates state.1 r state.2 ↔
      0 < s.fileLimit ∧ old ≠ [] ∧ s.fileLimit < old.length + (r.json.utf8ByteSize + 1)) ∧
    (Rotates state.1 r state.2 → new = lineBytes r.json) ∧
    (¬ Rotates state.1 r state.2 → new = old ++ lineBytes r.json) ∧
    (0 < s.fileLimit → new.length ≤ s.fileLimit ∨ new = lineBytes r.json) := by
  intro old new
  obtain ⟨hfile, hsettings, hattached⟩ := h
  obtain ⟨log', happend, -⟩ := append_of_write hfile hok
  obtain ⟨loc', hattached'⟩ := hattached.append happend
  have hrotates := rotates_iff hattached.tracks hbegun hfile hok
  have hold : old = state.2.content log.handle.file := by
    have hpath := hattached.contentOf_eq
    rwa [hsettings.1] at hpath
  -- the path may lead to a new file by now: that of the log after the write
  have hnew : new = (state.1.write r state.2).files.content log'.handle.file := by
    have hpath := hattached'.contentOf_eq
    rwa [(hsettings.append happend).1] at hpath
  have hcontent := hattached.tracks.content_append happend log'.handle.file
  rw [if_pos rfl, ← hnew, ← hold] at hcontent
  refine ⟨?_, fun hrotated => ?_, fun hrotated => ?_, fun hlimit => ?_⟩
  · have hsize : log.written = old.length := by rw [hold, hattached.tracks.written]
    rw [hrotates, isFull_iff, hsettings.2.1, hsize, length_lineBytes, List.length_pos_iff]
  · rw [hcontent, if_pos (hrotates.1 hrotated)]
  · rw [hcontent, if_neg (mt hrotates.2 hrotated)]
  · have hlength := hattached.tracks.length_append happend
    rw [hsettings.2.1, ← hnew] at hlength
    exact hlength hlimit

/-! ## Files that the logger has written -/

/-- One of the writes went to the file. -/
def Filled (outs : List (Written Logger)) (id : Nat) : Prop :=
  ∃ out ∈ outs, ∃ log, out.sink.file = some log ∧ log.handle.file = id

theorem filled_concat {outs : List (Written Logger)} {out : Written Logger}
    (hlog : out.sink.file = some log) (id : Nat) :
    Filled (outs ++ [out]) id ↔ Filled outs id ∨ id = log.handle.file := by
  constructor
  · rintro ⟨out', hmem, log', hlog', rfl⟩
    rcases List.mem_append.1 hmem with hmem | hmem
    · exact .inl ⟨out', hmem, log', hlog', rfl⟩
    · obtain rfl := List.mem_singleton.1 hmem
      rw [hlog] at hlog'
      cases hlog'
      exact .inr rfl
  · rintro (⟨out', hmem, hrest⟩ | rfl)
    · exact ⟨out', List.mem_append_left _ hmem, hrest⟩
    · exact ⟨out, List.mem_append_right _ (List.mem_singleton.2 rfl), log, hlog, rfl⟩

/-- What holds after steps whose writes have succeeded, for the files at first. -/
structure Sized (s : AuditSettings) (path : String) (first : Files) (steps : List LogStep)
    (outs : List (Written Logger)) (log : RollingLog) (loc : Location)
    (state : Logger × Files) : Prop where
  running : Running s path log loc state
  begun : Begun log
  bounded : 0 < s.fileLimit → ∀ id, Filled outs id →
    (state.2.content id).length ≤ s.fileLimit ∨
      ∃ r, .write r ∈ steps ∧ state.2.content id = lineBytes r.json
  kept : ∀ id, ¬ Filled outs id → state.2.content id = first.content id
  still : s.fileLimit = 0 → state.2.nodes = first.nodes ∧ state.2.cwd = first.cwd ∧
    ∀ id, Filled outs id → id = log.handle.file

namespace Sized

variable {first : Files} {steps : List LogStep} {outs : List (Written Logger)}

theorem opened {start : Files} (hpath : s.filePath env = some path)
    (hopen : (opening s env start).1.file.isSome = true) :
    ∃ log loc, Sized s path (opening s env start).2 [] [] log loc (opening s env start) := by
  obtain ⟨log, loc, hrunning, happends⟩ := running_opening hpath hopen
  have hnone : ∀ id, ¬ Filled [] id := by
    rintro id ⟨out, hmem, -⟩
    cases hmem
  exact ⟨log, loc, hrunning, .inl happends, fun _ id hid => absurd hid (hnone id),
    fun _ _ => rfl, fun _ => ⟨rfl, rfl, fun id hid => absurd hid (hnone id)⟩⟩

theorem write {l : Logger} (h : Sized s path first steps outs log loc (l, fs))
    (hok : (l.write r fs).result = .ok ()) :
    ∃ log' loc', Sized s path first (steps ++ [.write r]) (outs ++ [l.write r fs]) log' loc'
      ((l.write r fs).sink, (l.write r fs).files) := by
  obtain ⟨hfile, hsettings, hattached⟩ := h.running
  obtain ⟨log', happend, hsink⟩ := append_of_write hfile hok
  have hfile' : (l.write r fs).sink.file = some log' := by rw [hsink]
  obtain ⟨loc', hattached'⟩ := hattached.append happend
  have hcontent := hattached.tracks.content_append happend
  refine ⟨log', loc', ⟨hfile', hsettings.append happend, hattached'⟩, begun_of_append happend,
    fun hlimit id hid => ?_, fun id hid => ?_, fun hlimit => ?_⟩
  -- of the files that were written only the active one has changed
  · by_cases heq : id = log'.handle.file
    · subst heq
      have hlength := hattached.tracks.length_append happend
      rw [hsettings.2.1] at hlength
      rcases hlength hlimit with hlength | hline
      · exact .inl hlength
      · exact .inr ⟨r, List.mem_append_right _ (List.mem_singleton.2 rfl), hline⟩
    · have hid := ((filled_concat hfile' id).1 hid).resolve_right heq
      have hsame : (l.write r fs).files.content id = fs.content id := by
        rw [hcontent, if_neg heq]
      rw [hsame]
      rcases h.bounded hlimit id hid with hlength | ⟨r', hmem, hline⟩
      · exact .inl hlength
      · exact .inr ⟨r', List.mem_append_left _ hmem, hline⟩
  · have hnot := not_or.1 ((filled_concat hfile' id).not.1 hid)
    rw [hcontent, if_neg hnot.2]
    exact h.kept id hnot.1
  · obtain ⟨hnodes, hcwd, hfilled⟩ := h.still hlimit
    obtain ⟨hnodes', hcwd', hlog⟩ :=
      hattached.tracks.append_unlimited happend (hsettings.2.1.trans hlimit)
    refine ⟨hnodes'.trans hnodes, hcwd'.trans hcwd, fun id hid => ?_⟩
    rcases (filled_concat hfile' id).1 hid with hid | hid
    · exact (hfilled id hid).trans hlog.symm
    · exact hid

theorem reopen {state : Logger × Files} (hpath : s.filePath env = some path)
    (h : Sized s path first steps outs log loc state) :
    ∃ log' loc', Sized s path first (steps ++ [.reopen]) outs log' loc'
      (Logger.step s env state .reopen) := by
  obtain ⟨hrunning, hfiles⟩ := h.running.reopen hpath
  refine ⟨_, loc, hrunning, .inl rfl, fun hlimit id hid => ?_, fun id hid => ?_, fun hlimit => ?_⟩
  · rw [hfiles]
    rcases h.bounded hlimit id hid with hlength | ⟨r, hmem, hline⟩
    · exact .inl hlength
    · exact .inr ⟨r, List.mem_append_left _ hmem, hline⟩
  · rw [hfiles]
    exact h.kept id hid
  · rw [hfiles]
    exact h.still hlimit

theorem after {start : Files} (hpath : s.filePath env = some path)
    (hopen : (opening s env start).1.file.isSome = true)
    (hok : ∀ out ∈ outcomes s env (opening s env start) steps, out.result = .ok ()) :
    ∃ log loc, Sized s path (opening s env start).2 steps
      (outcomes s env (opening s env start) steps) log loc
      (Logger.after s env (opening s env start) steps) := by
  induction steps using List.reverseRecOn with
  | nil => exact opened hpath hopen
  | append_singleton steps x ih =>
    rw [outcomes_concat] at hok ⊢
    rw [after_concat]
    obtain ⟨log, loc, hsized⟩ := ih fun out hout => hok out (List.mem_append_left _ hout)
    cases x with
    | write r =>
      exact hsized.write (hok _ (List.mem_append_right _ (List.mem_singleton.2 rfl)))
    | reopen =>
      have hreopened := hsized.reopen hpath
      rwa [written?, Option.toList_none, List.append_nil]

end Sized

/-- While only the active file is written, the numbered files are as they were. -/
theorem contentOf_rolledPath_eq {first : Files} (hwf : first.WellFormed)
    (hnodes : fs.nodes = first.nodes) (hcwd : fs.cwd = first.cwd) (h : Attached log loc fs)
    (hother : ∀ id, id ≠ log.handle.file → fs.content id = first.content id) (k : Nat) :
    fs.contentOf (rolledPath log.path k) = first.contentOf (rolledPath log.path k) := by
  have hnode : ∀ l, first.node? l = fs.node? l := by
    intro l
    unfold Storage.Files.node?
    rw [hnodes]
  have hkeeps : fs.Keeps first := ⟨hcwd.symm, fun {l} hl => (hnode l).trans hl⟩
  have hactive := (hnode loc).trans h.file
  unfold Storage.Files.contentOf Storage.Files.readBytes
  rw [Storage.Files.find_congr hnodes hcwd]
  cases hfind : first.find (.ofText (rolledPath log.path k)) with
  | error e => rfl
  | ok found =>
    obtain ⟨l, node⟩ := found
    cases node with
    | directory => rfl
    | file id =>
      have hread : first.readBytes (rolledPath log.path k) = .ok (first.content id) := by
        simp [Storage.Files.readBytes, hfind, bind, Except.bind]
      obtain ⟨l', id', hnames, hfile⟩ := Storage.Files.Names.of_readBytes hwf hread
      rw [hnames.find_eq, hfile] at hfind
      cases hfind
      refine hother id fun heq => ?_
      exact ne_of_names_rolledPath (h.names.keeps hkeeps) hnames
        (hwf.unlinked hactive (heq ▸ hfile))

/-- **Sizes.** Let the log of the settings be opened, and let every write of some steps succeed.
The next write that succeeds rolls the log over exactly if there is a limit, the active file is not
empty, and the file and the line are together larger than the limit; the line is then alone in the
new active file, and at the end of the old one else. So with a limit each file that the logger has
written is within the limit or is the line of one record, and every other file holds what it held
when the log was opened. Without a limit no name has changed, and the numbered files hold what they
held. -/
theorem sizes_after (s : AuditSettings) (env : Environment) (start : Files) (path : String)
    (hwf : start.WellFormed) (hpath : s.filePath env = some path)
    (hopen : (opening s env start).1.file.isSome = true) (steps : List LogStep)
    (hok : ∀ out ∈ outcomes s env (opening s env start) steps, out.result = .ok ()) :
    let first := opening s env start
    let state := after s env first steps
    let filled := Filled (outcomes s env first steps)
    (∀ r, (state.1.write r state.2).result = .ok () →
      let old := state.2.contentOf path
      let new := (state.1.write r state.2).files.contentOf path
      (Rotates state.1 r state.2 ↔
        0 < s.fileLimit ∧ old ≠ [] ∧ s.fileLimit < old.length + (r.json.utf8ByteSize + 1)) ∧
      (Rotates state.1 r state.2 → new = lineBytes r.json) ∧
      (¬ Rotates state.1 r state.2 → new = old ++ lineBytes r.json) ∧
      (0 < s.fileLimit → new.length ≤ s.fileLimit ∨ new = lineBytes r.json)) ∧
    (0 < s.fileLimit → ∀ p loc id, state.2.find (.ofText p) = .ok (loc, .file id) → filled id →
      (state.2.content id).length ≤ s.fileLimit ∨
        ∃ r, .write r ∈ steps ∧ state.2.content id = lineBytes r.json) ∧
    (∀ id, ¬ filled id → state.2.content id = first.2.content id) ∧
    (s.fileLimit = 0 → (∀ p, state.2.find p = first.2.find p) ∧
      ∀ k, state.2.contentOf (rolledPath path k) = first.2.contentOf (rolledPath path k)) := by
  intro first state filled
  obtain ⟨log, loc, hsized⟩ := Sized.after hpath hopen hok
  refine ⟨fun r hwrite => write_sizes hsized.running hsized.begun hwrite,
    fun hpos p loc id _ => hsized.bounded hpos id, hsized.kept, fun hzero => ?_⟩
  obtain ⟨-, ⟨rfl, -⟩, hattached⟩ := hsized.running
  -- without a limit no name has changed since the log was opened
  obtain ⟨hnodes, hcwd, hfilled⟩ := hsized.still hzero
  obtain ⟨log₀, hlog₀⟩ := Option.isSome_iff_exists.1 hopen
  obtain ⟨_, -, hcreate⟩ := log_of_opening hlog₀
  have hfirst := wellFormed_of_create hwf hcreate
  refine ⟨fun p => Storage.Files.find_congr hnodes hcwd p, fun k => ?_⟩
  exact contentOf_rolledPath_eq hfirst hnodes hcwd hattached
    (fun id hid => hsized.kept id fun h => hid (hfilled id h)) k

/-- A log of files of at most 200 bytes is opened again after a line, and writes another one. -/
theorem sizes_after_reopening :
    let s : AuditSettings := ⟨false, some "a.log", 200, 3⟩
    let env : Environment := ⟨none, none⟩
    let r : Record := ⟨⟨0, 0⟩, "alex", ⟨7⟩, .destroy, "no"⟩
    let state := after s env (opening s env (Files.emptyAt [])) [.write r, .reopen]
    let old := state.2.contentOf "a.log"
    let new := (state.1.write r state.2).files.contentOf "a.log"
    (Rotates state.1 r state.2 ↔
      0 < 200 ∧ old ≠ [] ∧ 200 < old.length + (r.json.utf8ByteSize + 1)) ∧
    (new.length ≤ 200 ∨ new = lineBytes r.json) := by
  intro s env r state old new
  have hpath : s.filePath env = some "a.log" := by decide +kernel
  have hopen : (opening s env (Files.emptyAt [])).1.file.isSome = true := by decide +kernel
  have hok : ∀ out ∈ outcomes s env (opening s env (Files.emptyAt [])) [.write r, .reopen],
      out.result = .ok () := by
    intro out hout
    obtain rfl := List.mem_singleton.1 hout
    decide +kernel
  have hwrite : (state.1.write r state.2).result = .ok () := by decide +kernel
  obtain ⟨hrotates, -, -, hnew⟩ := (sizes_after s env (Files.emptyAt []) "a.log"
    (Files.wellFormed_emptyAt []) hpath hopen [.write r, .reopen] hok).1 r hwrite
  exact ⟨hrotates, hnew (by decide)⟩

end Logger
end ItemGuard.Audit
