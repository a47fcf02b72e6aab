import ItemGuard.Proofs.Audit.Sizes

/-!
# Logs whose file is rewritten

The active file may be truncated and filled again from outside while a log has it open. A line
still goes to its end as long as the log has not rolled over since it was opened. After a rotation
the handle keeps to the position that it has reached, so the line overwrites what is there now, or
leaves a gap before it (`write_after_rewrite`, `write_after_rewrite_gap`).
-/

namespace ItemGuard.Audit

open Storage (Files Location Path)
open Storage.Files (overwrite)
open RollingLog (lineBytes)

variable {log : RollingLog} {fs fs' : Files} {line : String}

/-! ## Positions -/

theorem length_overwrite (content bytes : Bytes) (offset : Nat) :
    (overwrite content offset bytes).length = max (offset + bytes.length) content.length := by
  simp only [overwrite, List.length_append, List.length_take, List.length_replicate,
    List.length_drop]
  omega

/-- Bytes that are written at a position follow the content only if it ends there. -/
theorem overwrite_eq_append_iff {content bytes : Bytes} {offset : Nat} (hne : bytes ≠ []) :
    overwrite content offset bytes = content ++ bytes ↔ offset = content.length := by
  constructor
  · intro h
    have hlength := congrArg List.length h
    have hpos := List.length_pos_iff.2 hne
    rw [length_overwrite, List.length_append] at hlength
    omega
  · rintro rfl
    exact overwrite_length content bytes

theorem content_write (fs : Files) (h : Storage.Files.Handle) (bytes : Bytes) :
    (fs.write h bytes).1.content h.file =
      if h.appends then fs.content h.file ++ bytes
      else overwrite (fs.content h.file) h.offset bytes := by
  unfold Storage.Files.write
  dsimp only
  split
  · exact (Storage.Files.content_setContent _ _).trans (if_pos rfl)
  · exact (Storage.Files.content_setContent _ _).trans (if_pos rfl)

/-! ## Handles -/

theorem appends_put (log : RollingLog) (bytes : Bytes) (fs : Files) :
    (log.put bytes fs).1.handle.appends = log.handle.appends := by
  unfold RollingLog.put Storage.Files.write
  dsimp only
  split <;> rfl

namespace Logger

variable {s : AuditSettings} {env : Environment} {l : Logger} {r : Record} {start : Files}
  {steps : List LogStep}

/-- The last of the steps that opened the log or rolled it over rolled it over. -/
def RolledSince (s : AuditSettings) (env : Environment) (first : Logger × Files)
    (steps : List LogStep) : Prop :=
  ∃ before r rest, steps = before ++ .write r :: rest ∧ LogStep.reopen ∉ rest ∧
    Rotates (after s env first before).1 r (after s env first before).2

theorem not_rolledSince_nil {first : Logger × Files} : ¬ RolledSince s env first [] := by
  rintro ⟨before, r, rest, heq, -⟩
  cases before <;> cases heq

theorem rolledSince_write {first : Logger × Files} :
    RolledSince s env first (steps ++ [.write r]) ↔
      RolledSince s env first steps ∨
        Rotates (after s env first steps).1 r (after s env first steps).2 := by
  constructor
  · rintro ⟨before, r', rest, heq, hrest, hrotates⟩
    rcases List.eq_nil_or_concat' rest with rfl | ⟨rest, x, rfl⟩
    · obtain ⟨rfl, hlast⟩ := List.append_inj' heq rfl
      cases hlast
      exact .inr hrotates
    · have heq' : steps ++ [.write r] = (before ++ .write r' :: rest) ++ [x] := by simpa using heq
      refine .inl ⟨before, r', rest, (List.append_inj' heq' rfl).1, fun hmem => ?_, hrotates⟩
      exact hrest (List.mem_append_left _ hmem)
  · rintro (⟨before, r', rest, rfl, hrest, hrotates⟩ | hrotates)
    · refine ⟨before, r', rest ++ [.write r], by simp, fun hmem => ?_, hrotates⟩
      rcases List.mem_append.1 hmem with hmem | hmem
      · exact hrest hmem
      · cases List.mem_singleton.1 hmem
    · exact ⟨steps, r, [], rfl, List.not_mem_nil, hrotates⟩

theorem not_rolledSince_reopen {first : Logger × Files} :
    ¬ RolledSince s env first (steps ++ [.reopen]) := by
  rintro ⟨before, r, rest, heq, hrest, -⟩
  rcases List.eq_nil_or_concat' rest with rfl | ⟨rest, x, rfl⟩
  · cases (List.append_inj' heq rfl).2
  · have heq' : steps ++ [.reopen] = (before ++ .write r :: rest) ++ [x] := by simpa using heq
    obtain rfl := List.singleton_inj.1 (List.append_inj' heq' rfl).2
    exact hrest (List.mem_append_right _ (List.mem_singleton.2 rfl))

/-- A rotation leaves a handle that writes at a position of its own, and nothing else does. -/
theorem appends_of_write {old : RollingLog} (hfile : l.file = some old)
    (happend : old.append r.json fs = (.ok log, fs')) :
    log.handle.appends = true ↔ old.handle.appends = true ∧ ¬ Rotates l r fs := by
  by_cases hrotates : Rotates l r fs
  · obtain ⟨old', rolled, files, hfile', hrotate, hrotated⟩ := hrotates
    obtain rfl : old = old' := Option.some.inj (hfile.symm.trans hfile')
    obtain ⟨_, _, -, -, -, hrolled, -⟩ := rotate_eq_ok hrotate
    rw [happend] at hrotated
    obtain ⟨hresult, rfl⟩ := Prod.mk.inj hrotated
    obtain rfl := Except.ok.inj hresult
    rw [appends_put, hrolled]
    simp only [Bool.false_eq_true, false_iff, not_and, not_not]
    exact fun _ => ⟨old, rolled, files, hfile, hrotate, happend⟩
  · rcases append_eq_ok happend with ⟨-, hput⟩ | ⟨rolled, files, -, hrotate, hput⟩
    · obtain rfl : log = (old.put (lineBytes r.json) fs).1 := congrArg Prod.fst hput
      rw [appends_put]
      exact ⟨fun happends => ⟨happends, hrotates⟩, And.left⟩
    · refine absurd ⟨old, rolled, files, hfile, hrotate, ?_⟩ hrotates
      rw [happend, ← hput]

/-- What the log of a run knows about its file, whether its writes have succeeded or not. -/
theorem tracks_after (hlog : (after s env (opening s env start) steps).1.file = some log) :
    Tracks log (after s env (opening s env start) steps).2 ∧
      (log.handle.appends = true ↔ ¬ RolledSince s env (opening s env start) steps) := by
  have hopened : ∀ {fs log}, (opening s env fs).1.file = some log →
      Tracks log (opening s env fs).2 ∧ log.handle.appends = true := by
    intro fs log hlog
    obtain ⟨path, -, hcreate⟩ := log_of_opening hlog
    obtain ⟨loc, hattached⟩ := attached_of_create hcreate
    exact ⟨hattached.tracks, appends_of_create hcreate⟩
  induction steps using List.reverseRecOn generalizing log with
  | nil =>
    obtain ⟨htracks, happends⟩ := hopened hlog
    exact ⟨htracks, iff_of_true happends not_rolledSince_nil⟩
  | append_singleton steps x ih =>
    rw [after_concat] at hlog ⊢
    cases x with
    | reopen =>
      obtain ⟨htracks, happends⟩ := hopened hlog
      exact ⟨htracks, iff_of_true happends not_rolledSince_reopen⟩
    | write r =>
      rw [rolledSince_write, not_or]
      generalize Logger.after s env (opening s env start) steps = state at ih hlog ⊢
      obtain ⟨l, fs⟩ := state
      obtain ⟨old, hold, happend | ⟨rfl, e, happend⟩⟩ := log_of_write hlog
      · obtain ⟨htracks, happends⟩ := ih hold
        refine ⟨htracks.append happend, ?_⟩
        rw [appends_of_write hold happend, happends]
      -- a write that fails may have moved files, though not changed what they hold
      · obtain ⟨htracks, happends⟩ := ih hold
        refine ⟨htracks.append_error happend, ?_⟩
        have hrotates : ¬ Rotates l r fs := by
          rintro ⟨log', rolled, files, hlog', -, hrotated⟩
          obtain rfl := Option.some.inj (hold.symm.trans hlog')
          rw [happend] at hrotated
          cases (Prod.mk.inj hrotated).1
        rw [happends]
        exact ⟨fun h => ⟨h, hrotates⟩, And.left⟩

theorem isFull_of_not_rotates (hlog : l.file = some log) (hok : (l.write r fs).result = .ok ())
    (hrotates : ¬ Rotates l r fs) : log.isFull (lineBytes r.json).length = false := by
  obtain ⟨log', happend, -⟩ := append_of_write hlog hok
  rcases append_eq_ok happend with ⟨hroom, -⟩ | ⟨rolled, files, -, hrotate, hput⟩
  · exact hroom
  · refine absurd ⟨log, rolled, files, hlog, hrotate, ?_⟩ hrotates
    rw [happend, ← hput]

/-- **Rewriting from outside.** After any steps, let the file that the log has open be filled with
other bytes, and let the next write succeed without a rotation. The line is written at the end of
those bytes if the log has been opened since it last rolled over. Else it is written where the file
ended before, which is the end of those bytes only if they are as many. -/
theorem write_after_rewrite (s : AuditSettings) (env : Environment) (start : Files)
    (steps : List LogStep) (log : RollingLog)
    (hlog : (after s env (opening s env start) steps).1.file = some log) (text : Bytes)
    (r : Record) :
    let first := opening s env start
    let state := after s env first steps
    let rewritten := state.2.setContent log.handle.file text
    let out := state.1.write r rewritten
    let old := state.2.content log.handle.file
    let new := out.files.content log.handle.file
    let line := lineBytes r.json
    out.result = .ok () → ¬ Rotates state.1 r rewritten →
      (¬ RolledSince s env first steps → new = text ++ line) ∧
      (RolledSince s env first steps → new = overwrite text old.length line) ∧
      (new = text ++ line ↔ ¬ RolledSince s env first steps ∨ old.length = text.length) := by
  intro first state rewritten out old new line hok hrotates
  obtain ⟨htracks, happends⟩ := tracks_after hlog
  have hroom := isFull_of_not_rotates hlog hok hrotates
  have hfiles : out.files = (rewritten.write log.handle line).1 :=
    congrArg Written.files (write_of_append hlog (append_of_not_isFull hroom rewritten))
  have hne : line ≠ [] := List.append_ne_nil_of_right_ne_nil _ (List.cons_ne_nil _ _)
  have hnew : new = if log.handle.appends then text ++ line
      else overwrite text log.handle.offset line := by
    have hcontent := content_write rewritten log.handle line
    rw [Storage.Files.content_setContent, if_pos rfl, ← hfiles] at hcontent
    exact hcontent
  by_cases hrolled : RolledSince s env first steps
  · have hhandle : ¬ log.handle.appends = true := fun h => happends.1 h hrolled
    -- the position is where the log last wrote, which the rewriting does not move
    have hoffset : log.handle.offset = old.length := htracks.atEnd.resolve_left hhandle
    rw [if_neg hhandle, hoffset] at hnew
    refine ⟨fun h => absurd hrolled h, fun _ => hnew, ?_⟩
    rw [hnew, overwrite_eq_append_iff hne]
    exact ⟨.inr, fun h => h.resolve_left fun h => h hrolled⟩
  · rw [if_pos (happends.2 hrolled)] at hnew
    exact ⟨fun _ => hnew, fun h => absurd h hrolled, ⟨fun _ => .inl hrolled, fun _ => hnew⟩⟩

/-- A log that has been opened again writes at the end of the one byte that it finds. -/
theorem write_after_rewrite_reopened :
    let s : AuditSettings := ⟨false, some "a.log", 300, 3⟩
    let env : Environment := ⟨none, none⟩
    let r : Record := ⟨⟨0, 0⟩, "alex", ⟨7⟩, .destroy, "no"⟩
    let state := after s env (opening s env (Files.emptyAt [])) [.write r, .reopen]
    ∃ log, state.1.file = some log ∧
      (state.1.write r (state.2.setContent log.handle.file [120])).files.content
        log.handle.file = [120] ++ lineBytes r.json := by
  intro s env r state
  have hlog : state.1.file.map (fun log =>
      (log.isFull (lineBytes r.json).length, log.handle.appends)) = some (false, true) := by
    decide +kernel
  obtain ⟨log, hfile, heq⟩ := Option.map_eq_some_iff.1 hlog
  obtain ⟨hroom, happends⟩ := Prod.mk.inj heq
  have happend := append_of_not_isFull hroom (state.2.setContent log.handle.file [120])
  have hok := congrArg Written.result (write_of_append hfile happend)
  have hrotates := ((appends_of_write hfile happend).1 ((appends_put _ _ _).trans happends)).2
  have hnot : ¬ RolledSince s env (opening s env (Files.emptyAt [])) ([.write r] ++ [.reopen]) :=
    not_rolledSince_reopen
  exact ⟨log, hfile, (write_after_rewrite s env (Files.emptyAt []) [.write r, .reopen] log hfile
    [120] r hok hrotates).1 hnot⟩

/-- The third line of this log rolls it over. When the active file is truncated then, the next line
fits and is written, behind as many zeros as the file had bytes. -/
theorem write_after_rewrite_gap :
    let s : AuditSettings := ⟨false, some "a.log", 300, 3⟩
    let env : Environment := ⟨none, none⟩
    let r : Record := ⟨⟨0, 0⟩, "alex", ⟨7⟩, .destroy, "no"⟩
    let state := after s env (opening s env (Files.emptyAt [])) [.write r, .write r, .write r]
    state.1.file.map (fun log => log.isFull (lineBytes r.json).length) = some false ∧
      (state.2.replaceFile "a.log" []).map (fun files =>
        ((state.1.write r files).result, (state.1.write r files).files.contentOf "a.log")) =
          .ok (.ok (), List.replicate (lineBytes r.json).length 0 ++ lineBytes r.json) := by
  decide +kernel

end Logger
end ItemGuard.Audit
