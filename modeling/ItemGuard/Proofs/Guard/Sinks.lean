import ItemGuard.Proofs.Guard.Decisions

/-!
# Guards with different sinks

What a sink does with its records has no effect on a decision. Two guards that differ in their sinks
give the same responses and count the same strikes in every run, as long as the loads of the two
runs find the same blacklists (`history_withSink`). They do if the sinks leave the files alone,
whether these keep records, drop them or fail now and then.
-/

namespace ItemGuard

open Audit (Record Sink)
open Storage (Failure Files)

namespace Audit

/-- Sinks of this type leave the files alone and report nothing but failures. -/
structure Unobtrusive (σ : Type) [Sink σ] : Prop where
  files_write : ∀ (sink : σ) (r : Record) (fs : Files), (Sink.write sink r fs).files = fs
  log_write : ∀ (sink : σ) (r : Record) (fs : Files), (Sink.write sink r fs).log = []

/-- The report of a failure, if the sink failed. -/
def Written.unwritten {σ : Type} (w : Written σ) : List Diagnostic :=
  match w.result with
  | .ok () => []
  | .error failure => [.recordUnwritten failure]

theorem Written.report_eq {σ : Type} (w : Written σ) : w.report = w.log ++ w.unwritten := by
  unfold report unwritten
  cases w.result with
  | ok => exact (List.append_nil _).symm
  | error failure => rfl

theorem Written.eq_recordUnwritten {σ : Type} {w : Written σ} {d : Diagnostic}
    (h : d ∈ w.unwritten) : ∃ failure, d = .recordUnwritten failure := by
  unfold unwritten at h
  split at h
  · exact absurd h List.not_mem_nil
  · exact ⟨_, List.mem_singleton.1 h⟩

theorem unobtrusive_memory : Unobtrusive Memory :=
  ⟨fun _ _ _ => rfl, fun _ _ _ => rfl⟩

theorem unobtrusive_discard : Unobtrusive Discard :=
  ⟨fun _ _ _ => rfl, fun _ _ _ => rfl⟩

theorem unobtrusive_refusal : Unobtrusive Refusal :=
  ⟨fun _ _ _ => rfl, fun _ _ _ => rfl⟩

/-- A sink that fails on some of the records and hands the others on. -/
structure Faulty (σ : Type) where
  sink : σ
  /-- How the sink fails on the record of that number, if it does. -/
  fault : Nat → Option Failure
  /-- The number of records so far. -/
  written : Nat

instance {σ : Type} [Sink σ] : Sink (Faulty σ) where
  write s r fs :=
    match s.fault s.written with
    | some failure => ⟨{ s with written := s.written + 1 }, fs, [], .error failure⟩
    | none => (Sink.write s.sink r fs).map fun sink => ⟨sink, s.fault, s.written + 1⟩

theorem Unobtrusive.faulty {σ : Type} [Sink σ] (h : Unobtrusive σ) : Unobtrusive (Faulty σ) where
  files_write s r fs := by
    simp only [Sink.write]
    cases s.fault s.written with
    | some failure => rfl
    | none => exact h.files_write s.sink r fs
  log_write s r fs := by
    simp only [Sink.write]
    cases s.fault s.written with
    | some failure => rfl
    | none => exact h.log_write s.sink r fs

end Audit

def Diagnostic.isUnwritten : Diagnostic → Bool
  | .recordUnwritten _ => true
  | _ => false

namespace Guard

open Audit (Unobtrusive)

variable {σ σ' τ : Type}

/-! ## Runs that load the same -/

/-- What a load of a file finds. -/
def reading? (g : Guard σ τ) : Request → Option (Except Failure String)
  | .reloadPath path => some (g.files.readText path)
  | _ => none

/-- The guards have the same names, the same ruleset and the same tally. -/
structure Alike (g : Guard σ τ) (g' : Guard σ' τ) : Prop where
  registry : g'.registry = g.registry
  ruleset? : g'.ruleset? = g.ruleset?
  tally : g'.tally = g.tally

theorem alike_withSink (g : Guard σ τ) (sink : σ') : g.Alike (g.withSink sink) :=
  ⟨rfl, rfl, rfl⟩

variable [Sink σ] [Sink σ'] [Tally τ]

/-- What the loads of a run find. -/
def readings (g : Guard σ τ) : List Request → List (Option (Except Failure String))
  | [] => []
  | r :: requests => g.reading? r :: (g.step r).2.readings requests

section Step

variable {g : Guard σ τ} {g' : Guard σ' τ} {r : Request}

omit [Sink σ] [Sink σ'] in
theorem Alike.pass (h : g.Alike g') (hreading : g'.reading? r = g.reading? r) :
    (g'.pass r).1 = (g.pass r).1 ∧ (g.pass r).2.Alike (g'.pass r).2 := by
  obtain ⟨hregistry, hruleset, htally⟩ := h
  cases r with
  | reload text =>
    simp only [Guard.pass, reload, reloadFrom, hregistry, true_and]
    exact ⟨hregistry, rfl, htally⟩
  | reloadPath path =>
    have hread : g'.files.readText path = g.files.readText path := Option.some.inj hreading
    simp only [Guard.pass, reloadPath, hread]
    cases g.files.readText path with
    | ok text =>
      simp only [reloadRead, reloadFrom, hregistry, true_and]
      exact ⟨hregistry, rfl, htally⟩
    | error failure => exact ⟨rfl, hregistry, hruleset, htally⟩
  | disconnect actor => exact ⟨rfl, hregistry, hruleset, congrArg (Tally.forget · _) htally⟩
  | event now event =>
    cases event with
    | disconnect player => exact ⟨rfl, hregistry, hruleset, congrArg (Tally.forget · _) htally⟩
    | _ => exact ⟨rfl, hregistry, hruleset, htally⟩
  | _ => exact ⟨rfl, hregistry, hruleset, htally⟩

theorem Alike.noted_deny (h : g.Alike g') (r : Request) (record : Record) :
    ((g.noted r).deny record).Alike ((g'.noted r).deny record) := by
  have htally := congrArg (Tally.record · record.actor) h.tally
  cases r <;> exact ⟨h.registry, h.ruleset?, htally⟩

/-- Two guards that are alike take a step alike, whatever their sinks do. -/
theorem Alike.step (h : g.Alike g') (hreading : g'.reading? r = g.reading? r) :
    (g'.step r).1 = (g.step r).1 ∧ (g.step r).2.Alike (g'.step r).2 := by
  by_cases hc : ∃ record, Charges g.ruleset? r record
  · obtain ⟨record, hrecord⟩ := hc
    have hrecord' : Charges g'.ruleset? r record := h.ruleset? ▸ hrecord
    rw [step_of_charges hrecord, step_of_charges hrecord']
    exact ⟨rfl, h.noted_deny r record⟩
  · have hc' : ∀ record, ¬ Charges g'.ruleset? r record := h.ruleset? ▸ not_exists.1 hc
    rw [step_of_not_charges (not_exists.1 hc), step_of_not_charges hc']
    exact h.pass hreading

end Step

theorem Alike.run {g : Guard σ τ} {g' : Guard σ' τ} (h : g.Alike g') (requests : List Request)
    (hreadings : g'.readings requests = g.readings requests) :
    g'.history requests = g.history requests ∧ (g.after requests).Alike (g'.after requests) := by
  induction requests generalizing g g' with
  | nil => exact ⟨rfl, h⟩
  | cons r requests ih =>
    obtain ⟨hreading, hreadings⟩ := List.cons.inj hreadings
    obtain ⟨hresponse, hstep⟩ := h.step hreading
    obtain ⟨hhistory, hafter⟩ := ih hstep hreadings
    exact ⟨by rw [history, history, hresponse, hhistory], hafter⟩

/-! ## Unobtrusive sinks -/

/-- A guard whose sink leaves the files alone has the files that the outside left behind last. -/
theorem files_step (hσ : Unobtrusive σ) (g : Guard σ τ) (r : Request) :
    (g.step r).2.files =
      match r with
      | .outside files => files
      | _ => g.files := by
  by_cases hc : ∃ record, Charges g.ruleset? r record
  · obtain ⟨record, hrecord⟩ := hc
    rw [step_of_charges hrecord]
    cases r with
    | outside files => cases hrecord
    | _ => exact hσ.files_write ..
  · rw [step_of_not_charges (not_exists.1 hc)]
    cases r with
    | reloadPath path =>
      simp only [pass, reloadPath]
      cases g.files.readText path <;> rfl
    | event now event => cases event <;> rfl
    | _ => rfl

/-- The diagnostics without the reports of records that could not be written. -/
def decisionLog (g : Guard σ τ) : List Diagnostic :=
  g.log.filter fun d => !d.isUnwritten

omit [Tally τ] in
theorem filter_report (hσ : Unobtrusive σ) (sink : σ) (record : Record) (fs : Files) :
    (Sink.write sink record fs).report.filter (fun d => !d.isUnwritten) = [] := by
  rw [Audit.Written.report_eq, hσ.log_write, List.nil_append, List.filter_eq_nil_iff]
  intro d hd
  obtain ⟨failure, rfl⟩ := Audit.Written.eq_recordUnwritten hd
  exact Bool.false_ne_true

theorem decisionLog_deny (hσ : Unobtrusive σ) (g : Guard σ τ) (record : Record) :
    (g.deny record).decisionLog = g.decisionLog ++ [.denied record.actor record.reason] := by
  simp only [decisionLog, deny, List.filter_append, filter_report hσ, List.append_nil]
  rfl

omit [Sink σ] [Tally τ] in
theorem decisionLog_report (g : Guard σ τ) (log : List Diagnostic) :
    (g.report log).decisionLog = g.decisionLog ++ log.filter fun d => !d.isUnwritten :=
  List.filter_append ..

theorem decisionLog_step (hσ : Unobtrusive σ) (hσ' : Unobtrusive σ') {g : Guard σ τ}
    {g' : Guard σ' τ} {r : Request} (h : g.Alike g') (hfiles : g'.files = g.files)
    (hlog : g'.decisionLog = g.decisionLog) :
    (g'.step r).2.decisionLog = (g.step r).2.decisionLog := by
  have hreport : ∀ log, (g'.report log).decisionLog = (g.report log).decisionLog := fun log => by
    rw [decisionLog_report, decisionLog_report, hlog]
  by_cases hc : ∃ record, Charges g.ruleset? r record
  · obtain ⟨record, hrecord⟩ := hc
    have hrecord' : Charges g'.ruleset? r record := h.ruleset? ▸ hrecord
    rw [step_of_charges hrecord, step_of_charges hrecord']
    rw [decisionLog_deny hσ, decisionLog_deny hσ']
    cases r with
    | event now event => exact congrArg (· ++ _) (hreport _)
    | _ => exact congrArg (· ++ _) hlog
  · have hc' : ∀ record, ¬ Charges g'.ruleset? r record := h.ruleset? ▸ not_exists.1 hc
    rw [step_of_not_charges (not_exists.1 hc), step_of_not_charges hc']
    cases r with
    | reload text =>
      simp only [pass, reload, reloadFrom, h.registry]
      exact hreport _
    | reloadPath path =>
      simp only [pass, reloadPath, hfiles]
      cases g.files.readText path with
      | ok text =>
        simp only [reloadRead, reloadFrom, h.registry]
        exact hreport _
      | error failure => exact hreport _
    | event now event => cases event <;> exact hreport _
    | _ => exact hlog

/-- With unobtrusive sinks, two guards find the same files at every load, and they differ in nothing
but in the reports of records that could not be written. -/
theorem Alike.run_unobtrusive (hσ : Unobtrusive σ) (hσ' : Unobtrusive σ') {g : Guard σ τ}
    {g' : Guard σ' τ} (h : g.Alike g') (hfiles : g'.files = g.files)
    (hlog : g'.decisionLog = g.decisionLog) (requests : List Request) :
    g'.readings requests = g.readings requests ∧
      (g'.after requests).files = (g.after requests).files ∧
      (g'.after requests).decisionLog = (g.after requests).decisionLog := by
  induction requests generalizing g g' with
  | nil => exact ⟨rfl, hfiles, hlog⟩
  | cons r requests ih =>
    have hreading : g'.reading? r = g.reading? r := by
      cases r with
      | reloadPath path => exact congrArg (fun fs : Files => some (fs.readText path)) hfiles
      | _ => rfl
    have hnext : (g'.step r).2.files = (g.step r).2.files := by
      rw [files_step hσ, files_step hσ', hfiles]
    obtain ⟨hreadings, hafter⟩ :=
      ih (h.step hreading).2 hnext (decisionLog_step hσ hσ' h hfiles hlog)
    exact ⟨by rw [readings, readings, hreading, hreadings], hafter⟩

/-- What is reported of a denial: the event that led to it, what the sink reports, and the denial.
-/
theorem log_noted_deny (g : Guard σ τ) (r : Request) (record : Record) :
    let w := Sink.write g.sink record g.files
    ((g.noted r).deny record).log =
      (g.noted r).log ++ w.log ++ w.unwritten ++ [.denied record.actor record.reason] := by
  intro w
  have hnoted : Sink.write (g.noted r).sink record (g.noted r).files = w := by
    cases r <;> rfl
  rw [deny, hnoted, w.report_eq, ← List.append_assoc]

/-- **The sink has no say.** If sinks leave files alone, one in place of another changes no response
of a run, no strike and not the ruleset in force, and of the diagnostics only the reports of records
that could not be written. Any sinks at all have this in common if the loads of the two runs find
the same blacklists. A denial stands and is counted whatever becomes of its record, and a failure
adds one warning. -/
theorem history_withSink (g : Guard σ τ) (sink' : σ') (requests : List Request) :
    let g' := g.withSink sink'
    (Unobtrusive σ → Unobtrusive σ' →
      g'.readings requests = g.readings requests ∧
      (g'.after requests).decisionLog = (g.after requests).decisionLog) ∧
    (g'.readings requests = g.readings requests →
      g'.history requests = g.history requests ∧
      (g'.after requests).ruleset? = (g.after requests).ruleset? ∧
      (g'.after requests).tally = (g.after requests).tally) ∧
    ∀ r record, Charges (g'.after requests).ruleset? r record →
      let last := g'.after requests
      let w := Sink.write last.sink record last.files
      (last.step r).1 = .suppress true ∧
      (last.step r).2.tally = Tally.record last.tally record.actor ∧
      (last.step r).2.log =
        (last.noted r).log ++ w.log ++ w.unwritten ++ [.denied record.actor record.reason] ∧
      (∀ failure, w.result = .error failure → w.unwritten = [.recordUnwritten failure]) ∧
      ∀ d ∈ w.unwritten, d.level = .warn := by
  intro g'
  have halike : g.Alike g' := g.alike_withSink sink'
  refine ⟨fun hσ hσ' => ?_, fun hreadings => ?_, ?_⟩
  · obtain ⟨hreadings, -, hlog⟩ := halike.run_unobtrusive hσ hσ' rfl rfl requests
    exact ⟨hreadings, hlog⟩
  · obtain ⟨hhistory, hafter⟩ := halike.run requests hreadings
    exact ⟨hhistory, hafter.ruleset?, hafter.tally⟩
  · intro r record hrecord last w
    have htally : (last.noted r).tally = last.tally := by
      cases r <;> rfl
    rw [step_of_charges hrecord]
    refine ⟨rfl, congrArg (Tally.record · _) htally, log_noted_deny last r record,
      fun failure hfailure => ?_, fun d hd => ?_⟩
    · rw [Audit.Written.unwritten, hfailure]
    · obtain ⟨failure, rfl⟩ := Audit.Written.eq_recordUnwritten hd
      rfl

/-- A guard keeps its records in memory, another one fails on every second record. Both suppress the
same clicks and count two strikes, and the second one warns once. -/
theorem history_withSink_every_second :
    let g := start (fun _ => none) (⟨[]⟩ : Audit.Memory) Strikes.empty (Files.emptyAt [])
    let refusal := Failure.notFound
    let g' := g.withSink
      (⟨g.sink, fun n => if n % 2 = 0 then some refusal else none, 0⟩ : Audit.Faulty Audit.Memory)
    let click : Request := .rightClick ⟨0, 0⟩ ⟨"steve", fun _ => false⟩ ⟨1⟩ ⟨1⟩ ⟨7⟩
    let requests := [.reload "[7]\non-right=mods", click, click]
    Unobtrusive Audit.Memory ∧ Unobtrusive (Audit.Faulty Audit.Memory) ∧
      g'.history requests = g.history requests ∧
      (g'.after requests).tally = (g.after requests).tally ∧
      (g.after requests).tally.count "steve" = 2 ∧
      (g'.after requests).log.count (.recordUnwritten refusal) = 1 ∧
      Charges (g'.after requests).ruleset? click
        (denial ⟨0, 0⟩ ⟨"steve", fun _ => false⟩ .rightClick ⟨7⟩) ∧
      ((g'.after requests).step click).1 = .suppress true := by
  intro g refusal g' click requests
  obtain ⟨hunobtrusive, halike, hcharged⟩ := history_withSink g g'.sink requests
  have hmemory := Audit.unobtrusive_memory
  obtain ⟨hreadings, -⟩ := hunobtrusive hmemory hmemory.faulty
  obtain ⟨hhistory, -, htally⟩ := halike hreadings
  have hstopped : ((g'.after requests).consult ⟨0, 0⟩ ⟨"steve", fun _ => false⟩ .rightClick ⟨7⟩).1 =
      true := by
    decide +kernel
  have hcharges : Charges (g'.after requests).ruleset? click
      (denial ⟨0, 0⟩ ⟨"steve", fun _ => false⟩ .rightClick ⟨7⟩) :=
    .rightClick (consult_eq_true_iff.1 hstopped)
  exact ⟨hmemory, hmemory.faulty, hhistory, htally, by decide +kernel, by decide +kernel, hcharges,
    (hcharged click _ hcharges).1⟩

end Guard
end ItemGuard
