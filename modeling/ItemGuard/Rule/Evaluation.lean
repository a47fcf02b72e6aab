import ItemGuard.Audit.Sink
import ItemGuard.Rule.Basic

/-!
# Rules that are audited

`Rule.evaluate` judges an action by a rule and gives exactly one record to a sink if the action is
denied. The verdict is that of `Rule.judge` (`verdict_evaluate`); a sink that fails is reported and
changes nothing about it.
-/

namespace ItemGuard

open Audit (Record Sink Written)
open Storage (Files)

/-- A verdict, with the sink and the files after it and what there is to report. -/
structure Evaluation (σ : Type) where
  verdict : Verdict
  sink : σ
  files : Files
  log : List Diagnostic

/-- What a sink reports about a record, its failure among that. -/
def Audit.Written.report {σ : Type} (w : Written σ) : List Diagnostic :=
  match w.result with
  | .ok () => w.log
  | .error failure => w.log ++ [.recordUnwritten failure]

namespace Rule

variable {σ : Type} [Sink σ]

/-- Judges an action with an item that the rule governs, at some time. -/
def evaluate (r : Rule) (action : Action) (item : ItemId) (actor : Actor) (now : Timestamp)
    (sink : σ) (fs : Files) : Evaluation σ :=
  match r.judge action item actor with
  | .allow => ⟨.allow, sink, fs, []⟩
  | .deny reason =>
    let w := Sink.write sink ⟨now, actor.name, item, action, reason⟩ fs
    ⟨.deny reason, w.sink, w.files, w.report⟩

/-- The verdict is that of the rule, whatever the sink does. -/
theorem verdict_evaluate (r : Rule) (action : Action) (item : ItemId) (actor : Actor)
    (now : Timestamp) (sink : σ) (fs : Files) :
    (r.evaluate action item actor now sink fs).verdict = r.judge action item actor := by
  rw [evaluate]
  split <;> simp_all

end Rule
end ItemGuard
