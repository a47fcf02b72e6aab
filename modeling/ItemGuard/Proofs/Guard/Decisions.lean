import ItemGuard.Proofs.Guard.Run

/-!
# What a guard decides

After every run, a guard decides by the blacklist whose text was loaded last, and by nothing else
(`enforces_after`): loads that fail, denials and departures leave no trace in any later answer.
-/

namespace ItemGuard.Guard

open Audit (Sink)
open Storage (Files)

variable {σ τ : Type}

/-- The text that a request loads, if it is one to load a blacklist and the blacklist can be read. -/
def loads? (g : Guard σ τ) : Request → Option String
  | .reload text => some text
  | .reloadPath path => (g.files.readText path).toOption
  | _ => none

/-! ## The ruleset in force -/

theorem reloadPath_of_ok {g : Guard σ τ} {path text : String}
    (h : g.files.readText path = .ok text) :
    g.reloadPath path = (.ok (g.reloadFrom path text).1, (g.reloadFrom path text).2) := by
  rw [reloadPath, h]
  rfl

theorem reloadPath_of_error {g : Guard σ τ} {path : String} {failure : Storage.Failure}
    (h : g.files.readText path = .error failure) :
    g.reloadPath path = (.error (.ofFailure path failure),
      g.report [.blacklistUnread (.ofFailure path failure)]) := by
  rw [reloadPath, h]
  rfl

variable [Sink σ] [Tally τ]

/-- The text that was loaded last in a run. -/
def lastLoaded? (g : Guard σ τ) : List Request → Option String
  | [] => none
  | r :: requests => ((g.step r).2.lastLoaded? requests).or (g.loads? r)

theorem registry_step (g : Guard σ τ) (r : Request) : (g.step r).2.registry = g.registry := by
  by_cases h : ∃ record, Charges g.ruleset? r record
  · obtain ⟨record, hrecord⟩ := h
    rw [step_of_charges hrecord]
    cases r <;> rfl
  · rw [step_of_not_charges (not_exists.1 h)]
    cases r with
    | reloadPath path =>
      cases hread : g.files.readText path with
      | ok text => simp only [pass, reloadPath_of_ok hread]; rfl
      | error failure => simp only [pass, reloadPath_of_error hread]; rfl
    | event now event => cases event <;> rfl
    | _ => rfl

/-- A step replaces the ruleset by that of the text that it loads, if it loads one. -/
theorem ruleset?_step (g : Guard σ τ) (r : Request) :
    (g.step r).2.ruleset? =
      match g.loads? r with
      | some text => (Blacklist.read g.registry text).ruleset?
      | none => g.ruleset? := by
  by_cases h : ∃ record, Charges g.ruleset? r record
  · obtain ⟨record, hrecord⟩ := h
    have hloads : g.loads? r = none := by
      cases hrecord <;> rfl
    rw [step_of_charges hrecord, hloads]
    cases r <;> rfl
  · rw [step_of_not_charges (not_exists.1 h)]
    cases r with
    | reloadPath path =>
      cases hread : g.files.readText path with
      | ok text =>
        simp only [pass, reloadPath_of_ok hread, loads?, hread]
        rfl
      | error failure =>
        simp only [pass, reloadPath_of_error hread, loads?, hread]
        rfl
    | event now event => cases event <;> rfl
    | _ => rfl

theorem registry_after (g : Guard σ τ) (requests : List Request) :
    (g.after requests).registry = g.registry := by
  induction requests generalizing g with
  | nil => rfl
  | cons r requests ih => rw [after_cons, ih, registry_step]

/-- After a run, the ruleset of the text that was loaded last is in force. -/
theorem ruleset?_after (g : Guard σ τ) (requests : List Request) :
    (g.after requests).ruleset? =
      match g.lastLoaded? requests with
      | some text => (Blacklist.read g.registry text).ruleset?
      | none => g.ruleset? := by
  induction requests generalizing g with
  | nil => rfl
  | cons r requests ih =>
    rw [after_cons, ih, registry_step, lastLoaded?]
    cases (g.step r).2.lastLoaded? requests with
    | some text => rfl
    | none => exact ruleset?_step g r

/-! ## Reports have no effect -/

/-- The guard with other diagnostics. -/
def withLog (g : Guard σ τ) (log : List Diagnostic) : Guard σ τ :=
  { g with log := log }

/-- What a guard reported has no effect on a step but on the diagnostics after it. -/
theorem step_withLog (g : Guard σ τ) (log : List Diagnostic) (r : Request) :
    ∃ log', (g.withLog log).step r = ((g.step r).1, (g.step r).2.withLog log') := by
  by_cases h : ∃ record, Charges g.ruleset? r record
  · obtain ⟨record, hrecord⟩ := h
    have hrecord' : Charges (g.withLog log).ruleset? r record := hrecord
    rw [step_of_charges hrecord, step_of_charges hrecord']
    cases r <;> exact ⟨_, rfl⟩
  · have h' : ∀ record, ¬ Charges (g.withLog log).ruleset? r record := not_exists.1 h
    rw [step_of_not_charges (not_exists.1 h), step_of_not_charges h']
    cases r with
    | reloadPath path =>
      cases hread : g.files.readText path with
      | ok text =>
        have hread' : (g.withLog log).files.readText path = .ok text := hread
        simp only [pass, reloadPath_of_ok hread, reloadPath_of_ok hread']
        exact ⟨_, rfl⟩
      | error failure =>
        have hread' : (g.withLog log).files.readText path = .error failure := hread
        simp only [pass, reloadPath_of_error hread, reloadPath_of_error hread']
        exact ⟨_, rfl⟩
    | event now event => cases event <;> exact ⟨_, rfl⟩
    | _ => exact ⟨_, rfl⟩

theorem history_withLog (g : Guard σ τ) (log : List Diagnostic) (requests : List Request) :
    (g.withLog log).history requests = g.history requests := by
  induction requests generalizing g log with
  | nil => rfl
  | cons r requests ih =>
    obtain ⟨log', hstep⟩ := step_withLog g log r
    rw [history, history, hstep, ih]

/-! ## Decisions -/

/-- The guard decides by the ruleset, which the registry made from a blacklist. -/
structure Enforces (registry : Registry) (ruleset? : Option Ruleset) (g : Guard σ τ) : Prop where
  inForce : g.ruleset? = ruleset?
  isActive_eq : g.isActive = ruleset?.isSome
  itemCount_eq : g.itemCount = (ruleset?.map Ruleset.size).getD 0
  /-- A right click is up to the held item alone. -/
  rightClick_iff : ∀ now actor placed clicked held,
    (g.rightClick now actor placed clicked held).1 = true ↔ Denies ruleset? .rightClick held actor
  /-- A left click is up to the held item and the target. -/
  leftClick_iff : ∀ now actor held target,
    (g.leftClick now actor held target).1 = true ↔
      Denies ruleset? .leftClick held actor ∨ Denies ruleset? .destroy target actor
  blockPlace_iff : ∀ now player placed clicked held,
    (g.handle now (.blockPlace player placed clicked held)).1 = true ↔
      Denies ruleset? .rightClick held player.actor
  blockBreak_iff : ∀ now player held target,
    (g.handle now (.blockBreak player held target)).1 = true ↔
      Denies ruleset? .leftClick held player.actor ∨ Denies ruleset? .destroy target player.actor
  disconnect_eq : ∀ now player, (g.handle now (.disconnect player)).1 = false
  /-- Without a ruleset nothing is suppressed. -/
  none_suppressed : ruleset? = none → ∀ r, (g.step r).1 ≠ .suppress true
  /-- A text that is loaded has its own effect, whatever was in force. -/
  reload_eq : ∀ text, (g.reload text).1 = (Blacklist.read registry text).outcome ∧
    (g.reload text).2.ruleset? = (Blacklist.read registry text).ruleset?
  reloadPath_ok : ∀ path text, g.files.readText path = .ok text →
    (g.reloadPath path).1 = .ok (Blacklist.read registry text).outcome ∧
      (g.reloadPath path).2.ruleset? = (Blacklist.read registry text).ruleset?
  /-- A file that cannot be read changes no later response. -/
  reloadPath_error : ∀ path failure, g.files.readText path = .error failure →
    (g.reloadPath path).1 = .error (.ofFailure path failure) ∧
      (g.reloadPath path).2.ruleset? = g.ruleset? ∧
      (g.reloadPath path).2.isActive = g.isActive ∧
      (g.reloadPath path).2.itemCount = g.itemCount ∧
      ∀ requests, (g.reloadPath path).2.history requests = g.history requests

theorem leftClick_eq_true_iff {g : Guard σ τ} {now : Timestamp} {actor : Actor}
    {held target : ItemId} :
    (g.leftClick now actor held target).1 = true ↔
      Denies g.ruleset? .leftClick held actor ∨ Denies g.ruleset? .destroy target actor := by
  by_cases h : Denies g.ruleset? .leftClick held actor
  · simp [leftClick_of_denies now h, h]
  · rw [leftClick_of_not_denies now h, consult_eq_true_iff]
    simp [h]

theorem not_denies_none {action : Action} {item : ItemId} {actor : Actor} :
    ¬ Denies none action item actor := by
  rintro ⟨s, rule, groups, hs, -⟩
  cases hs

theorem not_charges_none (r : Request) (record : Audit.Record) : ¬ Charges none r record := by
  intro h
  induction h with
  | rightClick h => exact not_denies_none h
  | leftClick h => exact not_denies_none h
  | destroy hheld h => exact not_denies_none h
  | event h ih => exact ih

theorem enforces_self (g : Guard σ τ) : Enforces g.registry g.ruleset? g where
  inForce := rfl
  isActive_eq := rfl
  itemCount_eq := rfl
  rightClick_iff _ _ _ _ _ := consult_eq_true_iff
  leftClick_iff _ _ _ _ := leftClick_eq_true_iff
  blockPlace_iff _ _ _ _ _ := consult_eq_true_iff
  blockBreak_iff _ _ _ _ := leftClick_eq_true_iff
  disconnect_eq _ _ := rfl
  none_suppressed hnone r hstep := by
    obtain ⟨record, hrecord⟩ := step_eq_suppress_iff.1 hstep
    rw [hnone] at hrecord
    exact not_charges_none r record hrecord
  reload_eq _ := ⟨rfl, rfl⟩
  reloadPath_ok path text h := by
    rw [reloadPath_of_ok h]
    exact ⟨rfl, rfl⟩
  reloadPath_error path failure h := by
    rw [reloadPath_of_error h]
    exact ⟨rfl, rfl, rfl, rfl, fun requests => history_withLog g _ requests⟩

/-- **Decisions after every run.** The guard enforces the blacklist whose text was loaded last, and
none before the first. -/
theorem enforces_after (registry : Registry) (sink : σ) (tally : τ) (files : Files)
    (requests : List Request) :
    let g := start registry sink tally files
    Enforces registry
      ((g.lastLoaded? requests).bind fun text => (Blacklist.read registry text).ruleset?)
      (g.after requests) := by
  intro g
  have hregistry : (g.after requests).registry = registry := registry_after g requests
  have hruleset : (g.after requests).ruleset? =
      (g.lastLoaded? requests).bind fun text => (Blacklist.read registry text).ruleset? := by
    rw [ruleset?_after]
    cases g.lastLoaded? requests <;> rfl
  have hself := enforces_self (g.after requests)
  rwa [hregistry, hruleset] at hself

end ItemGuard.Guard
