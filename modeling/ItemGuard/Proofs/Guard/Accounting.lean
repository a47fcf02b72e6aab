import ItemGuard.Proofs.Guard.Run
import Mathlib.Data.List.DropRight

/-!
# What a guard keeps about denials

A guard that keeps its records in memory and counts strikes does both for exactly the requests that
it suppresses. The strikes of a name are its denials since it last left (`denials`), which the
history of a run says (`accounts_after`).
-/

namespace ItemGuard

open Audit (Memory Record)
open Storage (Files)

/-- The request itself, or the one that an event tells of. -/
def Request.plain : Request → Request
  | .event now e => e.request now
  | r => r

def Request.clicker? (r : Request) : Option String :=
  match r.plain with
  | .rightClick _ actor _ _ _ => some actor.name
  | .leftClick _ actor _ _ => some actor.name
  | _ => none

def Request.leaver? (r : Request) : Option String :=
  match r.plain with
  | .disconnect actor => some actor.name
  | _ => none

def Response.isSuppressed : Response → Bool
  | .suppress answer => answer
  | _ => false

/-- How many requests of a name were suppressed since the name last left. -/
def denials (name : String) (history : List (Request × Response)) : Nat :=
  (history.rtakeWhile fun e => !decide (e.1.leaver? = some name)).countP fun e =>
    decide (e.1.clicker? = some name) && e.2.isSuppressed

theorem denials_concat (name : String) (history : List (Request × Response)) (r : Request)
    (response : Response) :
    denials name (history ++ [(r, response)]) =
      if r.leaver? = some name then 0
      else denials name history +
        if r.clicker? = some name ∧ response.isSuppressed = true then 1 else 0 := by
  unfold denials
  rw [List.rtakeWhile_concat]
  by_cases hleaver : r.leaver? = some name
  · simp [hleaver]
  · simp [hleaver, List.countP_append, List.countP_singleton]

theorem Charges.clicker?_eq {ruleset? : Option Ruleset} {r : Request} {record : Record}
    (h : Charges ruleset? r record) :
    r.clicker? = some record.actor ∧ r.leaver? = none := by
  cases h with
  | @event now event record h =>
    cases event with
    | blockPlace player placed clicked held => cases h; exact ⟨rfl, rfl⟩
    | blockBreak player held target => cases h <;> exact ⟨rfl, rfl⟩
    | disconnect player => cases h
  | _ => exact ⟨rfl, rfl⟩

/-! ## Strikes -/

/-- The strikes are the denials of a history, in 32-bit arithmetic. -/
structure Strikes.Counts (s : Strikes) (history : List (Request × Response)) : Prop where
  count_eq : ∀ name, (s.count name).toNat = denials name history % UInt32.size
  mem_iff : ∀ name, name ∈ s.counts ↔ 0 < denials name history

namespace Strikes.Counts

variable {s : Strikes} {history : List (Request × Response)} {r : Request} {response : Response}

theorem empty : Strikes.empty.Counts [] where
  count_eq name := by
    rw [count_empty]
    rfl
  mem_iff name := by simp [Strikes.empty, denials]

theorem add {name : String} (h : s.Counts history) (hclicker : r.clicker? = some name)
    (hleaver : r.leaver? = none) (hresponse : response.isSuppressed = true) :
    (s.add name).Counts (history ++ [(r, response)]) := by
  have hdenials : ∀ other, denials other (history ++ [(r, response)]) =
      denials other history + if name = other then 1 else 0 := by
    intro other
    rw [denials_concat]
    simp [hclicker, hleaver, hresponse]
  refine ⟨fun other => ?_, fun other => ?_⟩
  · rw [count_add, hdenials]
    by_cases hname : name = other
    · subst hname
      have hone : (1 : UInt32).toNat = 1 := rfl
      simp only [if_true, UInt32.toNat_add, h.count_eq, hone]
      exact Nat.mod_add_mod _ _ _
    · simp only [hname, if_false]
      exact h.count_eq other
  · rw [hdenials, Strikes.add, Std.ExtTreeMap.mem_insert, h.mem_iff]
    by_cases hname : name = other
    · simp [hname]
    · simp [hname]

theorem drop {name : String} (h : s.Counts history) (hleaver : r.leaver? = some name)
    (hresponse : response.isSuppressed = false) :
    (s.drop name).Counts (history ++ [(r, response)]) := by
  have hdenials : ∀ other, denials other (history ++ [(r, response)]) =
      if name = other then 0 else denials other history := by
    intro other
    rw [denials_concat]
    simp [hleaver, hresponse]
  refine ⟨fun other => ?_, fun other => ?_⟩
  · rw [count_drop, hdenials]
    by_cases hname : name = other
    · simp [hname]
    · simp only [hname, if_false]
      exact h.count_eq other
  · rw [hdenials, Strikes.drop, Std.ExtTreeMap.mem_erase, h.mem_iff]
    by_cases hname : name = other
    · simp [hname]
    · simp [hname]

theorem keep (h : s.Counts history) (hleaver : r.leaver? = none)
    (hresponse : response.isSuppressed = false) : s.Counts (history ++ [(r, response)]) := by
  have hdenials : ∀ name, denials name (history ++ [(r, response)]) = denials name history := by
    intro name
    rw [denials_concat]
    simp [hleaver, hresponse]
  refine ⟨fun name => ?_, fun name => ?_⟩
  · rw [hdenials]
    exact h.count_eq name
  · rw [hdenials]
    exact h.mem_iff name

/-- The number of names with strikes is the number of names with denials. -/
theorem tracked_eq (h : s.Counts history) :
    ∃ names : List String, names.Nodup ∧ (∀ name, name ∈ names ↔ 0 < denials name history) ∧
      s.tracked = names.length := by
  refine ⟨s.counts.keys, Std.ExtTreeMap.nodup_keys, fun name => ?_, ?_⟩
  · rw [Std.ExtTreeMap.mem_keys, h.mem_iff]
  · exact Std.ExtTreeMap.length_keys.symm

end Strikes.Counts

/-! ## Steps and runs -/

namespace Guard

variable {g : Guard Memory Strikes} {r : Request}

/-- A request that is not charged leaves the records alone, and the strikes of all who do not
leave. -/
theorem pass_eq (g : Guard Memory Strikes) (r : Request) :
    (g.pass r).1.isSuppressed = false ∧ (g.pass r).2.sink = g.sink ∧
      (g.pass r).2.tally =
        match r.leaver? with
        | some name => g.tally.drop name
        | none => g.tally := by
  cases r with
  | reloadPath path =>
    refine ⟨rfl, ?_⟩
    simp only [pass, reloadPath, reloadRead]
    cases g.files.readText path <;> exact ⟨rfl, rfl⟩
  | event now event => cases event <;> exact ⟨rfl, rfl, rfl⟩
  | _ => exact ⟨rfl, rfl, rfl⟩

/-- A step adds the record that the request is charged with, and none if there is none. -/
theorem records_step (g : Guard Memory Strikes) (r : Request) :
    ((g.step r).1 = .suppress true ∧ ∃ record, Charges g.ruleset? r record ∧
        (g.step r).2.sink.records = g.sink.records ++ [record]) ∨
      ((g.step r).1 ≠ .suppress true ∧ (∀ record, ¬ Charges g.ruleset? r record) ∧
        (g.step r).2.sink.records = g.sink.records) := by
  by_cases h : ∃ record, Charges g.ruleset? r record
  · obtain ⟨record, hrecord⟩ := h
    rw [step_of_charges hrecord]
    refine .inl ⟨rfl, record, hrecord, ?_⟩
    cases r <;> rfl
  · have hanswer : (g.step r).1 ≠ .suppress true := fun hs => h (step_eq_suppress_iff.1 hs)
    refine .inr ⟨hanswer, not_exists.1 h, ?_⟩
    rw [step_of_not_charges (not_exists.1 h), (pass_eq g r).2.1]

/-- A step counts what it answers. -/
theorem Counts.step {history : List (Request × Response)} (h : g.tally.Counts history) :
    (g.step r).2.tally.Counts (history ++ [(r, (g.step r).1)]) := by
  by_cases hc : ∃ record, Charges g.ruleset? r record
  · obtain ⟨record, hrecord⟩ := hc
    have htally : ((g.noted r).deny record).tally = g.tally.add record.actor := by
      cases r <;> rfl
    rw [step_of_charges hrecord, htally]
    exact h.add hrecord.clicker?_eq.1 hrecord.clicker?_eq.2 rfl
  · obtain ⟨hresponse, -, htally⟩ := pass_eq g r
    rw [step_of_not_charges (not_exists.1 hc), htally]
    cases hleaver : r.leaver? with
    | some name => exact h.drop hleaver hresponse
    | none => exact h.keep hleaver hresponse

theorem counts_after {history : List (Request × Response)} (h : g.tally.Counts history)
    (requests : List Request) :
    (g.after requests).tally.Counts (history ++ g.history requests) := by
  induction requests generalizing g history with
  | nil => simpa [Guard.history] using h
  | cons r requests ih =>
    have hrest := ih (Counts.step (r := r) h)
    rwa [List.append_assoc] at hrest

/-- The strikes of a name change only if the name clicks or leaves. -/
theorem count_step (g : Guard Memory Strikes) (r : Request) (name : String) :
    (r.leaver? = some name → (g.step r).2.tally.count name = 0) ∧
      (r.leaver? ≠ some name → r.clicker? ≠ some name →
        (g.step r).2.tally.count name = g.tally.count name) := by
  by_cases hc : ∃ record, Charges g.ruleset? r record
  · obtain ⟨record, hrecord⟩ := hc
    obtain ⟨hclicker, hleaver⟩ := hrecord.clicker?_eq
    have htally : ((g.noted r).deny record).tally = g.tally.add record.actor := by
      cases r <;> rfl
    rw [step_of_charges hrecord, htally, hleaver, hclicker, Strikes.count_add]
    refine ⟨fun h => absurd h (by simp), fun _ hname => ?_⟩
    rw [if_neg fun heq => hname (congrArg some heq)]
  · rw [step_of_not_charges (not_exists.1 hc), (pass_eq g r).2.2]
    cases hleaver : r.leaver? with
    | some other =>
      rw [Strikes.count_drop]
      refine ⟨fun h => by simp [Option.some.inj h], fun h _ => ?_⟩
      rw [if_neg fun heq => h (congrArg some heq)]
    | none => exact ⟨fun h => absurd h (by simp), fun _ _ => rfl⟩

/-- **Accounts after every run.** The next request adds the one record that it is charged with if it
is suppressed, and none otherwise. The strikes of a name are its denials since it last left, and the
names with strikes are those with denials. Only a click of the name itself adds to them, and only its
own departure clears them. -/
theorem accounts_after (registry : Registry) (files : Files) (requests : List Request) :
    let g₀ := start registry (⟨[]⟩ : Memory) Strikes.empty files
    let g := g₀.after requests
    let history := g₀.history requests
    (∀ r, ((g.step r).1 = .suppress true ∧ ∃ record, Charges g.ruleset? r record ∧
        (g.step r).2.sink.records = g.sink.records ++ [record]) ∨
      ((g.step r).1 ≠ .suppress true ∧ (∀ record, ¬ Charges g.ruleset? r record) ∧
        (g.step r).2.sink.records = g.sink.records)) ∧
    (∀ name, denials name history < UInt32.size →
      (g.tally.count name).toNat = denials name history) ∧
    (∃ names : List String, names.Nodup ∧ (∀ name, name ∈ names ↔ 0 < denials name history) ∧
      g.tally.tracked = names.length) ∧
    ∀ r name, (r.leaver? = some name → (g.step r).2.tally.count name = 0) ∧
      (r.leaver? ≠ some name → r.clicker? ≠ some name →
        (g.step r).2.tally.count name = g.tally.count name) := by
  intro g₀ g history
  -- the counter starts empty and counts every step
  have hcounts : g.tally.Counts history := counts_after (g := g₀) .empty requests
  refine ⟨records_step g, fun name hlt => ?_, hcounts.tracked_eq, count_step g⟩
  rw [hcounts.count_eq, Nat.mod_eq_of_lt hlt]

end Guard
end ItemGuard
