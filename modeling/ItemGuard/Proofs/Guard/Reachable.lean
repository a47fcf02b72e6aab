import ItemGuard.Guard.Start
import ItemGuard.Proofs.Blacklist.Ownership
import ItemGuard.Proofs.Guard.Decisions

/-!
# Rulesets in force

However a guard comes about, the ruleset in force is that of some blacklist, or there is none
(`Reachable.exists_read`). So all that holds of the ruleset of a blacklist holds of the one in force
(`canonical_of_reachable`).
-/

namespace ItemGuard.Guard

open Audit (Discard Sink)
open Blacklist (Binds Line Owns binds_iff draftOf read rule?_draftOf_eq_none_iff rule?_read)
open Storage (Files)
open Text (lines)

/-- A guard that starts without a blacklist or from settings, may get another sink and another tally,
and meets requests. -/
inductive Reachable : ∀ {σ τ : Type}, Guard σ τ → Prop where
  | start {σ τ : Type} (registry : Registry) (sink : σ) (tally : τ) (files : Files) :
    Reachable (Guard.start registry sink tally files)
  | ofSettings (settings : Settings) (env : Environment) (files : Files) :
    Reachable (Guard.ofSettings settings env files)
  | withSink {σ σ' τ : Type} {g : Guard σ τ} (sink : σ') (h : Reachable g) :
    Reachable (g.withSink sink)
  | withTally {σ τ τ' : Type} {g : Guard σ τ} (tally : τ') (h : Reachable g) :
    Reachable (g.withTally tally)
  | step {σ τ : Type} [Sink σ] [Tally τ] {g : Guard σ τ} (r : Request) (h : Reachable g) :
    Reachable (g.step r).2

variable {σ τ : Type}

/-- Starting from settings loads the blacklist as any other load of a file does. -/
theorem ruleset?_ofSettings (settings : Settings) (env : Environment) (files : Files) :
    (ofSettings settings env files).ruleset? = none ∨
      ∃ registry text, (ofSettings settings env files).ruleset? = (read registry text).ruleset? := by
  unfold ofSettings
  dsimp only
  generalize hg : Guard.report _ _ = g
  have hnone : g.ruleset? = none := by
    rw [← hg]
    rfl
  cases hread : g.files.readText (settings.blacklistPath env) with
  | ok text =>
    rw [reloadPath_of_ok hread]
    exact .inr ⟨g.registry, text, rfl⟩
  | error failure =>
    rw [reloadPath_of_error hread]
    exact .inl hnone

/-- The ruleset in force is that of some blacklist. -/
theorem Reachable.exists_read {g : Guard σ τ} (h : Reachable g) {s : Ruleset}
    (hs : g.ruleset? = some s) : ∃ registry text, (read registry text).ruleset? = some s := by
  induction h with
  | start => cases hs
  | ofSettings settings env files =>
    rcases ruleset?_ofSettings settings env files with hnone | ⟨registry, text, hread⟩
    · rw [hnone] at hs
      cases hs
    · exact ⟨registry, text, hread.symm.trans hs⟩
  | withSink sink h ih => exact ih hs
  | withTally tally h ih => exact ih hs
  | @step _ _ _ _ g r h ih =>
    rw [ruleset?_step] at hs
    cases hloads : g.loads? r with
    | none =>
      rw [hloads] at hs
      exact ih hs
    | some text =>
      rw [hloads] at hs
      exact ⟨g.registry, text, hs⟩

/-- What a load reports is in force behind it. -/
theorem outcome_step [Sink σ] [Tally τ] {g : Guard σ τ} {r : Request} {outcome : Outcome}
    (h : (g.step r).1 = .loaded (.ok outcome)) :
    outcome.items = (g.step r).2.itemCount ∧
      outcome.rules = ((g.step r).2.ruleset?.map Ruleset.ruleCount).getD 0 := by
  by_cases hcharges : ∃ record, Charges g.ruleset? r record
  · obtain ⟨record, hrecord⟩ := hcharges
    rw [step_of_charges hrecord] at h
    cases h
  · rw [step_of_not_charges (not_exists.1 hcharges)] at h ⊢
    cases r with
    | reload text =>
      cases h
      exact ⟨rfl, rfl⟩
    | reloadPath path =>
      cases hread : g.files.readText path with
      | ok text =>
        simp only [pass, reloadPath_of_ok hread] at h ⊢
        cases h
        exact ⟨rfl, rfl⟩
      | error failure =>
        simp only [pass, reloadPath_of_error hread] at h
        cases h
    | _ => cases h

/-- **Well-formed rulesets.** The ruleset of a blacklist has an item, its slots follow the header
lines that own them, without a gap, and aliases are the items of one slot. Hence every guard is active
exactly if some item has a rule, finds a rule in every slot that it looks up, and reports of every
blacklist that it loads what is in force from then on. -/
theorem canonical_of_reachable :
    (∀ registry text s, (read registry text).ruleset? = some s →
      s.Canonical (Owns registry (lines text.toList))) ∧
    ∀ {σ τ : Type} (g : Guard σ τ), Reachable g →
      (g.isActive = true ↔ 0 < g.itemCount) ∧
      (∀ s item n, g.ruleset? = some s → s.slot? item = some n →
        n < s.ruleCount ∧ (g.rule? item).isSome) ∧
      ∀ [Sink σ] [Tally τ] (r : Request) (outcome : Outcome),
        (g.step r).1 = .loaded (.ok outcome) →
        outcome.items = (g.step r).2.itemCount ∧
          outcome.rules = ((g.step r).2.ruleset?.map Ruleset.ruleCount).getD 0 := by
  refine ⟨fun registry text s hs => Blacklist.canonical_read hs, fun g hg => ⟨?_, ?_, ?_⟩⟩
  · unfold isActive itemCount
    cases hs : g.ruleset? with
    | none => simp
    | some s =>
      obtain ⟨registry, text, hread⟩ := hg.exists_read hs
      simpa using (Blacklist.canonical_read hread).size_pos
  · intro s item n hs hn
    obtain ⟨registry, text, hread⟩ := hg.exists_read hs
    have hlt := (Blacklist.canonical_read hread).slot_lt item n hn
    refine ⟨hlt, ?_⟩
    rw [rule?, hs, Option.bind_some, Ruleset.rule?, hn, Option.bind_some]
    exact Option.isSome_iff_exists.2 ⟨_, List.getElem?_eq_getElem hlt⟩
  · intro _ _ r outcome h
    exact outcome_step h

/-- Both items of the first header go to the last one, and the slots close up. -/
theorem canonical_of_reachable_takeover :
    let registry : Registry := fun _ => none
    let text := "[1,2]\non-left=mods\n[3]\n[2,1]"
    let g := start registry Discard.discard () (Files.emptyAt [])
    let after := (g.step (.reload text)).2
    (∃ s, after.ruleset? = some s ∧ s.Canonical (Owns registry (lines text.toList)) ∧
      ∀ item n, s.slot? item = some n → n < s.ruleCount) ∧
    after.isActive = true ∧ (g.reload text).1.items = after.itemCount := by
  intro registry text g after
  obtain ⟨hcanonical, hguards⟩ := canonical_of_reachable
  have hreachable : Reachable after := .step (.reload text) (.start _ _ _ _)
  obtain ⟨-, hslots, -⟩ := hguards after hreachable
  have hload := (hguards g (.start _ _ _ _)).2.2 (.reload text) (g.reload text).1 rfl
  have htokens : Line.ofText "[3]".toList = .header ["3".toList] := by decide
  have hbinds : Binds registry "[3]".toList (.ofNat 3) := binds_iff.2 ⟨_, htokens, by decide⟩
  have hread : after.ruleset? = (read registry text).ruleset? := rfl
  cases hs : after.ruleset? with
  | none =>
    have hrule : (draftOf registry (lines text.toList)).rule? (.ofNat 3) = none := by
      have h : (after.ruleset?.any fun s => s.contains (.ofNat 3)) =
          ((draftOf registry (lines text.toList)).rule? (.ofNat 3)).isSome := (rule?_read text).2
      rw [hs] at h
      simpa using h
    exact absurd hbinds (rule?_draftOf_eq_none_iff.1 hrule _ (by decide))
  | some s =>
    have hs' := hcanonical registry text s (hread.symm.trans hs)
    refine ⟨⟨s, rfl, hs', fun item n hn => (hslots s item n hs hn).1⟩, ?_, hload.1⟩
    simp [isActive, hs]

end ItemGuard.Guard
