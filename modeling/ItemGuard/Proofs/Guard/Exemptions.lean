import ItemGuard.Proofs.Guard.Decisions
import Mathlib.Data.List.Forall2

/-!
# Groups that let players through

A guard asks of a player's groups only whether a rule names one of them, up to the case of letters.
So a player is let through wherever one with fewer groups is, and under rules that name more groups
nobody is stopped who was not stopped before (`answers_antitone`). The order in which groups are
listed, how often, and in which case, has no effect on any answer.
-/

namespace ItemGuard

open Audit (Sink)
open Storage (Files)

/-- Every group of the first list is in the second one, up to the case of letters. -/
def GroupsWithin (groups groups' : List String) : Prop :=
  ∀ group ∈ groups, ∃ group' ∈ groups', Text.foldCase group' = Text.foldCase group

/-- The lists have the same groups, up to the case of letters. -/
def SameGroups (groups groups' : List String) : Prop :=
  GroupsWithin groups groups' ∧ GroupsWithin groups' groups

theorem GroupsWithin.refl (groups : List String) : GroupsWithin groups groups :=
  fun group hgroup => ⟨group, hgroup, rfl⟩

/-! ## Players -/

namespace Player

variable {p q : Player}

theorem isIn_of_within {group group' : String} (hgroups : GroupsWithin p.groups q.groups)
    (hcase : Text.foldCase group' = Text.foldCase group) (h : p.isIn group = true) :
    q.isIn group' = true := by
  obtain ⟨own, hown, hgroup⟩ := isIn_iff.1 h
  obtain ⟨other, hother, hsame⟩ := hgroups own hown
  exact isIn_iff.2 ⟨other, hother, hsame.trans (hgroup.trans hcase.symm)⟩

/-- Who is in none of some groups is in none of fewer groups, and neither is who has fewer. -/
theorem notIn_of_within {groups groups' : List String} (hlists : GroupsWithin groups groups')
    (hgroups : GroupsWithin p.groups q.groups) (h : ∀ group ∈ groups', q.isIn group = false) :
    ∀ group ∈ groups, p.isIn group = false := by
  intro group hgroup
  obtain ⟨group', hgroup', hcase⟩ := hlists group hgroup
  refine Bool.eq_false_iff.2 fun hin => ?_
  exact Bool.eq_false_iff.1 (h group' hgroup') (isIn_of_within hgroups hcase hin)

end Player

/-! ## Rules -/

theorem exists_of_rel_some {α β : Type} {R : α → β → Prop} {a? : Option α} {b : β}
    (h : Option.Rel R a? (some b)) : ∃ a, a? = some a ∧ R a b := by
  cases h with
  | some h => exact ⟨_, rfl, h⟩

theorem rel_getElem? {α β : Type} {R : α → β → Prop} {as : List α} {bs : List β}
    (h : List.Forall₂ R as bs) (n : Nat) : Option.Rel R as[n]? bs[n]? := by
  induction h generalizing n with
  | nil => exact .none
  | cons hab _ ih =>
    cases n with
    | zero => exact .some hab
    | succ n => exact ih n

/-- The other rule restricts the same actions, and every list of groups in it has the groups that
the list has in this one. -/
structure Rule.Widens (r r' : Rule) : Prop where
  exempt : GroupsWithin r.exempt r'.exempt
  permitted : ∀ action, Option.Rel GroupsWithin (r.permitted action) (r'.permitted action)

/-- The same items have rules, and those in the other ruleset name at least the same groups. -/
def Ruleset.Widens (s s' : Ruleset) : Prop :=
  ∀ item, Option.Rel Rule.Widens (s.rule? item) (s'.rule? item)

/-- Rules may be widened in their slots. -/
theorem Ruleset.widens_of_rules {s s' : Ruleset} (hslots : s.slots = s'.slots)
    (hrules : List.Forall₂ Rule.Widens s.rules s'.rules) : s.Widens s' := by
  intro item
  unfold rule? slot?
  rw [hslots]
  cases s'.slots[item]? with
  | none => exact .none
  | some n => exact rel_getElem? hrules n

section Denies

variable {action : Action} {item : ItemId}

theorem Denies.of_within {ruleset? : Option Ruleset} {p q : Player}
    (hgroups : GroupsWithin p.groups q.groups) (h : Denies ruleset? action item q.actor) :
    Denies ruleset? action item p.actor := by
  obtain ⟨s, rule, groups, hs, hrule, hpermitted, hnotIn, hnotExempt⟩ := h
  exact ⟨s, rule, groups, hs, hrule, hpermitted,
    Player.notIn_of_within (.refl groups) hgroups hnotIn,
    Player.notIn_of_within (.refl rule.exempt) hgroups hnotExempt⟩

theorem Denies.of_widens {s s' : Ruleset} {p : Player} (hs : s.Widens s')
    (h : Denies (some s') action item p.actor) : Denies (some s) action item p.actor := by
  obtain ⟨_, rule', groups', ⟨⟩, hrule', hpermitted', hnotIn, hnotExempt⟩ := h
  have hrules := hs item
  rw [hrule'] at hrules
  obtain ⟨rule, hrule, hwidens⟩ := exists_of_rel_some hrules
  have hlists := hwidens.permitted action
  rw [hpermitted'] at hlists
  obtain ⟨groups, hpermitted, hwithin⟩ := exists_of_rel_some hlists
  exact ⟨s, rule, groups, rfl, hrule, hpermitted,
    Player.notIn_of_within hwithin (.refl p.groups) hnotIn,
    Player.notIn_of_within hwidens.exempt (.refl p.groups) hnotExempt⟩

end Denies

/-! ## Events -/

/-- The event with another player in it. -/
def Event.by (e : Event) (player : Player) : Event :=
  match e with
  | .blockPlace _ placed clicked held => .blockPlace player placed clicked held
  | .blockBreak _ held target => .blockBreak player held target
  | .disconnect _ => .disconnect player

/-- A rule stops the player of the event. -/
def Event.Stopped (ruleset? : Option Ruleset) : Event → Prop
  | .blockPlace player _ _ held => Denies ruleset? .rightClick held player.actor
  | .blockBreak player held target =>
    Denies ruleset? .leftClick held player.actor ∨ Denies ruleset? .destroy target player.actor
  | .disconnect _ => False

theorem Event.Stopped.of_within {ruleset? : Option Ruleset} {p q : Player} {e : Event}
    (hgroups : GroupsWithin p.groups q.groups) (h : (e.by q).Stopped ruleset?) :
    (e.by p).Stopped ruleset? := by
  cases e with
  | blockPlace => exact Denies.of_within hgroups h
  | blockBreak =>
    rcases h with hheld | htarget
    · exact .inl (hheld.of_within hgroups)
    · exact .inr (htarget.of_within hgroups)
  | disconnect => exact h

theorem Event.Stopped.of_widens {s s' : Ruleset} {e : Event} (hs : s.Widens s')
    (h : e.Stopped (some s')) : e.Stopped (some s) := by
  cases e with
  | blockPlace => exact Denies.of_widens hs h
  | blockBreak =>
    rcases h with hheld | htarget
    · exact .inl (hheld.of_widens hs)
    · exact .inr (htarget.of_widens hs)
  | disconnect => exact h

namespace Guard

variable {σ τ : Type} [Sink σ] [Tally τ]

theorem handle_eq_true_iff {g : Guard σ τ} {now : Timestamp} {e : Event} :
    (g.handle now e).1 = true ↔ e.Stopped g.ruleset? := by
  have hself := enforces_self g
  cases e with
  | blockPlace player placed clicked held => exact hself.blockPlace_iff ..
  | blockBreak player held target => exact hself.blockBreak_iff ..
  | disconnect player => simp [hself.disconnect_eq, Event.Stopped]

/-- The guard with another ruleset in force. -/
def enforcing (g : Guard σ τ) (s : Ruleset) : Guard σ τ :=
  { g with ruleset? := some s }

/-- **More groups stop nobody.** A player each of whose groups another player has, up to the case of
letters, is stopped wherever that other player is. If lists of groups are replaced by lists that
have the same groups and perhaps more, nothing is suppressed that was not suppressed before. So the
answer stays the same if groups are listed in another order, more than once or in another case, by
players or by rules. -/
theorem answers_antitone (g : Guard σ τ) (now : Timestamp) (e : Event) :
    (∀ p q : Player, GroupsWithin p.groups q.groups →
      (g.handle now (e.by q)).1 = true → (g.handle now (e.by p)).1 = true) ∧
    (∀ s s' : Ruleset, s.Widens s' →
      ((g.enforcing s').handle now e).1 = true → ((g.enforcing s).handle now e).1 = true) ∧
    (∀ p q : Player, SameGroups p.groups q.groups →
      (g.handle now (e.by q)).1 = (g.handle now (e.by p)).1) ∧
    ∀ s s' : Ruleset, s.Widens s' → s'.Widens s →
      ((g.enforcing s').handle now e).1 = ((g.enforcing s).handle now e).1 := by
  have hplayers : ∀ p q : Player, GroupsWithin p.groups q.groups →
      (g.handle now (e.by q)).1 = true → (g.handle now (e.by p)).1 = true := by
    intro p q hgroups hq
    rw [handle_eq_true_iff] at hq ⊢
    exact hq.of_within hgroups
  have hrules : ∀ s s' : Ruleset, s.Widens s' →
      ((g.enforcing s').handle now e).1 = true → ((g.enforcing s).handle now e).1 = true := by
    intro s s' hs hs'
    rw [handle_eq_true_iff] at hs' ⊢
    exact hs'.of_widens hs
  refine ⟨hplayers, hrules, fun p q hgroups => ?_, fun s s' hs hs' => ?_⟩
  · exact Bool.eq_iff_iff.2 ⟨hplayers p q hgroups.1, hplayers q p hgroups.2⟩
  · exact Bool.eq_iff_iff.2 ⟨hrules s s' hs, hrules s' s hs'⟩

/-- A player who is stopped under rules that let builders, staff and moderators through. A player
without groups is stopped as well, and so is each of them under rules that name fewer groups. -/
theorem answers_antitone_guests :
    let rule := (Rule.unrestricted.restrict .destroy ["Builders"]).setExempt ["mods"]
    let wider := (Rule.unrestricted.restrict .destroy ["staff", "BUILDERS"]).setExempt ["Mods"]
    let s : Ruleset := ⟨[rule], Std.ExtTreeMap.ofList [((⟨7⟩ : ItemId), 0)]⟩
    let s' : Ruleset := ⟨[wider], Std.ExtTreeMap.ofList [((⟨7⟩ : ItemId), 0)]⟩
    let g := (start (fun _ => none) Audit.Discard.discard () (Files.emptyAt [])).enforcing s'
    let e : Event := .blockBreak ⟨"alex", ["guests", "new"]⟩ ⟨278⟩ ⟨7⟩
    (g.handle ⟨0, 0⟩ e).1 = true ∧ (g.handle ⟨0, 0⟩ (e.by ⟨"steve", []⟩)).1 = true ∧
      ((g.enforcing s).handle ⟨0, 0⟩ e).1 = true ∧
      (g.handle ⟨0, 0⟩ (e.by ⟨"alex", ["New", "GUESTS", "new"]⟩)).1 = true ∧
      s.Widens s' := by
  intro rule wider s s' g e
  have hstopped : (g.handle ⟨0, 0⟩ e).1 = true := by decide +kernel
  have hwidens : s.Widens s' := by
    refine Ruleset.widens_of_rules rfl (.cons ⟨?_, fun action => ?_⟩ .nil)
    · unfold GroupsWithin
      decide +kernel
    · cases action with
      | destroy =>
        refine .some ?_
        unfold GroupsWithin
        decide +kernel
      | leftClick => exact .none
      | rightClick => exact .none
  obtain ⟨hplayers, hrules, hsame, -⟩ := answers_antitone g ⟨0, 0⟩ e
  have hnone : GroupsWithin [] ["guests", "new"] := fun _ hgroup => absurd hgroup List.not_mem_nil
  have hagain : SameGroups ["New", "GUESTS", "new"] ["guests", "new"] := by
    unfold SameGroups GroupsWithin
    decide +kernel
  refine ⟨hstopped, hplayers ⟨"steve", []⟩ ⟨"alex", ["guests", "new"]⟩ hnone hstopped,
    hrules s s' hwidens hstopped, ?_, hwidens⟩
  exact (hsame ⟨"alex", _⟩ ⟨"alex", _⟩ hagain).symm.trans hstopped

end Guard
end ItemGuard
