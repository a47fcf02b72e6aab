import ItemGuard.Guard.Reload

/-!
# Runs of a guard

A guard meets requests in any order: to load a blacklist, from a text or from a file, and to answer
clicks and departures, which the host may also hand over as events. Between two requests something
outside may change the files. `Guard.after` is the guard after a run, `Guard.history` what it was
asked and what it answered.

`Denies` says when a ruleset stops an actor, and `Charges` which record a request leads to under a
ruleset, if any. What a step does follows from that: a request that is charged is suppressed and
recorded (`step_of_charges`), any other passes (`step_of_not_charges`).
-/

namespace ItemGuard

open Audit (Record Sink)
open Storage (Files)

/-- The item has a rule that restricts the action to groups, and the actor is neither in one of them
nor in an exempt group. -/
def Denies (ruleset? : Option Ruleset) (action : Action) (item : ItemId) (actor : Actor) : Prop :=
  ∃ s rule groups, ruleset? = some s ∧ s.rule? item = some rule ∧
    rule.permitted action = some groups ∧
    (∀ group ∈ groups, actor.isIn group = false) ∧ ∀ group ∈ rule.exempt, actor.isIn group = false

/-- Why an action was denied, word for word: the item is named by the decimal digits of its code. -/
def denialText (item : ItemId) : Action → String
  | .destroy => "destroy of item " ++ toString item.val ++ " denied"
  | .leftClick => "left_click of item " ++ toString item.val ++ " denied"
  | .rightClick => "right_click of item " ++ toString item.val ++ " denied"

theorem denialReason_eq (action : Action) (item : ItemId) :
    Rule.denialReason action item = denialText item action := by
  unfold Rule.denialReason
  rw [ItemId.text_eq]
  cases action <;> rfl

def denial (now : Timestamp) (actor : Actor) (action : Action) (item : ItemId) : Record where
  time := now
  actor := actor.name
  item := item
  action := action
  reason := denialText item action

/-- What a guard meets. -/
inductive Request where
  | reload (text : String)
  | reloadPath (path : String)
  | rightClick (now : Timestamp) (actor : Actor) (placed clicked held : ItemId)
  | leftClick (now : Timestamp) (actor : Actor) (held target : ItemId)
  | disconnect (actor : Actor)
  /-- The host hands over an event. -/
  | event (now : Timestamp) (event : Event)
  /-- Something outside leaves other files behind. -/
  | outside (files : Files)

/-- What the host tells by an event. -/
def Event.request (now : Timestamp) : Event → Request
  | .blockPlace player placed clicked held =>
    .rightClick now ⟨player.name, player.isIn⟩ placed clicked held
  | .blockBreak player held target => .leftClick now ⟨player.name, player.isIn⟩ held target
  | .disconnect player => .disconnect ⟨player.name, player.isIn⟩

/-- The request leads to a denial with the record. A left click is charged with the held item if
that is enough, and otherwise with the target. -/
inductive Charges (ruleset? : Option Ruleset) : Request → Record → Prop where
  | rightClick {now actor placed clicked held} (h : Denies ruleset? .rightClick held actor) :
    Charges ruleset? (.rightClick now actor placed clicked held) (denial now actor .rightClick held)
  | leftClick {now actor held target} (h : Denies ruleset? .leftClick held actor) :
    Charges ruleset? (.leftClick now actor held target) (denial now actor .leftClick held)
  | destroy {now actor held target} (hheld : ¬ Denies ruleset? .leftClick held actor)
    (h : Denies ruleset? .destroy target actor) :
    Charges ruleset? (.leftClick now actor held target) (denial now actor .destroy target)
  | event {now event record} (h : Charges ruleset? (event.request now) record) :
    Charges ruleset? (.event now event) record

inductive Response where
  | loaded (outcome : Except Blacklist.LoadError Outcome)
  | suppress (answer : Bool)
  | silent

namespace Guard

variable {σ τ : Type}

section Consult

variable {g : Guard σ τ} {actor : Actor} {action : Action} {item : ItemId}

theorem denies_iff_allows :
    Denies g.ruleset? action item actor ↔
      ∃ rule, g.rule? item = some rule ∧ rule.allows action actor = false := by
  unfold Denies rule?
  constructor
  · rintro ⟨s, rule, groups, hs, hrule, hgroups, hin, hexempt⟩
    refine ⟨rule, by simp [hs, hrule], Rule.allows_eq_false_iff.2 ⟨groups, hgroups, ?_⟩⟩
    intro group hgroup
    rcases List.mem_append.1 hgroup with h | h
    · exact hin group h
    · exact hexempt group h
  · rintro ⟨rule, hrule, hallows⟩
    obtain ⟨s, hs, hrule⟩ := Option.bind_eq_some_iff.1 hrule
    obtain ⟨groups, hgroups, hall⟩ := Rule.allows_eq_false_iff.1 hallows
    exact ⟨s, rule, groups, hs, hrule, hgroups,
      fun group h => hall group (List.mem_append_left _ h),
      fun group h => hall group (List.mem_append_right _ h)⟩

variable [Sink σ] [Tally τ]

def deny (g : Guard σ τ) (record : Record) : Guard σ τ :=
  let w := Sink.write g.sink record g.files
  { g with
    sink := w.sink
    files := w.files
    tally := Tally.record g.tally record.actor
    log := g.log ++ w.report ++ [.denied record.actor record.reason] }

/-- A denial is recorded, reported and counted. -/
theorem consult_of_denies (now : Timestamp) (h : Denies g.ruleset? action item actor) :
    g.consult now actor action item = (true, g.deny (denial now actor action item)) := by
  obtain ⟨rule, hrule, hallows⟩ := denies_iff_allows.1 h
  have hjudge : rule.judge action item actor = .deny (denialText item action) := by
    rw [Rule.judge, hallows, denialReason_eq]
    rfl
  have hevaluate : rule.evaluate action item actor now g.sink g.files =
      let w := Sink.write g.sink (denial now actor action item) g.files
      ⟨.deny (denial now actor action item).reason, w.sink, w.files, w.report⟩ := by
    rw [Rule.evaluate, hjudge]
    rfl
  rw [consult, hrule]
  dsimp only
  rw [hevaluate]
  rfl

/-- Where no rule stops the actor, nothing changes. -/
theorem consult_of_not_denies (now : Timestamp) (h : ¬ Denies g.ruleset? action item actor) :
    g.consult now actor action item = (false, g) := by
  rw [consult]
  cases hrule : g.rule? item with
  | none => rfl
  | some rule =>
    have hallows : rule.allows action actor = true := by
      cases hallows : rule.allows action actor with
      | true => rfl
      | false => exact absurd (denies_iff_allows.2 ⟨rule, hrule, hallows⟩) h
    have hevaluate : rule.evaluate action item actor now g.sink g.files =
        ⟨.allow, g.sink, g.files, []⟩ := by
      rw [Rule.evaluate, Rule.judge, hallows]
      rfl
    dsimp only
    rw [hevaluate]
    simp

theorem consult_eq_true_iff {now : Timestamp} :
    (g.consult now actor action item).1 = true ↔ Denies g.ruleset? action item actor := by
  by_cases h : Denies g.ruleset? action item actor
  · simp [consult_of_denies now h, h]
  · simp [consult_of_not_denies now h, h]

theorem leftClick_of_denies {held target : ItemId} (now : Timestamp)
    (h : Denies g.ruleset? .leftClick held actor) :
    g.leftClick now actor held target = (true, g.deny (denial now actor .leftClick held)) := by
  rw [leftClick, consult_of_denies now h]

theorem leftClick_of_not_denies {held target : ItemId} (now : Timestamp)
    (h : ¬ Denies g.ruleset? .leftClick held actor) :
    g.leftClick now actor held target = g.consult now actor .destroy target := by
  rw [leftClick, consult_of_not_denies now h]

end Consult

variable [Sink σ] [Tally τ]

/-! ## Steps -/

/-- One step of a run. -/
def step (g : Guard σ τ) : Request → Response × Guard σ τ
  | .reload text =>
    let (outcome, g) := g.reload text
    (.loaded (.ok outcome), g)
  | .reloadPath path =>
    let (outcome, g) := g.reloadPath path
    (.loaded outcome, g)
  | .rightClick now actor placed clicked held =>
    let (answer, g) := g.rightClick now actor placed clicked held
    (.suppress answer, g)
  | .leftClick now actor held target =>
    let (answer, g) := g.leftClick now actor held target
    (.suppress answer, g)
  | .disconnect actor => (.silent, g.disconnect actor.name)
  | .event now event =>
    let (answer, g) := g.handle now event
    (.suppress answer, g)
  | .outside files => (.silent, { g with files := files })

/-- The guard after the arrival of an event is reported. -/
def noted (g : Guard σ τ) : Request → Guard σ τ
  | .event _ event => g.report [.event event.summary]
  | _ => g

/-- What a request does that is not charged. -/
def pass (g : Guard σ τ) : Request → Response × Guard σ τ
  | .reload text => (.loaded (.ok (g.reload text).1), (g.reload text).2)
  | .reloadPath path => (.loaded (g.reloadPath path).1, (g.reloadPath path).2)
  | .rightClick .. => (.suppress false, g)
  | .leftClick .. => (.suppress false, g)
  | .disconnect actor => (.silent, g.disconnect actor.name)
  | .event _ event =>
    (.suppress false,
      match event with
      | .disconnect player => (g.report [.event event.summary]).disconnect player.name
      | _ => g.report [.event event.summary])
  | .outside files => (.silent, { g with files := files })

theorem step_of_charges {g : Guard σ τ} {r : Request} {record : Record}
    (h : Charges g.ruleset? r record) :
    g.step r = (.suppress true, (g.noted r).deny record) := by
  generalize hs : g.ruleset? = ruleset? at h
  induction h generalizing g with
  | rightClick h =>
    subst hs
    simp only [step, rightClick, consult_of_denies _ h]
    rfl
  | leftClick h =>
    subst hs
    simp only [step, leftClick_of_denies _ h]
    rfl
  | destroy hheld h =>
    subst hs
    simp only [step, leftClick_of_not_denies _ hheld, consult_of_denies _ h]
    rfl
  | @event now event record h ih =>
    -- the guard that has reported the event takes the plain request in its place
    cases event with
    | blockPlace player placed clicked held => exact @ih (g.report [_]) hs
    | blockBreak player held target => exact @ih (g.report [_]) hs
    | disconnect player => cases h

theorem rightClick_of_not_charges {g : Guard σ τ} {now : Timestamp} {actor : Actor}
    {placed clicked held : ItemId}
    (h : ∀ record, ¬ Charges g.ruleset? (.rightClick now actor placed clicked held) record) :
    g.rightClick now actor placed clicked held = (false, g) :=
  consult_of_not_denies now fun hdenies => h _ (.rightClick hdenies)

theorem leftClick_of_not_charges {g : Guard σ τ} {now : Timestamp} {actor : Actor}
    {held target : ItemId}
    (h : ∀ record, ¬ Charges g.ruleset? (.leftClick now actor held target) record) :
    g.leftClick now actor held target = (false, g) := by
  have hheld : ¬ Denies g.ruleset? .leftClick held actor := fun hdenies => h _ (.leftClick hdenies)
  rw [leftClick_of_not_denies now hheld]
  exact consult_of_not_denies now fun hdenies => h _ (.destroy hheld hdenies)

theorem step_of_not_charges {g : Guard σ τ} {r : Request}
    (h : ∀ record, ¬ Charges g.ruleset? r record) : g.step r = g.pass r := by
  cases r with
  | rightClick now actor placed clicked held =>
    simp only [step, pass, rightClick_of_not_charges h]
  | leftClick now actor held target => simp only [step, pass, leftClick_of_not_charges h]
  | event now event =>
    have hnoted : ∀ record, ¬ Charges (g.report [.event event.summary]).ruleset?
        (event.request now) record := fun record hc => h record (.event hc)
    cases event with
    | blockPlace player placed clicked held =>
      simp only [step, pass, handle, Player.actor, rightClick_of_not_charges hnoted]
    | blockBreak player held target =>
      simp only [step, pass, handle, Player.actor, leftClick_of_not_charges hnoted]
    | disconnect player => rfl
  | _ => rfl

/-- A request is suppressed exactly if it is charged. -/
theorem step_eq_suppress_iff {g : Guard σ τ} {r : Request} :
    (g.step r).1 = .suppress true ↔ ∃ record, Charges g.ruleset? r record := by
  by_cases h : ∃ record, Charges g.ruleset? r record
  · obtain ⟨record, hrecord⟩ := h
    simp only [step_of_charges hrecord, true_iff]
    exact ⟨record, hrecord⟩
  · simp only [step_of_not_charges (not_exists.1 h), h, iff_false]
    cases r <;> simp [pass]

/-! ## Runs -/

def after (g : Guard σ τ) (requests : List Request) : Guard σ τ :=
  requests.foldl (fun g r => (g.step r).2) g

/-- The requests of a run with their responses. -/
def history (g : Guard σ τ) : List Request → List (Request × Response)
  | [] => []
  | r :: requests => (r, (g.step r).1) :: (g.step r).2.history requests

@[simp] theorem after_nil (g : Guard σ τ) : g.after [] = g := rfl

@[simp] theorem after_cons (g : Guard σ τ) (r : Request) (requests : List Request) :
    g.after (r :: requests) = (g.step r).2.after requests := rfl

end Guard
end ItemGuard
