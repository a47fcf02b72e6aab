import ItemGuard.Proofs.Event.Decoding
import ItemGuard.Proofs.Guard.Decisions

/-!
# Events and direct calls

A host may hand over an event in JSON or call the guard itself. However the event is spelled, the
guard does the same (`handle_of_spells`), but for the report that an event has arrived.
-/

namespace ItemGuard.Guard

open Audit (Sink)
open Json (Blanks Joined SpellsMember SpellsScalar SpellsValue Value valuesOf)

variable {σ τ : Type} [Sink σ] [Tally τ]

/-- What the host can call itself in place of handing over an event. -/
def direct (g : Guard σ τ) (now : Timestamp) : Event → Bool × Guard σ τ
  | .blockPlace player placed clicked held => g.rightClick now player.actor placed clicked held
  | .blockBreak player held target => g.leftClick now player.actor held target
  | .disconnect player => (false, g.disconnect player.name)

section

variable (g : Guard σ τ) (now : Timestamp) (log : List Diagnostic)

/-- What was reported before a denial has no part in it. -/
theorem deny_withLog (record : Audit.Record) :
    ∃ more, (g.deny record).log = g.log ++ more ∧
      (g.withLog log).deny record = (g.deny record).withLog (log ++ more) := by
  refine ⟨(Sink.write g.sink record g.files).report ++ [.denied record.actor record.reason], ?_, ?_⟩
  · exact List.append_assoc _ _ _
  · rw [← List.append_assoc]
    rfl

theorem consult_withLog (actor : Actor) (action : Action) (item : ItemId) :
    ∃ more, (g.consult now actor action item).2.log = g.log ++ more ∧
      (g.withLog log).consult now actor action item =
        ((g.consult now actor action item).1,
          (g.consult now actor action item).2.withLog (log ++ more)) := by
  by_cases h : Denies g.ruleset? action item actor
  · have h' : Denies (g.withLog log).ruleset? action item actor := h
    obtain ⟨more, hlog, hdeny⟩ := g.deny_withLog log (denial now actor action item)
    rw [consult_of_denies now h, consult_of_denies now h', hdeny]
    exact ⟨more, hlog, rfl⟩
  · have h' : ¬ Denies (g.withLog log).ruleset? action item actor := h
    rw [consult_of_not_denies now h, consult_of_not_denies now h']
    exact ⟨[], (List.append_nil _).symm, by rw [List.append_nil]⟩

theorem direct_withLog (e : Event) :
    ∃ more, (g.direct now e).2.log = g.log ++ more ∧
      (g.withLog log).direct now e =
        ((g.direct now e).1, (g.direct now e).2.withLog (log ++ more)) := by
  cases e with
  | blockPlace player placed clicked held => exact g.consult_withLog now log player.actor _ held
  | blockBreak player held target =>
    unfold direct
    dsimp only
    by_cases h : Denies g.ruleset? .leftClick held player.actor
    · have h' : Denies (g.withLog log).ruleset? .leftClick held player.actor := h
      obtain ⟨more, hlog, hdeny⟩ := g.deny_withLog log (denial now player.actor .leftClick held)
      rw [leftClick_of_denies now h, leftClick_of_denies now h', hdeny]
      exact ⟨more, hlog, rfl⟩
    · have h' : ¬ Denies (g.withLog log).ruleset? .leftClick held player.actor := h
      rw [leftClick_of_not_denies now h, leftClick_of_not_denies now h']
      exact g.consult_withLog now log player.actor .destroy target
  | disconnect player =>
    refine ⟨[], (List.append_nil _).symm, ?_⟩
    rw [List.append_nil]
    rfl

end

/-- **Events and direct calls.** A text that spells an event is read as the event. Handing the event
over gives the answer of the direct call and leaves the guard as that does, with the event among the
diagnostics before those of the call. -/
theorem handle_of_spells (e : Event) (text : String) (h : e.Spells text.toList) :
    Event.ofJson text = .ok e ∧
      ∀ {σ τ : Type} [Sink σ] [Tally τ] (g : Guard σ τ) (now : Timestamp),
        let call := g.direct now e
        ∃ more, call.2.log = g.log ++ more ∧
          g.handle now e = (call.1, call.2.withLog (g.log ++ .event e.summary :: more)) := by
  refine ⟨Event.ofJson_of_spells h, ?_⟩
  intro σ τ _ _ g now call
  obtain ⟨more, hlog, hdirect⟩ := g.direct_withLog now (g.log ++ [.event e.summary]) e
  have hhandle : g.handle now e = (g.withLog (g.log ++ [.event e.summary])).direct now e := by
    cases e <;> rfl
  refine ⟨more, hlog, ?_⟩
  rw [hhandle, hdirect, List.append_assoc, List.singleton_append]

/-- The fields of this text are out of order, one of them is unknown and the name has an escape. -/
theorem handle_of_spells_out_of_order :
    let e : Event := .blockBreak ⟨"steve", []⟩ ⟨278⟩ ⟨7⟩
    let text := "\x7b\"target\":7,\"x\":[null],\"player\":\x7b\"name\":\"st\\u0065ve\"\x7d," ++
      "\"held\" :278,\"event\":\"block_break\"\x7d"
    e.Spells text.toList ∧ Event.ofJson text = .ok e := by
  intro e text
  let value := SpellsValue (Json.maxDepth - 1)
  have hnone := Json.blanks_nil
  have hspace : Blanks [' '] := fun c hc => by
    obtain rfl := List.mem_singleton.1 hc
    rfl
  have htarget : SpellsMember value _ ("target", .number (.integer 7)) :=
    .mk (Json.spells_self rfl) hnone hnone ((Json.spellsScalar_decimal ⟨7⟩).value _)
  have hheld : SpellsMember value _ ("held", .number (.integer 278)) :=
    .mk (Json.spells_self rfl) hspace hnone ((Json.spellsScalar_decimal ⟨278⟩).value _)
  have hunknown : SpellsMember value _ ("x", .array [.null]) :=
    .mk (Json.spells_self rfl) hnone hnone
      (.inr (.array (.joined (.single hnone (SpellsScalar.null.value 125) hnone))))
  have hevent : SpellsMember value _ ("event", .string "block_break") :=
    .mk (Json.spells_self rfl) hnone hnone ((SpellsScalar.string (Json.spells_self rfl)).value _)
  have hunit : Json.IsUnit ['0', '0', '6', '5'] 'e'.toNat := ⟨rfl, rfl⟩
  have hsteve : Json.Spells _ ('s' :: 't' :: 'e' :: "ve".toList) :=
    .cons (.self (by decide) (by decide) (by decide)) <|
      .cons (.self (by decide) (by decide) (by decide)) <|
        .cons (.unit hunit) (Json.spells_self rfl)
  have hname : SpellsMember (SpellsValue 125) _ ("name", .string "steve") :=
    .mk (Json.spells_self rfl) hnone hnone ((SpellsScalar.string hsteve).value 125)
  have hplayer : SpellsMember value _ ("player", .object [("name", .string "steve")]) :=
    .mk (Json.spells_self rfl) hnone hnone
      (.inr (.object (.joined (.single hnone hname hnone))))
  have hspells : e.Spells text.toList := by
    have hfields := Joined.cons hnone htarget hnone <| .cons hnone hunknown hnone <|
      .cons hnone hplayer hnone <| .cons hnone hheld hnone <| .single hnone hevent hnone
    have hplayer : DescribesPlayer e.player (.object [("name", .string "steve")]) :=
      .object rfl (.inr ⟨rfl, rfl⟩)
    have hdescribes : e.Describes [("target", .number (.integer 7)), ("x", .array [.null]),
        ("player", .object [("name", .string "steve")]), ("held", .number (.integer 278)),
        ("event", .string "block_break")] := by
      refine ⟨rfl, ⟨_, rfl, hplayer⟩, ?_⟩
      intro name item hitem
      simp only [e, Event.itemsOf, List.mem_cons, Prod.mk.injEq, List.not_mem_nil,
        or_false] at hitem
      rcases hitem with ⟨rfl, rfl⟩ | ⟨rfl, rfl⟩
      iterate 2 rfl
    have hobject := Event.Spells.object hnone (.joined hfields) hnone hdescribes
    refine Eq.mp (congrArg e.Spells ?_) hobject
    decide +kernel
  exact ⟨hspells, (handle_of_spells e text hspells).1⟩

end ItemGuard.Guard
