import ItemGuard.Event.Basic
import ItemGuard.Item.Registry
import ItemGuard.Rule.Evaluation
import ItemGuard.Rule.Ruleset
import ItemGuard.Strikes

/-!
# The guard

The guard keeps the ruleset in force and answers the host's events: an answer `true` asks the host
to suppress what the player is about to do. A right click asks the rule of the held item; a left
click asks the rule of the held item first and then the rule of the target. Every denial is
audited, reported and recorded in the tally, in this order.

The files of the system and the diagnostics reported so far are part of the guard's state, because
sinks write files and blacklists are read from them.
-/

namespace ItemGuard

open Audit (Sink)
open Storage (Files)

/-- A guard with a sink for records and a tally of the actors. -/
structure Guard (σ τ : Type) where
  /-- Answers the names in blacklists. -/
  registry : Registry
  /-- The ruleset in force, if there is one. -/
  ruleset? : Option Ruleset
  sink : σ
  tally : τ
  files : Files
  /-- The diagnostics so far, the first one first. -/
  log : List Diagnostic

namespace Guard

variable {σ τ : Type}

/-- A guard without a ruleset. -/
def start (registry : Registry) (sink : σ) (tally : τ) (files : Files) : Guard σ τ :=
  ⟨registry, none, sink, tally, files, []⟩

def withSink {σ' : Type} (g : Guard σ τ) (sink : σ') : Guard σ' τ :=
  ⟨g.registry, g.ruleset?, sink, g.tally, g.files, g.log⟩

def withTally {τ' : Type} (g : Guard σ τ) (tally : τ') : Guard σ τ' :=
  ⟨g.registry, g.ruleset?, g.sink, tally, g.files, g.log⟩

def report (g : Guard σ τ) (diagnostics : List Diagnostic) : Guard σ τ :=
  { g with log := g.log ++ diagnostics }

def isActive (g : Guard σ τ) : Bool :=
  g.ruleset?.isSome

def itemCount (g : Guard σ τ) : Nat :=
  (g.ruleset?.map Ruleset.size).getD 0

def rule? (g : Guard σ τ) (item : ItemId) : Option Rule :=
  g.ruleset?.bind fun s => s.rule? item

variable [Sink σ] [Tally τ]

/-- Asks the rule of an item whether the actor may act; answers whether to suppress the action. -/
def consult (g : Guard σ τ) (now : Timestamp) (actor : Actor) (action : Action) (item : ItemId) :
    Bool × Guard σ τ :=
  match g.rule? item with
  | none => (false, g)
  | some rule =>
    let e := rule.evaluate action item actor now g.sink g.files
    let g := { g with sink := e.sink, files := e.files, log := g.log ++ e.log }
    match e.verdict with
    | .allow => (false, g)
    | .deny reason =>
      (true, { g.report [.denied actor.name reason] with
        tally := Tally.record g.tally actor.name })

/-- A right click with the held item on a block, which would place a block. -/
def rightClick (g : Guard σ τ) (now : Timestamp) (actor : Actor) (_placed _clicked held : ItemId) :
    Bool × Guard σ τ :=
  g.consult now actor .rightClick held

/-- A left click with the held item on the target block. -/
def leftClick (g : Guard σ τ) (now : Timestamp) (actor : Actor) (held target : ItemId) :
    Bool × Guard σ τ :=
  match g.consult now actor .leftClick held with
  -- One denial is enough: the target is not asked, so there is one record and one strike.
  | (true, g) => (true, g)
  | (false, g) => g.consult now actor .destroy target

/-- The named actor leaves. -/
def disconnect (g : Guard σ τ) (name : String) : Guard σ τ :=
  { g with tally := Tally.forget g.tally name }

def handle (g : Guard σ τ) (now : Timestamp) (event : Event) : Bool × Guard σ τ :=
  let g := g.report [.event event.summary]
  match event with
  | .blockPlace player placed clicked held =>
    g.rightClick now player.actor placed clicked held
  | .blockBreak player held target => g.leftClick now player.actor held target
  | .disconnect player => (false, g.disconnect player.name)

end Guard
end ItemGuard
