/-!
# Scanning

`scan` reads a text in steps. A step looks at the text that is left and either stops with a result
or goes on with a new state. A scan takes at most one step more than the text has characters, which
is enough where every step that goes on reads something: `scan_done` and `scan_more` say how the
result of a scan follows from its first step.
-/

namespace ItemGuard.Text

/-- The outcome of one step. -/
inductive Step (σ α : Type) where
  | more (state : σ) (rest : List Char)
  | done (result : α) (rest : List Char)

variable {ε σ α : Type}

/-- Takes at most so many steps from a state. -/
def scanWithin (stuck : ε) (step : σ → List Char → Except ε (Step σ α)) :
    Nat → σ → List Char → Except ε (α × List Char)
  | 0, _, _ => .error stuck
  | n + 1, state, cs =>
    match step state cs with
    | .error e => .error e
    | .ok (.done result rest) => .ok (result, rest)
    | .ok (.more state rest) => scanWithin stuck step n state rest

/-- Takes steps from a state until one stops. -/
def scan (stuck : ε) (step : σ → List Char → Except ε (Step σ α)) (state : σ) (cs : List Char) :
    Except ε (α × List Char) :=
  scanWithin stuck step (cs.length + 1) state cs

section

variable {stuck : ε} {step : σ → List Char → Except ε (Step σ α)}

/-- A scan that ends does so with every larger number of steps. -/
theorem scanWithin_mono {n m : Nat} {state : σ} {cs : List Char} {r : α × List Char}
    (h : scanWithin stuck step n state cs = .ok r) (hnm : n ≤ m) :
    scanWithin stuck step m state cs = .ok r := by
  induction n generalizing m state cs with
  | zero => simp [scanWithin] at h
  | succ n ih =>
    obtain ⟨m, rfl⟩ : ∃ k, m = k + 1 := ⟨m - 1, by omega⟩
    rw [scanWithin] at h ⊢
    split at h
    · exact h
    · exact h
    · exact ih h (by omega)

theorem scan_done {state : σ} {cs rest : List Char} {result : α}
    (h : step state cs = .ok (.done result rest)) :
    scan stuck step state cs = .ok (result, rest) := by
  rw [scan, scanWithin, h]

theorem scan_more {state next : σ} {cs rest : List Char} {r : α × List Char}
    (h : step state cs = .ok (.more next rest)) (hlt : rest.length < cs.length)
    (hr : scan stuck step next rest = .ok r) : scan stuck step state cs = .ok r := by
  rw [scan, scanWithin, h]
  exact scanWithin_mono hr (by omega)

end

end ItemGuard.Text
