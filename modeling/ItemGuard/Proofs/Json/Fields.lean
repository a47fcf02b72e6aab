import ItemGuard.Json.Value
import Mathlib.Data.List.Induction

/-!
# Fields in any order

Objects get their meaning field by field, in the order of the text. If every field of a known name
occurs at most once, the order plays no part: in the end each name is known by its one field, if it
has one (`Gathers.foldlM`), and fields with other names leave nothing behind.
-/

namespace ItemGuard.Json

/-- The values of the fields with a name, in their order. -/
def valuesOf (fields : List (String × Value)) (name : String) : List Value :=
  (fields.filter fun f => f.1 = name).map Prod.snd

theorem valuesOf_append (fields fields' : List (String × Value)) (name : String) :
    valuesOf (fields ++ fields') name = valuesOf fields name ++ valuesOf fields' name := by
  simp [valuesOf]

@[simp] theorem valuesOf_nil (name : String) : valuesOf [] name = [] := rfl

theorem valuesOf_cons_self (name : String) (v : Value) (fields : List (String × Value)) :
    valuesOf ((name, v) :: fields) name = v :: valuesOf fields name := by
  simp [valuesOf]

theorem valuesOf_cons_of_ne {name other : String} (h : other ≠ name) (v : Value)
    (fields : List (String × Value)) :
    valuesOf ((other, v) :: fields) name = valuesOf fields name := by
  simp [valuesOf, h]

/-- The fields of other names have the values that they had. -/
theorem valuesOf_filter_ne {name other : String} (h : name ≠ other)
    (fields : List (String × Value)) :
    valuesOf (fields.filter fun f => f.1 ≠ other) name = valuesOf fields name := by
  unfold valuesOf
  rw [List.filter_filter]
  congr 1
  apply List.filter_congr
  intro f _
  by_cases hf : f.1 = name
  · simp [hf, h]
  · simp [hf]

/-- Fields are added to a state that has a slot for each known name. A good value of a name that was
not read yet fills the slot of the name and no other; a field with an unknown name changes
nothing. -/
structure Gathers {σ : Type} (add : σ → String × Value → Except Fault σ) (known : String → Prop)
    (good : String → Value → Prop) (slot : σ → String → Bool → Prop) : Prop where
  fill : ∀ {state name v}, known name → good name v → slot state name false →
    ∃ next, add state (name, v) = .ok next ∧ slot next name true ∧
      ∀ other read, known other → other ≠ name → slot state other read → slot next other read
  skip : ∀ state {name} v, ¬ known name → add state (name, v) = .ok state

/-- No known name occurs twice, and the values of known names are good. -/
def AtMostOnce (known : String → Prop) (good : String → Value → Prop)
    (fields : List (String × Value)) : Prop :=
  ∀ name, known name → valuesOf fields name = [] ∨ ∃ v, valuesOf fields name = [v] ∧ good name v

section

variable {known : String → Prop} {good : String → Value → Prop} {fields : List (String × Value)}

theorem AtMostOnce.of_append {fields' : List (String × Value)}
    (h : AtMostOnce known good (fields ++ fields')) : AtMostOnce known good fields := by
  intro name hname
  rcases h name hname with hnone | ⟨v, hv, hgood⟩
  · rw [valuesOf_append, List.append_eq_nil_iff] at hnone
    exact .inl hnone.1
  · rw [valuesOf_append, List.append_eq_singleton_iff] at hv
    rcases hv with ⟨hnone, -⟩ | ⟨hv, -⟩
    · exact .inl hnone
    · exact .inr ⟨v, hv, hgood⟩

/-- A field with a known name is the first of its name, and good. -/
theorem AtMostOnce.last {name : String} {v : Value}
    (h : AtMostOnce known good (fields ++ [(name, v)])) (hname : known name) :
    valuesOf fields name = [] ∧ good name v := by
  have hvalues : valuesOf (fields ++ [(name, v)]) name = valuesOf fields name ++ [v] := by
    rw [valuesOf_append, valuesOf_cons_self, valuesOf_nil]
  rcases h name hname with hnone | ⟨w, hw, hgood⟩
  · rw [hvalues] at hnone
    simp at hnone
  · rw [hvalues, List.append_eq_singleton_iff] at hw
    rcases hw with ⟨hnone, hlast⟩ | ⟨-, hlast⟩
    · cases hlast
      exact ⟨hnone, hgood⟩
    · cases hlast

end

/-- Adding the fields in their order fills the slots of the known names that occur. -/
theorem Gathers.foldlM {σ : Type} {add : σ → String × Value → Except Fault σ}
    {known : String → Prop} {good : String → Value → Prop} {slot : σ → String → Bool → Prop}
    (h : Gathers add known good slot) {start : σ}
    (hstart : ∀ name, known name → slot start name false)
    {fields : List (String × Value)} (hfields : AtMostOnce known good fields) :
    ∃ final, fields.foldlM add start = .ok final ∧
      ∀ name, known name → slot final name (!(valuesOf fields name).isEmpty) := by
  induction fields using List.reverseRecOn with
  | nil => exact ⟨start, rfl, hstart⟩
  | append_singleton fields field ih =>
    obtain ⟨state, hfold, hslots⟩ := ih hfields.of_append
    obtain ⟨name, v⟩ := field
    rw [List.foldlM_append, hfold]
    by_cases hname : known name
    · obtain ⟨hnone, hgood⟩ := hfields.last hname
      have hempty := hslots name hname
      rw [hnone] at hempty
      obtain ⟨next, hadd, hfilled, hothers⟩ := h.fill hname hgood hempty
      refine ⟨next, by simp [hadd, bind, Except.bind, pure, Except.pure], fun other hother => ?_⟩
      rw [valuesOf_append]
      by_cases heq : other = name
      · subst heq
        rw [hnone, valuesOf_cons_self]
        exact hfilled
      · rw [valuesOf_cons_of_ne (Ne.symm heq), valuesOf_nil, List.append_nil]
        exact hothers other _ hother heq (hslots other hother)
    · refine ⟨state, by simp [h.skip state v hname, bind, Except.bind, pure, Except.pure],
        fun other hother => ?_⟩
      have hne : name ≠ other := fun heq => hname (heq ▸ hother)
      rw [valuesOf_append, valuesOf_cons_of_ne hne, valuesOf_nil, List.append_nil]
      exact hslots other hother

end ItemGuard.Json
