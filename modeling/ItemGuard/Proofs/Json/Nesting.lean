import ItemGuard.Proofs.Json.Grammar

/-!
# The grammar of nested values

Arrays and objects list their parts between commas, with blanks around each (`Listed`), down to some
depth (`SpellsValue`). Whatever is done with the parts one after the other, the reader does it
(`ReadsElements.readElements`, `ReadsMembers.readMembers`), so it reads every value that nests no
deeper than it may (`readsValues_readValue`).
-/

namespace ItemGuard.Json

section

variable {α : Type}

/-- Parts with blanks around each and a comma between two of them. -/
inductive Joined (P : List Char → α → Prop) : List Char → List α → Prop where
  | single {before core behind : List Char} {a : α} (hbefore : Blanks before) (h : P core a)
    (hbehind : Blanks behind) : Joined P (before ++ (core ++ behind)) [a]
  | cons {before core behind others : List Char} {a : α} {as : List α} (hbefore : Blanks before)
    (h : P core a) (hbehind : Blanks behind) (hothers : Joined P others as) :
    Joined P (before ++ (core ++ (behind ++ ',' :: others))) (a :: as)

/-- What may stand between two brackets: blanks alone, or parts. -/
inductive Listed (P : List Char → α → Prop) : List Char → List α → Prop where
  | nil {blanks : List Char} (h : Blanks blanks) : Listed P blanks []
  | joined {text : List Char} {as : List α} (h : Joined P text as) : Listed P text as

end

/-- A field of an object: its name, a colon and its value. -/
inductive SpellsMember (inner : List Char → Value → Prop) :
    List Char → String × Value → Prop where
  | mk {name between behind text : List Char} {s : String} {v : Value}
    (hname : Spells name s.toList) (hbetween : Blanks between) (hbehind : Blanks behind)
    (h : inner text v) :
    SpellsMember inner ('"' :: (name ++ '"' :: (between ++ ':' :: (behind ++ text)))) (s, v)

/-- The text is an array or an object of inner values. -/
inductive SpellsNested (inner : List Char → Value → Prop) : List Char → Value → Prop where
  | array {text : List Char} {vs : List Value} (h : Listed inner text vs) :
    SpellsNested inner ('[' :: (text ++ [']'])) (.array vs)
  | object {text : List Char} {fields : List (String × Value)}
    (h : Listed (SpellsMember inner) text fields) :
    SpellsNested inner ('\x7b' :: (text ++ ['\x7d'])) (.object fields)

/-- The text is a value with at most so many levels of arrays and objects. -/
def SpellsValue : Nat → List Char → Value → Prop
  | 0, text, v => SpellsScalar text v
  | depth + 1, text, v => SpellsScalar text v ∨ SpellsNested (SpellsValue depth) text v

theorem SpellsScalar.value {text : List Char} {v : Value} (h : SpellsScalar text v)
    (depth : Nat) : SpellsValue depth text v := by
  cases depth with
  | zero => exact h
  | succ depth => exact .inl h

/-- A value starts with no blank and no closing bracket. -/
theorem head_of_spellsValue {depth : Nat} {text : List Char} {v : Value}
    (h : SpellsValue depth text v) : ∃ c, text.head? = some c ∧ isBlank c = false ∧ c ≠ ']' := by
  have hscalar : SpellsScalar text v →
      ∃ c, text.head? = some c ∧ isBlank c = false ∧ c ≠ ']' := by
    intro h
    obtain ⟨c, hc, hblank, -, hclosing, -⟩ := head_of_spellsScalar h
    exact ⟨c, hc, hblank, hclosing⟩
  cases depth with
  | zero => exact hscalar h
  | succ depth =>
    rcases h with h | h
    · exact hscalar h
    · cases h with
      | array => exact ⟨_, rfl, by decide⟩
      | object => exact ⟨_, rfl, by decide⟩

theorem spells_of_spellsValue {depth : Nat} {text : List Char} {s : String}
    (h : SpellsValue depth text (.string s)) :
    ∃ inner, Spells inner s.toList ∧ text = '"' :: (inner ++ ['"']) := by
  have hscalar : SpellsScalar text (.string s) →
      ∃ inner, Spells inner s.toList ∧ text = '"' :: (inner ++ ['"']) := by
    intro h
    cases h with
    | string h => exact ⟨_, h, rfl⟩
  cases depth with
  | zero => exact hscalar h
  | succ depth =>
    rcases h with h | h
    · exact hscalar h
    · cases h

/-! ## Scanning lists -/

theorem foldlM_cons_eq_ok {ε α σ : Type} {add : σ → α → Except ε σ} {a : α} {as : List α}
    {state final : σ} (h : (a :: as).foldlM add state = .ok final) :
    ∃ next, add state a = .ok next ∧ as.foldlM add next = .ok final := by
  rw [List.foldlM_cons] at h
  cases hadd : add state a with
  | error e =>
    rw [hadd] at h
    cases h
  | ok next =>
    rw [hadd] at h
    exact ⟨next, rfl, h⟩

/-- A step takes the closing bracket, or a comma and a part, which it adds to the state. -/
structure Takes {α σ : Type} (P : List Char → α → Prop) (add : σ → α → Except Fault σ)
    (close : Char) (step : σ → List Char → Except Fault (Text.Step σ σ)) : Prop where
  closing : close = ']' ∨ close = '\x7d'
  done : ∀ {behind} state rest, Blanks behind →
    step state (behind ++ close :: rest) = .ok (.done state rest)
  more : ∀ {behind before core rest state next a}, Blanks behind → Blanks before → P core a →
    add state a = .ok next → Delimited rest →
    step state (behind ++ ',' :: (before ++ (core ++ rest))) = .ok (.more next rest)

namespace Takes

variable {α σ : Type} {P : List Char → α → Prop} {add : σ → α → Except Fault σ} {close : Char}
  {step : σ → List Char → Except Fault (Text.Step σ σ)}

theorem delimited (h : Takes P add close step) (rest : List Char) : Delimited (close :: rest) :=
  delimited_cons (.inr h.closing) rest

/-- A scan adds the parts behind a comma one after the other. -/
theorem scan_joined (h : Takes P add close step) {text : List Char} {as : List α}
    (hjoined : Joined P text as) {behind : List Char} (hbehind : Blanks behind) {state final : σ}
    (hfold : as.foldlM add state = .ok final) (rest : List Char) :
    Text.scan .malformed step state (behind ++ ',' :: (text ++ close :: rest)) =
      .ok (final, rest) := by
  induction hjoined generalizing behind state with
  | single hbefore hcore hbehind' =>
    obtain ⟨next, hadd, hnext⟩ := foldlM_cons_eq_ok hfold
    cases hnext
    have hread := h.more hbehind hbefore hcore hadd (delimited_append hbehind' (h.delimited rest))
    rw [List.append_assoc, List.append_assoc]
    refine Text.scan_more hread ?_ (Text.scan_done (h.done final rest hbehind'))
    simp only [List.length_append, List.length_cons]
    omega
  | @cons _ _ _ others _ _ hbefore hcore hbehind' _ ih =>
    obtain ⟨next, hadd, hnext⟩ := foldlM_cons_eq_ok hfold
    have hrest := delimited_append hbehind' (delimited_cons (.inl rfl) (others ++ close :: rest))
    have hread := h.more hbehind hbefore hcore hadd hrest
    rw [List.append_assoc, List.append_assoc, List.append_assoc, List.cons_append]
    refine Text.scan_more hread ?_ (ih hbehind' hnext)
    simp only [List.length_append, List.length_cons]
    omega

/-- A reader that reads the first part and goes on by scanning reads a whole list. -/
theorem read_joined (h : Takes P add close step) {read : Reads σ} {state : σ}
    (hfirst : ∀ {before core rest next a}, Blanks before → P core a → add state a = .ok next →
      Delimited rest → read (before ++ (core ++ rest)) = Text.scan .malformed step next rest)
    {text : List Char} {as : List α} (hjoined : Joined P text as) {final : σ}
    (hfold : as.foldlM add state = .ok final) (rest : List Char) :
    read (text ++ close :: rest) = .ok (final, rest) := by
  cases hjoined with
  | single hbefore hcore hbehind =>
    obtain ⟨next, hadd, hnext⟩ := foldlM_cons_eq_ok hfold
    cases hnext
    rw [List.append_assoc, List.append_assoc,
      hfirst hbefore hcore hadd (delimited_append hbehind (h.delimited rest))]
    exact Text.scan_done (h.done final rest hbehind)
  | cons hbefore hcore hbehind hothers =>
    obtain ⟨next, hadd, hnext⟩ := foldlM_cons_eq_ok hfold
    rw [List.append_assoc, List.append_assoc, List.append_assoc, List.cons_append,
      hfirst hbefore hcore hadd (delimited_append hbehind (delimited_cons (.inl rfl) _))]
    exact h.scan_joined hothers hbehind hnext rest

end Takes

/-! ## Arrays and objects -/

section

variable {σ : Type} {inner : List Char → Value → Prop}

/-- The element reader reads inner values and adds them to the state. -/
structure ReadsElements (inner : List Char → Value → Prop) (add : σ → Value → Except Fault σ)
    (element : σ → Reads σ) : Prop where
  head : ∀ {core v}, inner core v → ∃ c, core.head? = some c ∧ isBlank c = false ∧ c ≠ ']'
  read : ∀ {core rest v state next}, inner core v → add state v = .ok next → Delimited rest →
    element state (core ++ rest) = .ok (next, rest)

theorem ReadsElements.takes {add : σ → Value → Except Fault σ} {element : σ → Reads σ}
    (h : ReadsElements inner add element) : Takes inner add ']' (elementStep element) := by
  refine ⟨.inl rfl, ?_, ?_⟩
  · intro behind state rest hbehind
    unfold elementStep
    rw [skipBlanks_append hbehind, skipBlanks_cons (by decide)]
    rfl
  · intro behind before core rest state next v hbehind hbefore hcore hadd hrest
    obtain ⟨c, hc, hblank, hclosing⟩ := h.head hcore
    have hread := h.read hcore hadd hrest
    obtain ⟨cs, rfl⟩ := List.head?_eq_some_iff.1 hc
    rw [List.cons_append] at hread ⊢
    unfold elementStep
    rw [skipBlanks_append hbehind, skipBlanks_cons (by decide)]
    simp [skipBlanks_append hbefore, skipBlanks_cons hblank, hread, bind, Except.bind]

/-- An array is read to its end if its elements can be. -/
theorem ReadsElements.readElements {add : σ → Value → Except Fault σ} {element : σ → Reads σ}
    (h : ReadsElements inner add element) {text : List Char} {vs : List Value}
    (hlisted : Listed inner text vs) {state final : σ} (hfold : vs.foldlM add state = .ok final)
    (rest : List Char) : readElements element state (text ++ ']' :: rest) = .ok (final, rest) := by
  cases hlisted with
  | nil hblanks =>
    cases hfold
    unfold Json.readElements
    rw [skipBlanks_append hblanks, skipBlanks_cons (by decide)]
    rfl
  | joined hjoined =>
    refine h.takes.read_joined ?_ hjoined hfold rest
    intro before core rest next v hbefore hcore hadd hrest
    obtain ⟨c, hc, hblank, hclosing⟩ := h.head hcore
    have hread := h.read hcore hadd hrest
    obtain ⟨cs, rfl⟩ := List.head?_eq_some_iff.1 hc
    rw [List.cons_append] at hread ⊢
    unfold Json.readElements
    rw [skipBlanks_append hbefore, skipBlanks_cons hblank]
    simp [hread, bind, Except.bind]

theorem readColon_append {between : List Char} (h : Blanks between) (rest : List Char) :
    readColon (between ++ ':' :: rest) = .ok rest := by
  unfold readColon
  rw [skipBlanks_append h, skipBlanks_cons (by decide)]
  rfl

/-- The field reader reads fields with inner values from the colon on and adds them to the state. -/
def ReadsMembers (inner : List Char → Value → Prop) (add : σ → String × Value → Except Fault σ)
    (member : σ → String → Reads σ) : Prop :=
  ∀ ⦃between behind core rest s v state next⦄, Blanks between → Blanks behind → inner core v →
    add state (s, v) = .ok next → Delimited rest →
    member state s (between ++ ':' :: (behind ++ (core ++ rest))) = .ok (next, rest)

theorem ReadsMembers.takes {add : σ → String × Value → Except Fault σ}
    {member : σ → String → Reads σ} (h : ReadsMembers inner add member) :
    Takes (SpellsMember inner) add '\x7d' (memberStep member) := by
  refine ⟨.inr rfl, ?_, ?_⟩
  · intro behind state rest hbehind
    unfold memberStep
    rw [skipBlanks_append hbehind, skipBlanks_cons (by decide)]
    rfl
  · rintro behind before _ rest state next _ hbehind hbefore ⟨hname, hbetween, hbehind', hcore⟩
      hadd hrest
    have hstring := readString_of_spells hname
    have hread := h hbetween hbehind' hcore hadd hrest
    unfold memberStep
    rw [skipBlanks_append hbehind, skipBlanks_cons (by decide)]
    have hquote : isBlank '"' = false := by decide
    simp [skipBlanks_append hbefore, skipBlanks_cons hquote, hstring, hread, bind, Except.bind]

/-- An object is read to its end if its fields can be. -/
theorem ReadsMembers.readMembers {add : σ → String × Value → Except Fault σ}
    {member : σ → String → Reads σ} (h : ReadsMembers inner add member) {text : List Char}
    {fields : List (String × Value)} (hlisted : Listed (SpellsMember inner) text fields)
    {state final : σ} (hfold : fields.foldlM add state = .ok final) (rest : List Char) :
    readMembers member state (text ++ '\x7d' :: rest) = .ok (final, rest) := by
  cases hlisted with
  | nil hblanks =>
    cases hfold
    unfold Json.readMembers
    rw [skipBlanks_append hblanks, skipBlanks_cons (by decide)]
    rfl
  | joined hjoined =>
    refine h.takes.read_joined ?_ hjoined hfold rest
    rintro before _ rest next _ hbefore ⟨hname, hbetween, hbehind, hcore⟩ hadd hrest
    have hstring := readString_of_spells hname
    have hread := h hbetween hbehind hcore hadd hrest
    unfold Json.readMembers
    rw [skipBlanks_append hbefore, List.cons_append, skipBlanks_cons (by decide)]
    simp [hstring, hread, bind, Except.bind]

end

/-! ## Values -/

theorem foldlM_cons_ok {α : Type} (as read : List α) :
    as.foldlM (fun read a => Except.ok (ε := Fault) (a :: read)) read =
      .ok (as.reverse ++ read) := by
  induction as generalizing read with
  | nil => rfl
  | cons a as ih =>
    rw [List.foldlM_cons, List.reverse_cons, List.append_assoc]
    exact ih (a :: read)

/-- The reader reads the values, with blanks before them. -/
def ReadsValues (inner : List Char → Value → Prop) (read : Reads Value) : Prop :=
  ∀ ⦃behind core rest v⦄, Blanks behind → inner core v → Delimited rest →
    read (behind ++ (core ++ rest)) = .ok (v, rest)

theorem readValueWith_of_scalar {text : List Char} {v : Value} (h : SpellsScalar text v)
    (inner : Option (Reads Value)) {behind rest : List Char} (hbehind : Blanks behind)
    (hrest : Delimited rest) : readValueWith inner (behind ++ (text ++ rest)) = .ok (v, rest) := by
  have hread := readScalar_of_spells h hrest
  obtain ⟨c, hc, hblank, hbracket, -, hbrace⟩ := head_of_spellsScalar h
  obtain ⟨cs, rfl⟩ := List.head?_eq_some_iff.1 hc
  rw [List.cons_append] at hread
  unfold readValueWith
  rw [skipBlanks_append hbehind, List.cons_append, skipBlanks_cons hblank]
  simp [hbracket, hbrace, hread]

theorem ReadsValues.readsElements {inner : List Char → Value → Prop} {read : Reads Value}
    (h : ReadsValues inner read)
    (hhead : ∀ {core v}, inner core v → ∃ c, core.head? = some c ∧ isBlank c = false ∧ c ≠ ']') :
    ReadsElements inner (fun read v => .ok (v :: read)) (addElement read) := by
  refine ⟨hhead, ?_⟩
  intro core rest v state next hcore hadd hrest
  cases hadd
  have hread := h blanks_nil hcore hrest
  rw [List.nil_append] at hread
  simp [addElement, hread, bind, Except.bind]

theorem ReadsValues.readsMembers {inner : List Char → Value → Prop} {read : Reads Value}
    (h : ReadsValues inner read) :
    ReadsMembers inner (fun read field => .ok (field :: read)) (addMember read) := by
  intro between behind core rest s v state next hbetween hbehind hcore hadd hrest
  cases hadd
  simp [addMember, readColon_append hbetween, h hbehind hcore hrest, bind, Except.bind]

/-- A value is read if it nests no deeper than it may. -/
theorem readsValues_readValue (depth : Nat) :
    ReadsValues (SpellsValue depth) (readValue depth) := by
  induction depth with
  | zero =>
    intro behind core rest v hbehind h hrest
    exact readValueWith_of_scalar h none hbehind hrest
  | succ depth ih =>
    intro behind core rest v hbehind h hrest
    rcases h with h | h
    · exact readValueWith_of_scalar h _ hbehind hrest
    · rw [readValue, readValueWith, skipBlanks_append hbehind]
      cases h with
      | array h =>
        have helements := ih.readsElements head_of_spellsValue
        have hread := helements.readElements h (foldlM_cons_ok _ []) rest
        simp [skipBlanks_cons (show isBlank '[' = false by decide), hread, bind, Except.bind]
      | object h =>
        have hread := ReadsMembers.readMembers ih.readsMembers h (foldlM_cons_ok _ []) rest
        simp [skipBlanks_cons (show isBlank '\x7b' = false by decide), hread, bind, Except.bind]

end ItemGuard.Json
