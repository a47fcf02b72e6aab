import ItemGuard.Item.Id
import ItemGuard.Json.Reader
import ItemGuard.Proofs.Json.Spelling

/-!
# The grammar of single values

What counts as a numeral (`SpellsNumeral`), and what as a value that is no array and no object
(`SpellsScalar`). The reader takes each of them, where a blank, a comma, a closing bracket or
nothing stands behind it (`readScalar_of_spells`). A numeral counts only if its number is not
infinite.
-/

namespace ItemGuard.Json

/-- Characters that may stand between the parts of a text. -/
def Blanks (cs : List Char) : Prop :=
  ∀ c ∈ cs, isBlank c = true

/-- The text can stand behind a value: it is nothing, or starts with a blank, a comma or a closing
bracket. -/
def Delimited (rest : List Char) : Prop :=
  ∀ c, rest.head? = some c → isBlank c = true ∨ c = ',' ∨ c = ']' ∨ c = '\x7d'

/-- One or more digits. -/
def IsDigits (ds : List Char) : Prop :=
  ds ≠ [] ∧ ∀ c ∈ ds, c.isDigit = true

inductive SpellsFraction : List Char → List Char → Prop where
  | none : SpellsFraction [] []
  | some {ds : List Char} (h : IsDigits ds) : SpellsFraction ('.' :: ds) ds

inductive SpellsSign : List Char → Bool → Prop where
  | none : SpellsSign [] false
  | plus : SpellsSign ['+'] false
  | minus : SpellsSign ['-'] true

inductive SpellsExponent : List Char → Option (Bool × List Char) → Prop where
  | none : SpellsExponent [] none
  | some {letter : Char} {sign ds : List Char} {negative : Bool}
    (hletter : letter = 'e' ∨ letter = 'E') (hsign : SpellsSign sign negative)
    (hds : IsDigits ds) : SpellsExponent (letter :: (sign ++ ds)) (some (negative, ds))

/-- A numeral is a whole part without needless zeros, perhaps with a minus sign before it and with a
fraction and an exponent behind it. -/
inductive SpellsNumeral : List Char → Numeral → Prop where
  | mk {n : Numeral} {fraction exponent : List Char} (whole : IsDigits n.whole)
    (zeros : n.whole.head? = some '0' → n.whole = ['0'])
    (hfraction : SpellsFraction fraction n.fraction)
    (hexponent : SpellsExponent exponent n.exponent) :
    SpellsNumeral ((if n.negative then ['-'] else []) ++ (n.whole ++ (fraction ++ exponent))) n

/-- The text is a value that is no array and no object. -/
inductive SpellsScalar : List Char → Value → Prop where
  | null : SpellsScalar ['n', 'u', 'l', 'l'] .null
  | true : SpellsScalar ['t', 'r', 'u', 'e'] (.boolean true)
  | false : SpellsScalar ['f', 'a', 'l', 's', 'e'] (.boolean false)
  | number {text : List Char} {numeral : Numeral} {number : Number}
    (h : SpellsNumeral text numeral) (finite : numeral.number? = some number) :
    SpellsScalar text (.number number)
  | string {text : List Char} {s : String} (h : Spells text s.toList) :
    SpellsScalar ('"' :: (text ++ ['"'])) (.string s)

/-! ## Blanks -/

theorem blanks_nil : Blanks [] :=
  fun _ hc => absurd hc List.not_mem_nil

theorem skipBlanks_append {bs : List Char} (h : Blanks bs) (cs : List Char) :
    skipBlanks (bs ++ cs) = skipBlanks cs := by
  unfold skipBlanks
  rw [List.dropWhile_append_of_pos h]

theorem skipBlanks_cons {c : Char} (h : isBlank c = false) (cs : List Char) :
    skipBlanks (c :: cs) = c :: cs := by
  unfold skipBlanks
  rw [List.dropWhile_cons_of_neg (by simp [h])]

/-- What holds of all characters that end a value holds of the one behind it. -/
theorem Delimited.holds {rest : List Char} (h : Delimited rest) {p : Char → Bool}
    (hp : [' ', '\n', '\t', '\r', ',', ']', '\x7d'].all p = true) {c : Char}
    (hc : rest.head? = some c) : p c = true := by
  have hmem : c ∈ [' ', '\n', '\t', '\r', ',', ']', '\x7d'] := by
    have hcases := h c hc
    simp only [isBlank, Bool.or_eq_true, beq_iff_eq] at hcases
    simpa [or_assoc] using hcases
  exact List.all_eq_true.1 hp c hmem

theorem delimited_append {bs : List Char} (h : Blanks bs) {cs : List Char} (hcs : Delimited cs) :
    Delimited (bs ++ cs) := by
  intro c hc
  cases bs with
  | nil => exact hcs c hc
  | cons b bs =>
    obtain rfl := Option.some.inj hc
    exact .inl (h b List.mem_cons_self)

theorem delimited_cons {c : Char} (h : c = ',' ∨ c = ']' ∨ c = '\x7d') (cs : List Char) :
    Delimited (c :: cs) := by
  intro d hd
  obtain rfl := Option.some.inj hd
  exact .inr h

/-! ## Numerals -/

/-- The text goes on with no digit. -/
def EndsDigits (rest : List Char) : Prop :=
  ∀ c, rest.head? = some c → c.isDigit = false

theorem readDigits_append {ds : List Char} (h : IsDigits ds) {rest : List Char}
    (hrest : EndsDigits rest) (atEnd : Fault) : readDigits atEnd (ds ++ rest) = .ok (ds, rest) := by
  obtain ⟨hne, hdigits⟩ := h
  have htake : rest.takeWhile Char.isDigit = [] ∧ rest.dropWhile Char.isDigit = rest := by
    cases rest with
    | nil => exact ⟨rfl, rfl⟩
    | cons c cs => simp [hrest c rfl]
  unfold readDigits
  rw [List.takeWhile_append_of_pos hdigits, List.dropWhile_append_of_pos hdigits, htake.1, htake.2,
    List.append_nil]
  cases ds with
  | nil => exact absurd rfl hne
  | cons d ds => rfl

theorem readWhole_append {ds : List Char} (h : IsDigits ds)
    (zeros : ds.head? = some '0' → ds = ['0']) {rest : List Char} (hrest : EndsDigits rest)
    (atEnd : Fault) : readWhole atEnd (ds ++ rest) = .ok (ds, rest) := by
  unfold readWhole
  rw [readDigits_append h hrest]
  simp only [bind, Except.bind]
  split
  next => cases zeros rfl
  next => rfl

theorem ne_of_isDigit {c d : Char} (hc : c.isDigit = true) (hd : d.isDigit = false) : c ≠ d := by
  rintro rfl
  rw [hc] at hd
  cases hd

theorem readSign_append {sign ds : List Char} {negative : Bool} (h : SpellsSign sign negative)
    (hds : IsDigits ds) (rest : List Char) :
    readSign (sign ++ (ds ++ rest)) = (negative, ds ++ rest) := by
  cases h with
  | plus => rfl
  | minus => rfl
  | none =>
    obtain ⟨d, ds, rfl⟩ := List.exists_cons_of_ne_nil hds.1
    have hdigit := hds.2 d List.mem_cons_self
    have hplus : d ≠ '+' := ne_of_isDigit hdigit rfl
    have hminus : d ≠ '-' := ne_of_isDigit hdigit rfl
    simp [readSign, hplus, hminus]

theorem Delimited.endsDigits {rest : List Char} (h : Delimited rest) : EndsDigits rest := by
  intro c hc
  have hdigit := h.holds (p := fun c => !c.isDigit) rfl hc
  simpa using hdigit

theorem readExponent_append {exponent : List Char} {value : Option (Bool × List Char)}
    (h : SpellsExponent exponent value) {rest : List Char} (hrest : Delimited rest)
    (atEnd : Fault) : readExponent atEnd (exponent ++ rest) = .ok (value, rest) := by
  cases h with
  | none =>
    cases rest with
    | nil => rfl
    | cons c rest =>
      have hletter : isExponentLetter c = false := by
        have hletter := hrest.holds (p := fun c => !isExponentLetter c) rfl rfl
        simpa using hletter
      simp [readExponent, hletter]
  | @some letter sign ds negative hletter hsign hds =>
    have hexponent : isExponentLetter letter = true := by
      rcases hletter with rfl | rfl
      iterate 2 rfl
    simp [readExponent, hexponent, readSign_append hsign hds,
      readDigits_append hds hrest.endsDigits, bind, Except.bind]

/-- Behind a fraction, or in place of one, stands neither a digit nor a point. -/
theorem exponent_holds {exponent : List Char} {value : Option (Bool × List Char)}
    (h : SpellsExponent exponent value) {rest : List Char} (hrest : Delimited rest) {c : Char}
    (hc : (exponent ++ rest).head? = some c) : c.isDigit = false ∧ c ≠ '.' := by
  cases h with
  | none =>
    have hpoint := hrest.holds (p := fun c => c != '.') rfl hc
    exact ⟨hrest.endsDigits c hc, by simpa using hpoint⟩
  | some hletter =>
    obtain rfl := Option.some.inj hc
    rcases hletter with rfl | rfl
    iterate 2 exact ⟨rfl, by decide⟩

theorem readFraction_append {fraction ds exponent : List Char}
    {value : Option (Bool × List Char)} (h : SpellsFraction fraction ds)
    (hexponent : SpellsExponent exponent value) {rest : List Char} (hrest : Delimited rest)
    (atEnd : Fault) :
    readFraction atEnd (fraction ++ (exponent ++ rest)) = .ok (ds, exponent ++ rest) := by
  have hends : ∀ c, (exponent ++ rest).head? = some c → c.isDigit = false ∧ c ≠ '.' :=
    fun c => exponent_holds hexponent hrest
  cases h with
  | none =>
    generalize exponent ++ rest = behind at hends
    cases behind with
    | nil => rfl
    | cons c cs =>
      have hpoint := (hends c rfl).2
      simp [readFraction, hpoint]
  | some hds => exact readDigits_append hds (fun c hc => (hends c hc).1) atEnd

theorem endsDigits_fraction {fraction ds exponent : List Char}
    {value : Option (Bool × List Char)} (h : SpellsFraction fraction ds)
    (hexponent : SpellsExponent exponent value) {rest : List Char} (hrest : Delimited rest) :
    EndsDigits (fraction ++ (exponent ++ rest)) := by
  intro c hc
  cases h with
  | none => exact (exponent_holds hexponent hrest hc).1
  | some =>
    obtain rfl := Option.some.inj hc
    rfl

/-- A numeral is read up to what ends it. -/
theorem readNumeral_of_spells {text : List Char} {n : Numeral} (h : SpellsNumeral text n)
    {rest : List Char} (hrest : Delimited rest) (atEnd : Fault) :
    readNumeral atEnd (text ++ rest) = .ok (n, rest) := by
  obtain ⟨whole, zeros, hfraction, hexponent⟩ := h
  have hwhole := readWhole_append whole zeros (endsDigits_fraction hfraction hexponent hrest) atEnd
  have hfraction := readFraction_append hfraction hexponent hrest atEnd
  have hexponent := readExponent_append hexponent hrest atEnd
  unfold readNumeral
  rw [List.append_assoc, List.append_assoc, List.append_assoc]
  cases hnegative : n.negative with
  | true =>
    have heta : (⟨true, n.whole, n.fraction, n.exponent⟩ : Numeral) = n := by rw [← hnegative]
    simp [hwhole, hfraction, hexponent, heta, bind, Except.bind]
  | false =>
    have heta : (⟨false, n.whole, n.fraction, n.exponent⟩ : Numeral) = n := by rw [← hnegative]
    obtain ⟨d, ds, hds⟩ := List.exists_cons_of_ne_nil whole.1
    have hminus : d ≠ '-' := ne_of_isDigit (whole.2 d (hds ▸ List.mem_cons_self)) rfl
    rw [hds, List.cons_append] at hwhole
    rw [hds] at heta
    simp [hds, hminus, hwhole, hfraction, hexponent, heta, bind, Except.bind]

/-! ## Scalars -/

/-- A numeral starts with a minus sign or a digit. -/
theorem head_of_spellsNumeral {text : List Char} {n : Numeral} (h : SpellsNumeral text n) :
    ∃ c, text.head? = some c ∧ (c = '-' ∨ c.isDigit = true) := by
  obtain ⟨whole, zeros, hfraction, hexponent⟩ := h
  cases n.negative with
  | true => exact ⟨'-', rfl, .inl rfl⟩
  | false =>
    obtain ⟨d, ds, hds⟩ := List.exists_cons_of_ne_nil whole.1
    refine ⟨d, by simp [hds], .inr (whole.2 d (hds ▸ List.mem_cons_self))⟩

/-- A scalar starts with no blank and no bracket. -/
theorem head_of_spellsScalar {text : List Char} {v : Value} (h : SpellsScalar text v) :
    ∃ c, text.head? = some c ∧ isBlank c = false ∧ c ≠ '[' ∧ c ≠ ']' ∧ c ≠ '\x7b' := by
  cases h with
  | null | true | false | string => exact ⟨_, rfl, by decide⟩
  | number h =>
    obtain ⟨c, heq, hc⟩ := head_of_spellsNumeral h
    refine ⟨c, heq, ?_⟩
    rcases hc with rfl | hdigit
    · decide
    · have hne : ∀ {d : Char}, d.isDigit = false → c ≠ d := ne_of_isDigit hdigit
      refine ⟨?_, hne rfl, hne rfl, hne rfl⟩
      simp only [isBlank, Bool.or_eq_false_iff, beq_eq_false_iff_ne]
      exact ⟨⟨⟨hne rfl, hne rfl⟩, hne rfl⟩, hne rfl⟩

theorem readScalar_of_spells {text : List Char} {v : Value} (h : SpellsScalar text v)
    {rest : List Char} (hrest : Delimited rest) : readScalar (text ++ rest) = .ok (v, rest) := by
  cases h with
  | null | true | false => rfl
  | string h =>
    have hread := readString_of_spells h rest
    rw [String.ofList_toList] at hread
    simp [readScalar, hread, bind, Except.bind]
  | @number _ numeral number h finite =>
    have hnumber : readNumber (text ++ rest) = .ok (number, rest) := by
      simp [readNumber, readNumeral_of_spells h hrest, finite, bind, Except.bind]
    obtain ⟨c, hhead, hc⟩ := head_of_spellsNumeral h
    obtain ⟨cs, rfl⟩ := List.head?_eq_some_iff.1 hhead
    have hne : ∀ d, d ≠ '-' → d.isDigit = false → c ≠ d := by
      intro d hminus hdigit
      rcases hc with rfl | hc
      · exact hminus.symm
      · exact ne_of_isDigit hc hdigit
    have hn := hne 'n' (by decide) rfl
    have ht := hne 't' (by decide) rfl
    have hf := hne 'f' (by decide) rfl
    have hquote := hne '"' (by decide) rfl
    rw [List.cons_append] at hnumber ⊢
    simp [readScalar, hc, hnumber, bind, Except.bind]

/-! ## Ids -/

/-- The id of an item is spelled in decimal. -/
theorem spellsScalar_decimal (item : ItemId) :
    SpellsScalar (Text.decimal item.toNat) (.number (.integer item.toNat)) := by
  have hvalue := (Text.digitsValue_decimal item.toNat).1
  have hlt : item.toNat < Leading.bound := Nat.lt_trans item.toNat_lt_bound (by decide)
  have hnumber : (Numeral.mk false (Text.decimal item.toNat) [] none).number? =
      some (.integer item.toNat) := by
    simp [Numeral.number?, Numeral.integer?, hvalue, hlt]
  have hdigits : IsDigits (Text.decimal item.toNat) :=
    ⟨Text.decimal_ne_nil _, fun c => Text.isDigit_of_mem_decimal⟩
  have hspells : SpellsNumeral _ (Numeral.mk false (Text.decimal item.toNat) [] none) :=
    .mk hdigits Text.decimal_of_head .none .none
  have htext := SpellsScalar.number hspells hnumber
  rwa [if_neg Bool.false_ne_true, List.nil_append, List.append_nil, List.append_nil] at htext

end ItemGuard.Json
