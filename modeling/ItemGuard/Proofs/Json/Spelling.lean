import ItemGuard.Json.Quoted
import ItemGuard.Json.Strings
import Mathlib.Tactic.SplitIfs

/-!
# How JSON spells strings

A string has many spellings: a character may stand for itself, or be escaped in one or two ways
(`SpellsChar`). Each of them is read back with whatever stands behind its closing quote
(`readString_of_spells`). What is written for a string is one of its spellings (`spells_escape`), so
the string and the text behind it can be told from it (`quote_append_inj`).
-/

namespace ItemGuard.Json

/-- Four hexadecimal digits, in capital or small letters, with the value of a UTF-16 unit. -/
def IsUnit (ds : List Char) (unit : Nat) : Prop :=
  ds.length = 4 ∧ hexDigitsValue? ds = some unit

/-- The text spells a character of a string. -/
inductive SpellsChar : List Char → Char → Prop where
  | self {c : Char} (printed : 0x20 ≤ c.toNat) (quote : c ≠ '"') (backslash : c ≠ '\\') :
    SpellsChar [c] c
  | short {letter c : Char} (h : shortEscape? letter = some c) : SpellsChar ['\\', letter] c
  | unit {ds : List Char} {c : Char} (h : IsUnit ds c.toNat) : SpellsChar ('\\' :: 'u' :: ds) c
  | pair {ds es : List Char} {leading trailing : Nat} {c : Char} (hleading : IsUnit ds leading)
    (htrailing : IsUnit es trailing) (first : 0xD800 ≤ leading ∧ leading ≤ 0xDBFF)
    (second : 0xDC00 ≤ trailing ∧ trailing ≤ 0xDFFF)
    (value : c.toNat = 0x10000 + (leading - 0xD800) * 0x400 + (trailing - 0xDC00)) :
    SpellsChar ('\\' :: 'u' :: (ds ++ '\\' :: 'u' :: es)) c

/-- The text spells the characters of a string one after the other. -/
inductive Spells : List Char → List Char → Prop where
  | nil : Spells [] []
  | cons {text rest : List Char} {c : Char} {cs : List Char} (first : SpellsChar text c)
    (others : Spells rest cs) : Spells (text ++ rest) (c :: cs)

/-! ## Reading -/

theorem length_le_utf8 (cs : List Char) : cs.length ≤ (Text.utf8 (String.ofList cs)).length := by
  rw [Text.utf8, String.toList_ofList]
  induction cs with
  | nil => exact Nat.zero_le _
  | cons c cs ih =>
    have hbyte : 0 < (String.utf8EncodeChar c).length := by
      rw [String.length_utf8EncodeChar]
      exact Char.utf8Size_pos c
    rw [List.flatMap_cons, List.length_append, List.length_cons]
    omega

theorem readUnit_of_isUnit {ds : List Char} {unit : Nat} (h : IsUnit ds unit) (rest : List Char) :
    readUnit (ds ++ rest) = .ok (unit, rest) := by
  obtain ⟨hlength, hvalue⟩ := h
  have hbytes := length_le_utf8 ds
  have htake : (ds ++ rest).take 4 = ds := List.take_left' hlength
  have hdrop : (ds ++ rest).drop 4 = rest := List.drop_left' hlength
  unfold readUnit
  dsimp only
  rw [htake, hdrop, if_neg (by omega), hvalue, hlength]
  rfl

theorem readUnits_of_isUnit {ds : List Char} {c : Char} (h : IsUnit ds c.toNat)
    (rest : List Char) : readUnits (ds ++ rest) = .ok (c, rest) := by
  have hvalid : c.toNat < 0xD800 ∨ 0xDFFF < c.toNat := by
    rcases c.valid with hlow | ⟨hhigh, -⟩
    · exact .inl hlow
    · exact .inr hhigh
  have htrailing : isTrailing c.toNat = false := by
    simp only [isTrailing, Bool.and_eq_false_iff, decide_eq_false_iff_not]
    omega
  have hleading : isLeading c.toNat = false := by
    simp only [isLeading, Bool.and_eq_false_iff, decide_eq_false_iff_not]
    omega
  simp [readUnits, readUnit_of_isUnit h, htrailing, hleading, bind, Except.bind]

theorem readUnits_of_pair {ds es : List Char} {leading trailing : Nat} {c : Char}
    (hleading : IsUnit ds leading) (htrailing : IsUnit es trailing)
    (first : 0xD800 ≤ leading ∧ leading ≤ 0xDBFF) (second : 0xDC00 ≤ trailing ∧ trailing ≤ 0xDFFF)
    (value : c.toNat = 0x10000 + (leading - 0xD800) * 0x400 + (trailing - 0xDC00))
    (rest : List Char) :
    readUnits (ds ++ '\\' :: 'u' :: (es ++ rest)) = .ok (c, rest) := by
  have hfirst : isLeading leading = true := by simpa [isLeading] using first
  have hsecond : isTrailing trailing = true := by simpa [isTrailing] using second
  have hnot : isTrailing leading = false := by
    simp only [isTrailing, Bool.and_eq_false_iff, decide_eq_false_iff_not]
    omega
  have hjoin : joinUnits leading trailing = c := by
    rw [joinUnits, ← value, Char.ofNat_toNat]
  simp [readUnits, readTrailing, readUnit_of_isUnit hleading, readUnit_of_isUnit htrailing, hfirst,
    hsecond, hnot, hjoin, bind, Except.bind]

/-- A character is read from any of its spellings. -/
theorem stringStep_of_spellsChar {text : List Char} {c : Char} (h : SpellsChar text c)
    (read rest : List Char) : stringStep read (text ++ rest) = .ok (.more (c :: read) rest) := by
  cases h with
  | self printed quote backslash =>
    have hnot : ¬ c.toNat < 0x20 := by omega
    simp [stringStep, backslash, hnot]
  | @short letter _ h =>
    have hletter : letter ≠ 'u' := by
      rintro rfl
      cases h
    simp [stringStep, readShortEscape, h, bind, Except.bind]
  | unit h => simp [stringStep, readUnits_of_isUnit h, bind, Except.bind]
  | pair hleading htrailing first second value =>
    simp [stringStep, readUnits_of_pair hleading htrailing first second value, bind, Except.bind]

theorem length_pos_of_spellsChar {text : List Char} {c : Char} (h : SpellsChar text c) :
    0 < text.length := by
  cases h <;> simp

/-- A string is read from any of its spellings, up to the quote that ends it. -/
theorem readString_of_spells {text cs : List Char} (h : Spells text cs) (rest : List Char) :
    readString (text ++ '"' :: rest) = .ok (String.ofList cs, rest) := by
  have hscan : ∀ read, Text.scan .malformed stringStep read (text ++ '"' :: rest) =
      .ok (String.ofList (read.reverse ++ cs), rest) := by
    induction h with
    | nil =>
      intro read
      rw [List.append_nil]
      exact Text.scan_done rfl
    | @cons text others c cs first _ ih =>
      intro read
      have hread := ih (c :: read)
      rw [List.reverse_cons, List.append_assoc, List.singleton_append] at hread
      rw [List.append_assoc]
      refine Text.scan_more (stringStep_of_spellsChar first read _) ?_ hread
      have hpos := length_pos_of_spellsChar first
      simp only [List.length_append]
      omega
  exact hscan []

/-! ## Writing -/

theorem hexValue?_digitChar : ∀ {d : Nat}, d < 16 → Text.hexValue? d.digitChar = some d := by
  decide

/-- What is written for a character is the character itself or an escape for it. -/
theorem spellsChar_escapeChar (c : Char) : SpellsChar (escapeChar c) c := by
  have hshort : ∀ {letter d : Char}, c = d → shortEscape? letter = some d →
      SpellsChar ['\\', letter] c := fun heq h => heq ▸ .short h
  unfold escapeChar
  split_ifs with hquote hbackslash hbackspace hfeed hline hreturn htab hcontrol
  · exact hshort hquote rfl
  · exact hshort hbackslash rfl
  · exact hshort hbackspace rfl
  · exact hshort hfeed rfl
  · exact hshort hline rfl
  · exact hshort hreturn rfl
  · exact hshort htab rfl
  · have hhigh := hexValue?_digitChar (show c.toNat / 16 < 16 by omega)
    have hlow := hexValue?_digitChar (show c.toNat % 16 < 16 by omega)
    have hzero : Text.hexValue? '0' = some 0 := rfl
    refine .unit ⟨rfl, ?_⟩
    simp only [hexDigitsValue?, List.foldlM_cons, List.foldlM_nil, hzero, hhigh, hlow]
    simp
    omega
  · exact .self (by omega) hquote hbackslash

theorem spells_escape (cs : List Char) : Spells (escape cs) cs := by
  induction cs with
  | nil => exact .nil
  | cons c cs ih => exact .cons (spellsChar_escapeChar c) ih

/-- A string in which nothing is escaped spells itself. -/
theorem spells_self {cs : List Char} (h : escape cs = cs) : Spells cs cs := by
  have hspells := spells_escape cs
  rwa [h] at hspells

theorem printed_of_mem_escapeChar {c e : Char} (h : c ∈ escapeChar e) : 0x20 ≤ c.toNat := by
  have hdigit : ∀ {d : Nat}, d < 16 → 0x20 ≤ d.digitChar.toNat := by decide
  unfold escapeChar at h
  split_ifs at h with _ _ _ _ _ _ _ hcontrol
  -- the seven short escapes
  iterate 7
    simp only [List.mem_cons, List.not_mem_nil, or_false] at h
    rcases h with rfl | rfl
    iterate 2 decide
  · have hhigh := hdigit (show e.toNat / 16 < 16 by omega)
    have hlow := hdigit (show e.toNat % 16 < 16 by omega)
    simp only [List.mem_cons, List.not_mem_nil, or_false] at h
    rcases h with rfl | rfl | rfl | rfl | rfl | rfl
    iterate 4 decide
    · exact hhigh
    · exact hlow
  · obtain rfl := List.mem_singleton.1 h
    omega

/-- Control characters are escaped, so a line feed is. -/
theorem printed_of_mem_quote {s : String} {c : Char} (h : c ∈ quote s) : 0x20 ≤ c.toNat := by
  rw [quote, List.cons_append, List.mem_cons, List.mem_append] at h
  rcases h with rfl | hescape | hquote
  · decide
  · obtain ⟨e, -, he⟩ := List.mem_flatMap.1 hescape
    exact printed_of_mem_escapeChar he
  · obtain rfl := List.mem_singleton.1 hquote
    decide

/-- A quoted string ends where its text says, so nothing in it can pass for what stands behind. -/
theorem quote_append_inj {s s' : String} {rest rest' : List Char}
    (h : quote s ++ rest = quote s' ++ rest') : s = s' ∧ rest = rest' := by
  have hread : ∀ (s : String) (rest : List Char),
      readString (quote s ++ rest).tail = .ok (s, rest) := by
    intro s rest
    have hspells := readString_of_spells (spells_escape s.toList) rest
    rw [String.ofList_toList] at hspells
    rwa [quote, List.cons_append, List.cons_append, List.append_assoc, List.tail_cons]
  have heq := hread s rest
  rw [h, hread s' rest'] at heq
  exact ⟨(congrArg Prod.fst (Except.ok.inj heq)).symm, (congrArg Prod.snd (Except.ok.inj heq)).symm⟩

end ItemGuard.Json
