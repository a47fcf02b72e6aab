/-!
# Decimal numerals

A numeral is one or more of the digits `0` to `9`; leading zeros are allowed. `unsigned?` reads a
numeral below a bound and accepts a plus sign before it, and `unsigned?_decimal` says that it reads
back every number that `decimal` writes. `hexValue?` is the value of a digit of base sixteen, in
capital or small letters.
-/

namespace ItemGuard.Text

def digitValue (c : Char) : Nat :=
  c.toNat - '0'.toNat

def hexValue? (c : Char) : Option Nat :=
  if c.isDigit then some (digitValue c)
  else if 'a' ≤ c && c ≤ 'f' then some (c.toNat - 'a'.toNat + 10)
  else if 'A' ≤ c && c ≤ 'F' then some (c.toNat - 'A'.toNat + 10)
  else none

/-- The value of a sequence of digits, the most significant first. -/
def digitsValue (cs : List Char) : Nat :=
  cs.foldl (fun n c => 10 * n + digitValue c) 0

/-- One or more digits. -/
def isNumeral (cs : List Char) : Bool :=
  !cs.isEmpty && cs.all Char.isDigit

/-- Drops one plus sign at the start of a text. -/
def dropPlus : List Char → List Char
  | '+' :: cs => cs
  | cs => cs

/-- Reads a numeral below `bound`, with or without a plus sign. -/
def unsigned? (bound : Nat) (cs : List Char) : Option Nat :=
  let ds := dropPlus cs
  if isNumeral ds && digitsValue ds < bound then some (digitsValue ds) else none

def decimal (n : Nat) : List Char :=
  Nat.toDigits 10 n

/-- The digits of a number, with zeros before them up to the given width. -/
def padded (width n : Nat) : List Char :=
  let ds := decimal n
  List.replicate (width - ds.length) '0' ++ ds

theorem digitsValue_append (as bs : List Char) :
    digitsValue (as ++ bs) = bs.foldl (fun n c => 10 * n + digitValue c) (digitsValue as) := by
  simp [digitsValue]

theorem digitValue_digitChar : ∀ {d : Nat}, d < 10 → digitValue d.digitChar = d := by
  decide

theorem isDigit_digitChar : ∀ {d : Nat}, d < 10 → d.digitChar.isDigit = true := by
  decide

theorem decimal_of_lt {n : Nat} (h : n < 10) : decimal n = [n.digitChar] :=
  Nat.toDigits_of_lt_base h

/-- The last digit of a number stands behind those of a tenth of it. -/
theorem decimal_of_le {n : Nat} (h : 10 ≤ n) :
    decimal n = decimal (n / 10) ++ [(n % 10).digitChar] := by
  have hd : n % 10 < 10 := Nat.mod_lt _ (by decide)
  have hdigits := Nat.toDigits_append_toDigits (b := 10) (n := n / 10) (d := n % 10) (by decide)
    (by omega) hd
  rw [Nat.toDigits_of_lt_base hd, Nat.div_add_mod] at hdigits
  exact hdigits.symm

/-- The digits of a number have its value, and they form a numeral. -/
theorem digitsValue_decimal (n : Nat) : digitsValue (decimal n) = n ∧ isNumeral (decimal n) := by
  induction n using Nat.strongRecOn with
  | ind n ih =>
    by_cases h : n < 10
    · rw [decimal_of_lt h]
      simp [digitsValue, isNumeral, digitValue_digitChar h, isDigit_digitChar h]
    · obtain ⟨hv, hn⟩ := ih (n / 10) (by omega)
      have hd : n % 10 < 10 := Nat.mod_lt _ (by decide)
      rw [decimal_of_le (by omega)]
      refine ⟨?_, ?_⟩
      · rw [digitsValue_append, hv]
        simp [digitValue_digitChar hd]
        omega
      · simp only [isNumeral, Bool.and_eq_true, List.all_append] at hn ⊢
        simp [hn.2, isDigit_digitChar hd]

theorem decimal_ne_nil (n : Nat) : decimal n ≠ [] := by
  intro h
  have := (digitsValue_decimal n).2
  simp [h, isNumeral] at this

/-- The digits of a number start with a zero only if they are nothing else. -/
theorem decimal_of_head {n : Nat} (h : (decimal n).head? = some '0') : decimal n = ['0'] := by
  induction n using Nat.strongRecOn with
  | ind n ih =>
    by_cases hn : n < 10
    · rw [decimal_of_lt hn] at h ⊢
      rw [Option.some.inj h]
    · rw [decimal_of_le (by omega)] at h
      obtain ⟨d, ds, hds⟩ := List.exists_cons_of_ne_nil (decimal_ne_nil (n / 10))
      have hhead : (decimal (n / 10)).head? = some '0' := by
        rw [hds, List.cons_append] at h
        rw [hds]
        exact h
      have hvalue := (digitsValue_decimal (n / 10)).1
      rw [ih (n / 10) (by omega) hhead] at hvalue
      have hzero : digitsValue ['0'] = 0 := by decide
      omega

theorem toNat_of_isDigit {c : Char} (h : c.isDigit = true) : 48 ≤ c.toNat ∧ c.toNat ≤ 57 := by
  simp only [Char.isDigit, Bool.and_eq_true, decide_eq_true_eq, ge_iff_le,
    UInt32.le_iff_toNat_le] at h
  exact h

theorem isDigit_of_mem_decimal {n : Nat} {c : Char} (h : c ∈ decimal n) : c.isDigit = true := by
  have := (digitsValue_decimal n).2
  simp only [isNumeral, Bool.and_eq_true, List.all_eq_true] at this
  exact this.2 c h

theorem decimal_inj {m n : Nat} : decimal m = decimal n ↔ m = n := by
  constructor
  · intro h
    rw [← (digitsValue_decimal m).1, h, (digitsValue_decimal n).1]
  · exact congrArg decimal

theorem unsigned?_decimal {bound n : Nat} (h : n < bound) :
    unsigned? bound (decimal n) = some n := by
  obtain ⟨hv, hn⟩ := digitsValue_decimal n
  have hplus : dropPlus (decimal n) = decimal n := by
    cases hd : decimal n with
    | nil => rfl
    | cons c cs =>
      have hc : c.isDigit = true := by simp_all [isNumeral]
      have : c ≠ '+' := by rintro rfl; simp at hc
      simp [dropPlus, this]
  simp [unsigned?, hplus, hv, hn, h]

end ItemGuard.Text
