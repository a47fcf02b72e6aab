import ItemGuard.Audit.RollingLog
import ItemGuard.Proofs.Storage.Directories

/-!
# The files of a log

A log of `count` files has the active one, with the number 0, and those with the numbers below
`count`. Their paths name different entries of one directory, because a number belongs to the last
name of a path (`names_numbered`).
-/

namespace ItemGuard

open Storage (Files Location Path nameLimit pathLimit)
open Audit.RollingLog (rolledPath)

/-- Neither the path nor a name in it is too long. -/
def Storage.Path.Fits (p : Path) : Prop :=
  p.size ≤ pathLimit ∧ ∀ name ∈ p.names, name.utf8ByteSize ≤ nameLimit

instance (p : Path) : Decidable p.Fits :=
  inferInstanceAs (Decidable (_ ∧ _))

/-- Neither the path nor its last name is too long. -/
def Storage.Path.Short (p : Path) : Prop :=
  p.size ≤ pathLimit ∧ ∀ name ∈ p.names.getLast?, name.utf8ByteSize ≤ nameLimit

theorem Storage.Path.Fits.short {p : Path} (h : p.Fits) : p.Short :=
  ⟨h.1, fun name hname => h.2 name (List.mem_of_getLast? hname)⟩

namespace Audit

/-- The path of a file of a log, or the name in its directory; number 0 is the active file. -/
def numbered (path : String) : Nat → String
  | 0 => path
  | k + 1 => rolledPath path (k + 1)

theorem toList_rolledPath (path : String) (k : Nat) :
    (rolledPath path k).toList = path.toList ++ '.' :: Text.decimal k := by
  simp [rolledPath]

theorem getLast?_rolledPath (path : String) (k : Nat) :
    ∃ c, (rolledPath path k).toList.getLast? = some c ∧ c.isDigit = true := by
  obtain ⟨c, hc⟩ := Option.ne_none_iff_exists'.1
    (mt List.getLast?_eq_none_iff.1 (Text.decimal_ne_nil k))
  refine ⟨c, ?_, Text.isDigit_of_mem_decimal (List.mem_of_getLast? hc)⟩
  rw [toList_rolledPath, List.getLast?_append, List.getLast?_cons, hc]
  rfl

theorem rolledPath_ne {text : String}
    (h : (text.toList.getLast?.all fun c => !c.isDigit) = true) (path : String) (k : Nat) :
    rolledPath path k ≠ text := by
  rintro rfl
  obtain ⟨c, hc, hdigit⟩ := getLast?_rolledPath path k
  simp [hc, hdigit] at h

theorem ne_rolledPath (path : String) (k : Nat) : path ≠ rolledPath path k := by
  intro h
  have hlength := congrArg (fun s : String => s.toList.length) h
  simp [toList_rolledPath] at hlength

theorem numbered_inj {path : String} {j k : Nat} : numbered path j = numbered path k ↔ j = k := by
  refine ⟨fun h => ?_, congrArg _⟩
  cases j with
  | zero =>
    cases k with
    | zero => rfl
    | succ k => exact absurd h (ne_rolledPath path _)
  | succ j =>
    cases k with
    | zero => exact absurd h.symm (ne_rolledPath path _)
    | succ k =>
      have hlist := congrArg String.toList h
      simp only [numbered, toList_rolledPath, List.append_cancel_left_eq, List.cons.injEq,
        true_and] at hlist
      exact Text.decimal_inj.1 hlist

/-- The number of a file belongs to the last name of its path. -/
theorem names_rolledPath {path name : String} {around : List String}
    (hnames : (Path.ofText path).names = around ++ [name])
    (hplain : (Path.ofText path).trailing = false) (k : Nat) :
    (Path.ofText (rolledPath path k)).names = around ++ [rolledPath name k] := by
  have hslash : '/' ∉ '.' :: Text.decimal k := by
    intro h
    rcases List.mem_cons.1 h with heq | hmem
    · cases heq
    · exact absurd (Text.isDigit_of_mem_decimal hmem) (by decide)
  obtain ⟨before, last, hsplit, hsplit', hempty⟩ := Text.splitOn_append hslash path.toList
  have hlast : last ≠ [] := by
    intro hnil
    rcases hempty hnil with hpath | hend
    · simp [Path.ofText, hpath, Text.splitOn] at hnames
    · simp [Path.ofText, hend] at hplain
  have hlast' : last ++ '.' :: Text.decimal k ≠ [] := by simp
  have hfilter : ∀ f : List Char, f ≠ [] → [f].filter (fun f => !f.isEmpty) = [f] := by
    intro f hf
    simp [hf]
  simp only [Path.ofText, hsplit, List.filter_append, List.map_append, hfilter _ hlast,
    List.map_cons, List.map_nil] at hnames
  simp only [Path.ofText, toList_rolledPath, hsplit', List.filter_append, List.map_append,
    hfilter _ hlast', List.map_cons, List.map_nil]
  obtain ⟨haround, hname⟩ := List.append_inj' hnames rfl
  have hrolled : String.ofList (last ++ '.' :: Text.decimal k) = rolledPath name k := by
    apply String.toList_injective
    rw [← List.singleton_inj.1 hname, toList_rolledPath, String.toList_ofList, String.toList_ofList]
  rw [haround, hrolled]

theorem names_ofText_numbered {path name : String} {around : List String}
    (hnames : (Path.ofText path).names = around ++ [name])
    (hplain : (Path.ofText path).trailing = false) (k : Nat) :
    (Path.ofText (numbered path k)).names = around ++ [numbered name k] := by
  cases k with
  | zero => exact hnames
  | succ k => exact names_rolledPath hnames hplain (k + 1)

/-- A number does not make a path wrong, though it may make it too long. -/
theorem checkPath_rolledPath_eq {path name : String} {around : List String}
    (hnames : (Path.ofText path).names = around ++ [name])
    (hplain : (Path.ofText path).trailing = false)
    (hcheck : Files.checkPath (.ofText path) = .ok ()) (k : Nat) :
    Files.checkPath (.ofText (rolledPath path k)) =
      if pathLimit < (Path.ofText (rolledPath path k)).size then .error .nameTooLong
      else .ok () := by
  obtain ⟨hnull, -, -⟩ := Files.checkPath_eq_ok_iff.1 hcheck
  have hnull' : (Path.ofText (rolledPath path k)).hasNull = false := by
    have hdigits : '\x00' ∉ Text.decimal k := by
      intro h
      exact absurd (Text.isDigit_of_mem_decimal h) (by decide)
    simp only [Path.hasNull, hnames, List.any_append, List.any_cons, List.any_nil, Bool.or_false,
      Bool.or_eq_false_iff] at hnull
    simp only [Path.hasNull, names_rolledPath hnames hplain, List.any_append, List.any_cons,
      List.any_nil, Bool.or_false, Bool.or_eq_false_iff]
    refine ⟨hnull.1, ?_⟩
    have hname := hnull.2
    simp only [List.contains_eq_mem, decide_eq_false_iff_not] at hname ⊢
    rw [toList_rolledPath]
    simp [hname, hdigits]
  have hempty : (Path.ofText (rolledPath path k)).isEmpty = false := by
    simp [Path.isEmpty, names_rolledPath hnames hplain]
  simp [Files.checkPath, hnull', hempty]

theorem checkPath_rolledPath {path name : String} {around : List String}
    (hnames : (Path.ofText path).names = around ++ [name])
    (hplain : (Path.ofText path).trailing = false)
    (hcheck : Files.checkPath (.ofText path) = .ok ()) {k : Nat}
    (hsize : (Path.ofText (rolledPath path k)).size ≤ pathLimit) :
    Files.checkPath (.ofText (rolledPath path k)) = .ok () := by
  rw [checkPath_rolledPath_eq hnames hplain hcheck, if_neg (Nat.not_lt.2 hsize)]

theorem rooted_rolledPath {path : String} (hne : path.toList ≠ []) (k : Nat) :
    (Path.ofText (rolledPath path k)).rooted = (Path.ofText path).rooted := by
  obtain ⟨c, cs, hpath⟩ := List.exists_cons_of_ne_nil hne
  simp only [Path.ofText, toList_rolledPath, hpath]
  rfl

theorem trailing_rolledPath (path : String) (k : Nat) :
    (Path.ofText (rolledPath path k)).trailing = false := by
  obtain ⟨c, hc, hdigit⟩ := getLast?_rolledPath path k
  have hne : c ≠ '/' := by
    intro h
    subst h
    cases hdigit
  simp [Path.ofText, hc, hne]

theorem dots_notMem_rolledPath {path name : String} {around : List String}
    (hnames : (Path.ofText path).names = around ++ [name])
    (hplain : (Path.ofText path).trailing = false) (hdots : ".." ∉ (Path.ofText path).names)
    (k : Nat) : ".." ∉ (Path.ofText (rolledPath path k)).names := by
  rw [names_rolledPath hnames hplain]
  rw [hnames] at hdots
  simp only [List.mem_append, List.mem_singleton, not_or] at hdots ⊢
  exact ⟨hdots.1, (rolledPath_ne (by decide) _ _).symm⟩

theorem dots_notMem_numbered {path name : String} {around : List String}
    (hnames : (Path.ofText path).names = around ++ [name])
    (hplain : (Path.ofText path).trailing = false) (hdots : ".." ∉ (Path.ofText path).names)
    (k : Nat) : ".." ∉ (Path.ofText (numbered path k)).names := by
  cases k with
  | zero => exact hdots
  | succ k => exact dots_notMem_rolledPath hnames hplain hdots (k + 1)

theorem placeOf_rolledPath {fs : Files} {path name : String} {dir : Location} {k : Nat}
    (hplace : fs.placeOf (.ofText path) = .ok (.entry dir name))
    (hplain : (Path.ofText path).trailing = false)
    (hsize : (Path.ofText (rolledPath path k)).size ≤ pathLimit) :
    fs.placeOf (.ofText (rolledPath path k)) = .ok (.entry dir (rolledPath name k)) := by
  obtain ⟨hcheck, hlast, -, -, hwalk, hdir⟩ := Files.placeOf_eq_entry_iff.1 hplace
  obtain ⟨around, hnames⟩ := List.getLast?_eq_some_iff.1 hlast
  have hrolled := names_rolledPath hnames hplain k
  have hne : path.toList ≠ [] := by
    intro hnil
    simp [Path.ofText, hnil, Text.splitOn] at hnames
  refine Files.placeOf_eq_entry_iff.2
    ⟨checkPath_rolledPath hnames hplain hcheck hsize, ?_, ?_, ?_, ?_, hdir⟩
  · rw [hrolled, List.getLast?_concat]
  · exact rolledPath_ne (by decide) _ _
  · exact rolledPath_ne (by decide) _ _
  · rw [hrolled, List.dropLast_concat, Files.start, rooted_rolledPath hne]
    rwa [hnames, List.dropLast_concat, Files.start] at hwalk

/-- The active file and a numbered one are different entries. -/
theorem ne_of_names_rolledPath {fs : Files} {path : String} {loc l : Location} {k : Nat}
    (h : fs.Names path loc) (hrolled : fs.Names (rolledPath path k) l) : loc ≠ l := by
  obtain ⟨dir, name, hplace, rfl, -, hplain⟩ := h
  obtain ⟨dir', name', hplace', rfl, -⟩ := hrolled
  obtain ⟨around, hnames⟩ :=
    List.getLast?_eq_some_iff.1 (Files.placeOf_eq_entry_iff.1 hplace).2.1
  have hlast := (Files.placeOf_eq_entry_iff.1 hplace').2.1
  rw [names_rolledPath hnames hplain, List.getLast?_concat] at hlast
  intro heq
  have hname := List.singleton_inj.1 (List.append_inj' heq rfl).2
  exact ne_rolledPath name k (hname.trans (Option.some.inj hlast).symm)

/-- The numbered files of a log are entries of the directory of the active one. -/
theorem names_numbered {fs : Files} {path name : String} {dir : Location} {k : Nat}
    (hplace : fs.placeOf (.ofText path) = .ok (.entry dir name))
    (hplain : (Path.ofText path).trailing = false)
    (hsize : name.utf8ByteSize ≤ nameLimit)
    (hshort : k ≠ 0 → (Path.ofText (rolledPath path k)).Short) :
    fs.Names (numbered path k) (dir ++ [numbered name k]) := by
  cases k with
  | zero => exact ⟨dir, name, hplace, rfl, hsize, hplain⟩
  | succ k =>
    obtain ⟨hpath, hname⟩ := hshort (Nat.succ_ne_zero k)
    refine ⟨dir, rolledPath name (k + 1), placeOf_rolledPath hplace hplain hpath, rfl, hname _ ?_,
      trailing_rolledPath path (k + 1)⟩
    obtain ⟨around, hnames⟩ :=
      List.getLast?_eq_some_iff.1 (Files.placeOf_eq_entry_iff.1 hplace).2.1
    rw [names_rolledPath hnames hplain, List.getLast?_concat]
    rfl

/-! ## Names that are too long

Numbers with more digits make longer names, so there may be a number up to which the names of the
files of a log are short enough.
-/

theorem length_decimal_le {j k : Nat} (h : j ≤ k) :
    (Text.decimal j).length ≤ (Text.decimal k).length := by
  have hpos : 0 < (Text.decimal k).length := List.length_pos_iff.2 (Text.decimal_ne_nil k)
  have hlt : k < 10 ^ (Text.decimal k).length :=
    (Nat.length_toDigits_le_iff (by decide) hpos).1 (Nat.le_refl _)
  exact (Nat.length_toDigits_le_iff (by decide) hpos).2 (Nat.lt_of_le_of_lt h hlt)

theorem utf8Size_of_isDigit {c : Char} (h : c.isDigit = true) : c.utf8Size = 1 := by
  simp only [Char.isDigit, Bool.and_eq_true, decide_eq_true_eq] at h
  have hle : c.val ≤ 0x7f := UInt32.le_trans h.2 (by decide)
  simp [Char.utf8Size, hle]

theorem utf8ByteSize_digits {cs : List Char} (h : ∀ c ∈ cs, c.isDigit = true) :
    (String.ofList cs).utf8ByteSize = cs.length := by
  rw [← Text.length_utf8]
  unfold Text.utf8
  rw [String.toList_ofList]
  induction cs with
  | nil => rfl
  | cons c cs ih =>
    rw [List.flatMap_cons, List.length_append, ih fun d hd => h d (List.mem_cons_of_mem _ hd),
      String.length_utf8EncodeChar, utf8Size_of_isDigit (h c List.mem_cons_self), List.length_cons,
      Nat.add_comm]

theorem utf8ByteSize_rolledPath (path : String) (k : Nat) :
    (rolledPath path k).utf8ByteSize = path.utf8ByteSize + 1 + (Text.decimal k).length := by
  rw [rolledPath, String.utf8ByteSize_append, String.utf8ByteSize_append,
    utf8ByteSize_digits fun _ hc => Text.isDigit_of_mem_decimal hc]
  rfl

theorem utf8ByteSize_rolledPath_le (path : String) {j k : Nat} (h : j ≤ k) :
    (rolledPath path j).utf8ByteSize ≤ (rolledPath path k).utf8ByteSize := by
  rw [utf8ByteSize_rolledPath, utf8ByteSize_rolledPath]
  exact Nat.add_le_add_left (length_decimal_le h) _

section Short

variable {path name : String} {around : List String}
  (hnames : (Path.ofText path).names = around ++ [name])
  (hplain : (Path.ofText path).trailing = false)
include hnames hplain

theorem short_rolledPath_iff (k : Nat) :
    (Path.ofText (rolledPath path k)).Short ↔
      (rolledPath path k).utf8ByteSize ≤ pathLimit ∧
        (rolledPath name k).utf8ByteSize ≤ nameLimit := by
  unfold Path.Short
  rw [names_rolledPath hnames hplain, List.getLast?_concat]
  simp [Path.ofText]

theorem short_rolledPath_of_le {j k : Nat} (hjk : j ≤ k)
    (h : (Path.ofText (rolledPath path k)).Short) : (Path.ofText (rolledPath path j)).Short := by
  rw [short_rolledPath_iff hnames hplain] at h ⊢
  exact ⟨Nat.le_trans (utf8ByteSize_rolledPath_le path hjk) h.1,
    Nat.le_trans (utf8ByteSize_rolledPath_le name hjk) h.2⟩

/-- The names of the first files of a log are short enough, and those of the others are not. -/
theorem exists_short (count : Nat) :
    ∃ m ≤ count, (1 ≤ count → 1 ≤ m) ∧
      (∀ k, 1 ≤ k → k < m → (Path.ofText (rolledPath path k)).Short) ∧
      ∀ k, m ≤ k → k < count → ¬ (Path.ofText (rolledPath path k)).Short := by
  induction count with
  | zero => exact ⟨0, Nat.le_refl _, id, fun _ _ hk => absurd hk (Nat.not_lt_zero _),
      fun _ _ hk => absurd hk (Nat.not_lt_zero _)⟩
  | succ count ih =>
    obtain ⟨m, hm, hpos, hshort, hlong⟩ := ih
    by_cases hnext : count = 0 ∨ (Path.ofText (rolledPath path count)).Short
    · have hall : ∀ k, 1 ≤ k → k < count + 1 → (Path.ofText (rolledPath path k)).Short := by
        intro k hk hlt
        rcases hnext with hzero | hnext
        · omega
        · exact short_rolledPath_of_le hnames hplain (Nat.le_of_lt_succ hlt) hnext
      exact ⟨count + 1, Nat.le_refl _, fun _ => Nat.succ_pos _, hall, fun k hle hlt => by omega⟩
    · obtain ⟨hzero, hnext⟩ := not_or.1 hnext
      refine ⟨m, Nat.le_succ_of_le hm, fun _ => hpos (Nat.pos_of_ne_zero hzero), hshort, ?_⟩
      intro k hle hlt
      rcases Nat.lt_succ_iff_lt_or_eq.1 hlt with hlt | rfl
      · exact hlong k hle hlt
      · exact hnext

end Short

end Audit
end ItemGuard
