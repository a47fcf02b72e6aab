import ItemGuard.Item.Classic
import ItemGuard.Item.TableFile
import ItemGuard.Proofs.Item.Spellings
import Mathlib.Data.List.Dedup
import Mathlib.Data.List.Nodup

/-!
# Tables as maps

`MadeOf` says how a table can be made and which bindings were made on the way. Such a table is the
map from normal forms to the ids bound last (`Holds`), so all spellings of a name have one id in it,
and it has as many names as there are normal forms among those bound (`maps_of_madeOf`). An item
table in a file is refused as soon as one of its ids is 0 (`ofToml_eq_ok_iff`).
-/

namespace ItemGuard.NameTable

open Toml (Entries Fault)

/-- The id of the last binding of a normal form. -/
def latest (bindings : List (String × ItemId)) (key : String) : Option ItemId :=
  (bindings.reverse.find? fun b => normalName b.1 = key).map Prod.snd

/-- The text is a document whose table `items` lists the names with their ids. -/
inductive Lists (text : String) : List (String × ItemId) → Prop where
  | noItems {document : Entries} (hread : Toml.Document.read text = .ok document)
    (hitems : document.lookup "items" = none) : Lists text []
  | items {document : Entries} {origin : Toml.Origin} {bindings : List (String × ItemId)}
    (hread : Toml.Document.read text = .ok document)
    (hitems : document.lookup "items" =
      some (.table origin (bindings.map fun b => (b.1, .integer b.2.toNat)))) :
    Lists text bindings

/-- The table can be made, and these are the bindings made on the way, the last one last. -/
inductive MadeOf : NameTable → List (String × ItemId) → Prop where
  | empty : MadeOf empty []
  | classic : MadeOf classic (classicNames.map fun b => (b.1, ItemId.ofNat b.2))
  | insert {t : NameTable} {bindings : List (String × ItemId)} (name : String) (item : ItemId)
    (ht : MadeOf t bindings) : MadeOf (t.insert name item) (bindings ++ [(name, item)])
  | extend {t other : NameTable} {bindings added : List (String × ItemId)}
    (ht : MadeOf t bindings) (hother : MadeOf other added) :
    MadeOf (t.extend other) (bindings ++ added)
  /-- No two names of the file are one name. -/
  | ofToml {t : NameTable} {text : String} {bindings : List (String × ItemId)}
    (hlists : Lists text bindings) (hnodup : (bindings.map fun b => normalName b.1).Nodup)
    (hread : NameTable.ofToml text = .ok t) : MadeOf t bindings

/-- The table is the map that the bindings make. -/
def Holds (t : NameTable) (bindings : List (String × ItemId)) : Prop :=
  ∀ key, t.ids[key]? = latest bindings key

variable {t other : NameTable} {bindings added : List (String × ItemId)} {key : String}

/-! ## The last binding -/

@[simp] theorem latest_nil (key : String) : latest [] key = none := rfl

theorem latest_append (bindings added : List (String × ItemId)) (key : String) :
    latest (bindings ++ added) key = (latest added key).or (latest bindings key) := by
  simp [latest, Option.map_or]

@[simp] theorem latest_singleton (b : String × ItemId) (key : String) :
    latest [b] key = if normalName b.1 = key then some b.2 else none := by
  by_cases h : normalName b.1 = key <;> simp [latest, h]

/-- Something was bound to the normal forms of the names bound, and to no others. -/
theorem isSome_latest_iff :
    (latest bindings key).isSome = true ↔ key ∈ bindings.map fun b => normalName b.1 := by
  simp [latest]

/-- Where no two names are one name, a binding is the last one of its name. -/
theorem latest_eq_some_iff (hnodup : (bindings.map fun b => normalName b.1).Nodup)
    {item : ItemId} :
    latest bindings key = some item ↔ ∃ b ∈ bindings, normalName b.1 = key ∧ b.2 = item := by
  induction bindings with
  | nil => simp
  | cons b bs ih =>
    rw [List.map_cons, List.nodup_cons] at hnodup
    have hcons : latest (b :: bs) key =
        (latest bs key).or (if normalName b.1 = key then some b.2 else none) := by
      rw [← List.singleton_append, latest_append, latest_singleton]
    simp only [hcons, List.exists_mem_cons_iff, ← ih hnodup.2]
    by_cases hkey : normalName b.1 = key
    · have hnone : latest bs key = none := by
        rw [← Option.not_isSome_iff_eq_none, isSome_latest_iff, ← hkey]
        exact hnodup.1
      simp [hkey, hnone]
    · simp [hkey]

theorem latest_perm (hnodup : (bindings.map fun b => normalName b.1).Nodup)
    (hperm : added.Perm bindings) (key : String) : latest added key = latest bindings key := by
  have hadded : (added.map fun b => normalName b.1).Nodup := (hperm.map _).nodup_iff.2 hnodup
  ext item
  simp only [latest_eq_some_iff hadded, latest_eq_some_iff hnodup, hperm.mem_iff]

/-! ## Operations -/

theorem eq_of_getElem?_eq (h : ∀ key : String, t.ids[key]? = other.ids[key]?) : t = other := by
  cases t
  cases other
  exact congrArg mk (Std.ExtTreeMap.ext_getElem? fun {key} => h key)

theorem getElem?_insertAll (t : NameTable) (bindings : List (String × ItemId)) (key : String) :
    (t.insertAll bindings).ids[key]? = (latest bindings key).or t.ids[key]? := by
  induction bindings generalizing t with
  | nil => rfl
  | cons b bs ih =>
    rw [← List.singleton_append, latest_append, latest_singleton, Option.or_assoc]
    change (insertAll (t.insert b.1 b.2) bs).ids[key]? = _
    rw [ih, insert, Std.ExtTreeMap.getElem?_insert]
    by_cases hkey : normalName b.1 = key <;> simp [hkey]

/-- Normal forms can be bound as they stand. -/
theorem insertMany_eq (ids : Std.ExtTreeMap String ItemId)
    (hnormal : ∀ b ∈ bindings, normalName b.1 = b.1) :
    ids.insertMany bindings = (insertAll ⟨ids⟩ bindings).ids := by
  induction bindings generalizing ids with
  | nil => rfl
  | cons b bs ih =>
    have hinsert : insertAll ⟨ids⟩ (b :: bs) = insertAll ⟨ids.insert b.1 b.2⟩ bs := by
      rw [insertAll, List.foldl_cons, insert, hnormal b List.mem_cons_self]
      rfl
    rw [Std.ExtTreeMap.insertMany_cons, hinsert, ih _ fun c hc => hnormal c (.tail b hc)]

/-- In which order the names of a file are bound does not matter, if no two of them are one name. -/
theorem insertAll_perm (t : NameTable) (hnodup : (bindings.map fun b => normalName b.1).Nodup)
    (hperm : added.Perm bindings) : t.insertAll added = t.insertAll bindings := by
  refine eq_of_getElem?_eq fun key => ?_
  rw [getElem?_insertAll, getElem?_insertAll, latest_perm hnodup hperm]

namespace Holds

theorem empty : Holds empty [] := fun key => by
  simp [NameTable.empty]

theorem insert (h : Holds t bindings) (name : String) (item : ItemId) :
    Holds (t.insert name item) (bindings ++ [(name, item)]) := fun key => by
  rw [latest_append, latest_singleton, NameTable.insert, Std.ExtTreeMap.getElem?_insert, h]
  by_cases hkey : normalName name = key <;> simp [hkey]

theorem extend (h : Holds t bindings) (hother : Holds other added) :
    Holds (t.extend other) (bindings ++ added) := fun key => by
  rw [latest_append, NameTable.extend, Std.ExtTreeMap.getElem?_union, h, hother]

theorem insertAll (added : List (String × ItemId)) :
    Holds (NameTable.empty.insertAll added) added := fun key => by
  simp [getElem?_insertAll, NameTable.empty]

/-- The names of the classic table are kept as they stand, which are their normal forms. -/
theorem classic : Holds classic (classicNames.map fun b => (b.1, ItemId.ofNat b.2)) := by
  have hnormal : ∀ b ∈ classicNames.map fun b => (b.1, ItemId.ofNat b.2),
      normalName b.1 = b.1 := by
    intro b hb
    obtain ⟨c, hc, rfl⟩ := List.mem_map.1 hb
    exact normalName_classic c hc
  intro key
  rw [NameTable.classic, Std.ExtTreeMap.ofList_eq_insertMany_empty, insertMany_eq ∅ hnormal]
  exact insertAll _ key

/-- Keys are normal forms. -/
theorem normalName_of_mem (h : Holds t bindings) (hkey : key ∈ t.ids) : normalName key = key := by
  rw [← Std.ExtTreeMap.isSome_getElem?_iff_mem, h, isSome_latest_iff] at hkey
  obtain ⟨b, -, rfl⟩ := List.mem_map.1 hkey
  exact normalName_normalName b.1

theorem find?_eq (h : Holds t bindings) (name : String) :
    t.find? name = latest bindings (normalName name) :=
  h (normalName name)

/-- The number of names. -/
theorem size_eq (h : Holds t bindings) :
    t.size = (bindings.map fun b => normalName b.1).dedup.length := by
  have hperm : t.ids.keys.Perm (bindings.map fun b => normalName b.1).dedup := by
    rw [List.perm_ext_iff_of_nodup Std.ExtTreeMap.nodup_keys (List.nodup_dedup _)]
    intro key
    rw [Std.ExtTreeMap.mem_keys, List.mem_dedup, ← Std.ExtTreeMap.isSome_getElem?_iff_mem, h,
      isSome_latest_iff]
  rw [size, ← Std.ExtTreeMap.length_keys, hperm.length_eq]

end Holds

/-! ## Item tables in files -/

theorem asNatural_eq_ok_iff {bound n : Nat} {value : Toml.Value} :
    value.asNatural bound = .ok n ↔ n < bound ∧ value = .integer n := by
  constructor
  · intro h
    cases value with
    | integer value =>
      simp only [Toml.Value.asNatural] at h
      split at h
      next hrange =>
        simp only [Bool.and_eq_true, decide_eq_true_eq] at hrange
        cases h
        rw [Toml.Value.integer.injEq]
        omega
      next => cases h
    | _ => cases h
  · rintro ⟨hlt, rfl⟩
    simp [Toml.Value.asNatural, hlt]

theorem readIds_cons_eq_ok_iff {e : String × Toml.Value} {es : Entries}
    {ids : List (String × Nat)} :
    readIds (e :: es) = .ok ids ↔ ∃ n rest, e.2.asNatural ItemId.bound = .ok n ∧
      readIds es = .ok rest ∧ ids = (e.1, n) :: rest := by
  unfold readIds
  rw [List.mapM_cons]
  cases hvalue : e.2.asNatural ItemId.bound with
  | error fault => simp [bind, Except.bind]
  | ok n =>
    cases hrest : List.mapM (fun e : String × Toml.Value =>
      (do .ok (e.1, ← e.2.asNatural ItemId.bound) : Except Fault (String × Nat))) es with
    | error fault => simp [bind, Except.bind]
    | ok rest => simp [bind, Except.bind, pure, Except.pure, eq_comm]

/-- The ids of a table can be read exactly if its values are the numbers of ids. -/
theorem readIds_eq_ok_iff {entries : Entries} {ids : List (String × Nat)} :
    readIds entries = .ok ids ↔ ∃ bindings : List (String × ItemId),
      entries = bindings.map (fun b => (b.1, .integer b.2.toNat)) ∧
        ids = bindings.map fun b => (b.1, b.2.toNat) := by
  induction entries generalizing ids with
  | nil =>
    constructor
    · intro h
      cases h
      exact ⟨[], rfl, rfl⟩
    · rintro ⟨bindings, hentries, rfl⟩
      rw [List.map_eq_nil_iff.1 hentries.symm]
      rfl
  | cons e es ih =>
    rw [readIds_cons_eq_ok_iff]
    constructor
    · rintro ⟨n, rest, hvalue, hrest, rfl⟩
      obtain ⟨hlt, hvalue⟩ := asNatural_eq_ok_iff.1 hvalue
      obtain ⟨bindings, rfl, rfl⟩ := ih.1 hrest
      refine ⟨(e.1, ItemId.ofNat n) :: bindings, ?_, ?_⟩ <;>
        simp [ItemId.toNat_ofNat hlt, ← hvalue]
    · rintro ⟨bindings, hentries, rfl⟩
      obtain ⟨b, bs, rfl, rfl, rfl⟩ := List.map_eq_cons_iff.1 hentries.symm
      exact ⟨b.2.toNat, _, asNatural_eq_ok_iff.2 ⟨b.2.toNat_lt_bound, rfl⟩,
        ih.2 ⟨bs, rfl, rfl⟩, rfl⟩

theorem readBindings_eq_ok_iff {text : String} {ids : List (String × Nat)} :
    readBindings text = .ok ids ↔
      ∃ bindings, Lists text bindings ∧ ids = bindings.map fun b => (b.1, b.2.toNat) := by
  have hread : ∀ document, Toml.Document.read text = .ok document → readBindings text =
      match document.lookup "items" with
      | none => .ok []
      | some value => value.asTable.bind readIds := by
    intro document hdocument
    have hget : readBindings text =
        ((Toml.Fields.named document).getD 0 "items" Toml.Value.asTable []).bind readIds := by
      unfold readBindings
      rw [hdocument]
      rfl
    rw [hget, Toml.Fields.getD, Toml.Fields.get?]
    cases document.lookup "items" <;> rfl
  constructor
  · intro h
    cases hdocument : Toml.Document.read text with
    | error fault => simp [readBindings, hdocument, bind, Except.bind] at h
    | ok document =>
      rw [hread document hdocument] at h
      cases hitems : document.lookup "items" with
      | none =>
        rw [hitems] at h
        cases h
        exact ⟨[], .noItems hdocument hitems, rfl⟩
      | some value =>
        rw [hitems] at h
        cases value with
        | table origin entries =>
          obtain ⟨bindings, rfl, rfl⟩ := readIds_eq_ok_iff.1 h
          exact ⟨bindings, .items hdocument hitems, rfl⟩
        | _ => cases h
  · rintro ⟨bindings, hlists, rfl⟩
    cases hlists with
    | noItems hdocument hitems =>
      rw [hread _ hdocument, hitems]
      rfl
    | items hdocument hitems =>
      rw [hread _ hdocument, hitems]
      exact readIds_eq_ok_iff.2 ⟨bindings, rfl, rfl⟩

theorem lists_iff {text : String} :
    Lists text bindings ↔ readBindings text = .ok (bindings.map fun b => (b.1, b.2.toNat)) := by
  have hback : Function.Injective fun b : String × ItemId => (b.1, b.2.toNat) := by
    intro b c hbc
    obtain ⟨hname, hid⟩ := Prod.mk.inj hbc
    exact Prod.ext hname (by rw [← ItemId.ofNat_toNat b.2, hid, ItemId.ofNat_toNat])
  rw [readBindings_eq_ok_iff]
  constructor
  · exact fun h => ⟨bindings, h, rfl⟩
  · rintro ⟨listed, hlisted, heq⟩
    rwa [hback.list_map heq]

theorem ofToml_of_lists {text : String} (h : Lists text bindings) :
    ofToml text =
      match bindings.find? fun b => b.2.toNat == 0 with
      | some b => .error (.reserved b.1)
      | none => .ok (empty.insertAll bindings) := by
  rw [ofToml, lists_iff.1 h]
  dsimp only
  rw [List.find?_map, List.map_map]
  cases hzero : bindings.find? fun b => b.2.toNat == 0 <;> simp [Function.comp_def, hzero]

/-- A document is an item table exactly if its ids are ids and none of them is 0. -/
theorem ofToml_eq_ok_iff {text : String} :
    ofToml text = .ok t ↔ ∃ bindings, Lists text bindings ∧ (∀ b ∈ bindings, b.2.toNat ≠ 0) ∧
      t = empty.insertAll bindings := by
  constructor
  · intro h
    cases hread : readBindings text with
    | error fault => simp [ofToml, hread] at h
    | ok ids =>
      obtain ⟨bindings, hlists, -⟩ := readBindings_eq_ok_iff.1 hread
      rw [ofToml_of_lists hlists] at h
      split at h
      next => cases h
      next hzero =>
        cases h
        exact ⟨bindings, hlists, by simpa using hzero, rfl⟩
  · rintro ⟨bindings, hlists, hnonzero, rfl⟩
    have hnone : (bindings.find? fun b => b.2.toNat == 0) = none := by simpa using hnonzero
    rw [ofToml_of_lists hlists, hnone]

/-- One id 0 is enough to refuse a document. -/
theorem ofToml_of_zero_mem {text : String} {document entries : Entries} {origin : Toml.Origin}
    {name : String} (hread : Toml.Document.read text = .ok document)
    (hitems : document.lookup "items" = some (.table origin entries))
    (hmem : (name, .integer 0) ∈ entries) : ∃ e, ofToml text = .error e := by
  cases hresult : ofToml text with
  | error e => exact ⟨e, rfl⟩
  | ok t =>
    obtain ⟨bindings, hlists, hnonzero, -⟩ := ofToml_eq_ok_iff.1 hresult
    exfalso
    cases hlists with
    | noItems hread' hitems' =>
      rw [hread] at hread'
      cases hread'
      rw [hitems] at hitems'
      cases hitems'
    | items hread' hitems' =>
      rw [hread] at hread'
      cases hread'
      rw [hitems] at hitems'
      cases hitems'
      obtain ⟨b, hb, heq⟩ := List.mem_map.1 hmem
      have hid : (b.2.toNat : Int) = 0 := Toml.Value.integer.inj (Prod.mk.inj heq).2
      exact hnonzero b hb (Int.ofNat_eq_zero.1 hid)

/-! ## Tables that can be made -/

theorem MadeOf.holds (h : MadeOf t bindings) : Holds t bindings := by
  induction h with
  | empty => exact .empty
  | classic => exact .classic
  | insert name item _ ih => exact ih.insert name item
  | extend _ _ ih ihother => exact ih.extend ihother
  | ofToml hlists _ hread =>
    rw [ofToml_of_lists hlists] at hread
    split at hread
    next => cases hread
    next =>
      cases hread
      exact .insertAll _

/-- **Tables are maps.** The keys of a table are normal forms, and a name has the id of the last
binding of its normal form, which it shares with the names spelled alike. A file with an id 0 is
refused, wherever in it that stands; the names of any other may be bound in whatever order. -/
theorem maps_of_madeOf (h : MadeOf t bindings) :
    (∀ key ∈ t.ids, normalName key = key) ∧
    (∀ name, t.find? name = latest bindings (normalName name)) ∧
    t.size = (bindings.map fun b => normalName b.1).dedup.length ∧
    (∀ name, normalName (normalName name) = normalName name) ∧
    (∀ name other, normalName name = normalName other ↔ SpelledAlike name other) ∧
    (∀ name other, SpelledAlike name other → t.find? name = t.find? other) ∧
    (∀ text document origin entries name, Toml.Document.read text = .ok document →
      document.lookup "items" = some (.table origin entries) → (name, .integer 0) ∈ entries →
      ∃ e, ofToml text = .error e) ∧
    ∀ text listed order, Lists text listed → (∀ b ∈ listed, b.2.toNat ≠ 0) →
      (listed.map fun b => normalName b.1).Nodup → order.Perm listed →
      ofToml text = .ok (empty.insertAll order) := by
  refine ⟨fun key => h.holds.normalName_of_mem, h.holds.find?_eq, h.holds.size_eq,
    normalName_normalName, fun _ _ => normalName_eq_iff, fun name other halike => ?_,
    fun _ _ _ _ _ => ofToml_of_zero_mem, ?_⟩
  · rw [find?, find?, normalName_eq_iff.2 halike]
  · intro text listed order hlists hnonzero hnodup hperm
    rw [insertAll_perm _ hnodup hperm]
    exact ofToml_eq_ok_iff.2 ⟨listed, hlists, hnonzero, rfl⟩

/-- The classic names under those of a file, and one more name over both, which is given the id 0.
-/
theorem maps_of_madeOf_overlaid :
    let text := "[items]\n'Magic Wand' = 900\ntnt = 1046\n"
    let listed : List (String × ItemId) := [("Magic Wand", ⟨900⟩), ("tnt", ⟨1046⟩)]
    let t := (classic.extend (empty.insertAll listed)).insert "\u3000Gold-Block " ⟨0⟩
    ofToml text = .ok (empty.insertAll listed) ∧ t.find? " MAGIC_wand" = some ⟨900⟩ ∧
      t.find? "TNT" = some ⟨1046⟩ ∧ t.find? "gold block" = some ⟨0⟩ ∧
      t.find? "goldblock" = none := by
  intro text listed t
  have hlists : Lists text listed := lists_iff.2 (by decide +kernel)
  have hfile : ofToml text = .ok (empty.insertAll listed) :=
    ofToml_eq_ok_iff.2 ⟨listed, hlists, by decide, rfl⟩
  have hmade : MadeOf t _ :=
    .insert _ _ (.extend .classic (.ofToml hlists (by decide +kernel) hfile))
  obtain ⟨-, hfind, -⟩ := maps_of_madeOf hmade
  simp only [hfind]
  exact ⟨hfile, by decide +kernel, by decide +kernel, by decide +kernel, by decide +kernel⟩

end ItemGuard.NameTable
