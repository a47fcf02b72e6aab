import ItemGuard.Guard.Start
import ItemGuard.Proofs.Audit.Run
import ItemGuard.Proofs.Guard.Decisions
import ItemGuard.Proofs.Item.Tables
import ItemGuard.Proofs.Storage.Additions

/-!
# Starting from settings

A guard that starts from settings depends on three files, each of which may be missing or unfit.
What it makes of one of them does not depend on the others (`startedFrom_ofSettings`), with one
exception: the blacklist is read after the audit log is opened, and may be found through a directory
that this makes (`startedFrom_through_made_directory`).
-/

namespace ItemGuard.Guard

open Audit (Logger)
open Blacklist (read)
open NameTable (Lists)
open Storage (Files)

/-- The settings name a file that lists these further names with their ids. -/
def GivesNames (s : Settings) (env : Environment) (fs : Files)
    (bindings : List (String × ItemId)) : Prop :=
  ∃ path text, s.itemTablePath env = some path ∧ fs.readText path = .ok text ∧
    Lists text bindings ∧ ∀ b ∈ bindings, b.2.toNat ≠ 0

/-- There are no further names, for one reason or another. -/
inductive LacksNames (s : Settings) (env : Environment) (fs : Files) : Prop where
  | unset (hpath : s.itemTablePath env = none)
  | unread {path : String} {failure : Storage.Failure} (hpath : s.itemTablePath env = some path)
    (hread : fs.readText path = .error failure)
  | malformed {path text : String} (hpath : s.itemTablePath env = some path)
    (hread : fs.readText path = .ok text) (hlists : ∀ bindings, ¬ Lists text bindings)
  | reserved {path text : String} {bindings : List (String × ItemId)} {b : String × ItemId}
    (hpath : s.itemTablePath env = some path) (hread : fs.readText path = .ok text)
    (hlists : Lists text bindings) (hmem : b ∈ bindings) (hzero : b.2.toNat = 0)

/-- The blacklist is not looked for through a directory that is there only since the audit log was
opened. -/
def Unaided (s : Settings) (env : Environment) (fs : Files) : Prop :=
  ∀ loc, (Logger.opening s.audit env fs).2.Climbs (s.blacklistPath env) loc →
    fs.node? loc = some .directory

/-- What a guard that started from settings makes of the files. -/
structure StartedFrom (s : Settings) (env : Environment) (fs : Files) (g : Guard Logger Unit) :
    Prop where
  names : LacksNames s env fs ∨ ∃ bindings, GivesNames s env fs bindings
  /-- The further names come first. -/
  listed : ∀ bindings, GivesNames s env fs bindings →
    (bindings.map fun b => normalName b.1).Nodup →
    ∀ b ∈ bindings, ∀ name, normalName b.1 = normalName name → g.registry name = some b.2
  unlisted : ∀ bindings, GivesNames s env fs bindings →
    ∀ name, (∀ b ∈ bindings, normalName b.1 ≠ normalName name) →
      g.registry name = NameTable.classic.find? name
  unfit : LacksNames s env fs → g.registry = NameTable.classic.find?
  loaded : ∀ text, fs.readText (s.blacklistPath env) = .ok text →
    g.ruleset? = (read g.registry text).ruleset?
  /-- Without a blacklist nothing is suppressed until one is loaded. -/
  unloaded : Unaided s env fs → (∀ text, fs.readText (s.blacklistPath env) ≠ .ok text) →
    g.ruleset? = none ∧
    ∀ requests, g.lastLoaded? requests = none → ∀ r, ((g.after requests).step r).1 ≠ .suppress true
  /-- In any case it is the blacklist that is found once the audit log is opened. -/
  found : g.ruleset? =
    ((Logger.opening s.audit env fs).2.readText (s.blacklistPath env)).toOption.bind fun text =>
      (read g.registry text).ruleset?
  /-- Other settings of the audit log make no difference. -/
  unaudited : ∀ audit, (ofSettings { s with audit := audit } env fs).registry = g.registry ∧
    (Unaided s env fs → Unaided { s with audit := audit } env fs →
      (ofSettings { s with audit := audit } env fs).ruleset? = g.ruleset?)
  /-- The names stay the same for good. -/
  reloaded : ∀ requests text,
    ((g.after requests).reload text).2.ruleset? = (read g.registry text).ruleset? ∧
    ∀ path, (g.after requests).files.readText path = .ok text →
      ((g.after requests).reloadPath path).2.ruleset? = (read g.registry text).ruleset?

variable {s : Settings} {env : Environment} {fs : Files} {bindings : List (String × ItemId)}

/-! ## Names -/

theorem lacksNames_or_givesNames (s : Settings) (env : Environment) (fs : Files) :
    LacksNames s env fs ∨ ∃ bindings, GivesNames s env fs bindings := by
  cases hpath : s.itemTablePath env with
  | none => exact .inl (.unset hpath)
  | some path =>
    cases hread : fs.readText path with
    | error failure => exact .inl (.unread hpath hread)
    | ok text =>
      by_cases hlisted : ∃ bindings, Lists text bindings
      · obtain ⟨bindings, hlists⟩ := hlisted
        by_cases hzero : ∃ b ∈ bindings, b.2.toNat = 0
        · obtain ⟨b, hmem, hzero⟩ := hzero
          exact .inl (.reserved hpath hread hlists hmem hzero)
        · exact .inr ⟨bindings, path, text, hpath, hread, hlists,
            fun b hmem h => hzero ⟨b, hmem, h⟩⟩
      · exact .inl (.malformed hpath hread (not_exists.1 hlisted))

theorem namesOf_of_givesNames (h : GivesNames s env fs bindings) :
    (namesOf s env fs).1 = NameTable.classic.extend (NameTable.empty.insertAll bindings) := by
  obtain ⟨path, text, hpath, hread, hlists, hnonzero⟩ := h
  have hfile : NameTable.ofFile fs path = .ok (NameTable.empty.insertAll bindings) := by
    rw [NameTable.ofFile, hread]
    exact NameTable.ofToml_eq_ok_iff.2 ⟨bindings, hlists, hnonzero, rfl⟩
  simp only [namesOf, hpath, hfile]

theorem namesOf_of_lacksNames (h : LacksNames s env fs) :
    (namesOf s env fs).1 = NameTable.classic := by
  have hrefused : ∀ {path}, s.itemTablePath env = some path →
      (∀ t, NameTable.ofFile fs path ≠ .ok t) → (namesOf s env fs).1 = NameTable.classic := by
    intro path hpath hfile
    cases hresult : NameTable.ofFile fs path with
    | ok t => exact absurd hresult (hfile t)
    | error e => simp only [namesOf, hpath, hresult]
  cases h with
  | unset hpath => simp only [namesOf, hpath]
  | unread hpath hread =>
    refine hrefused hpath fun t hfile => ?_
    rw [NameTable.ofFile, hread] at hfile
    cases hfile
  | malformed hpath hread hlists =>
    refine hrefused hpath fun t hfile => ?_
    rw [NameTable.ofFile, hread] at hfile
    obtain ⟨bindings, hlisted, -⟩ := NameTable.ofToml_eq_ok_iff.1 hfile
    exact hlists bindings hlisted
  | reserved hpath hread hlists hmem hzero =>
    refine hrefused hpath fun t hfile => ?_
    rw [NameTable.ofFile, hread] at hfile
    dsimp only at hfile
    rw [NameTable.ofToml_of_lists hlists] at hfile
    split at hfile
    next => cases hfile
    next hnone =>
      exact absurd (beq_iff_eq.2 hzero) (by simpa using List.find?_eq_none.1 hnone _ hmem)

/-! ## Files -/

/-- One file at the root. -/
theorem wellFormed_newFile (name : String) (bytes : Bytes) :
    (((Files.emptyAt []).newFile [name]).setContent 0 bytes).WellFormed := by
  have hroot : (Files.emptyAt []).node? [] = some .directory := rfl
  refine ((Files.wellFormed_emptyAt []).newFile hroot ?_).setContent bytes
  rw [List.nil_append, Files.node?_emptyAt]
  simp

/-- Opening a log adds directories and an empty file at most, whether it succeeds or not. -/
theorem adds_opening (hwf : fs.WellFormed) (audit : AuditSettings) (env : Environment) :
    fs.Adds (Logger.opening audit env fs).2 := by
  unfold Logger.opening Logger.ofSettings
  cases hpath : audit.filePath env with
  | none => exact .refl fs
  | some path =>
    have hmade := Files.Extends.makeParents fs path
    dsimp only
    cases hcreate : Audit.RollingLog.create path audit.fileLimit audit.fileCount fs with
    | mk result opened =>
      cases result with
      | ok log =>
        obtain ⟨made, loc, hparents, hnames, hregular, rfl, -⟩ := Audit.create_eq_ok hcreate
        rw [hparents] at hmade
        exact hmade.adds_openNode hwf hnames.ne_nil hregular
      | error e =>
        rw [← Audit.files_of_create_error hcreate] at hmade
        exact hmade.adds

/-! ## The guard -/

theorem ofSettings_spec (s : Settings) (env : Environment) (fs : Files) :
    (ofSettings s env fs).registry = (namesOf s env fs).1.registry ∧
      (ofSettings s env fs).ruleset? =
        ((Logger.opening s.audit env fs).2.readText (s.blacklistPath env)).toOption.bind
          fun text => (read (namesOf s env fs).1.registry text).ruleset? := by
  unfold ofSettings
  dsimp only
  generalize hg : Guard.report _ _ = g
  have hregistry : g.registry = (namesOf s env fs).1.registry := by
    rw [← hg]
    rfl
  have hnone : g.ruleset? = none := by
    rw [← hg]
    rfl
  have hfiles : (Logger.opening s.audit env fs).2 = g.files := by
    rw [← hg]
    rfl
  rw [hfiles]
  cases hread : g.files.readText (s.blacklistPath env) with
  | ok text =>
    rw [reloadPath_of_ok hread, ← hregistry]
    exact ⟨rfl, rfl⟩
  | error failure =>
    rw [reloadPath_of_error hread]
    exact ⟨hregistry, hnone⟩

theorem ruleset?_of_readText (hwf : fs.WellFormed) {text : String}
    (hread : fs.readText (s.blacklistPath env) = .ok text) :
    (ofSettings s env fs).ruleset? = (read (namesOf s env fs).1.registry text).ruleset? := by
  rw [(ofSettings_spec s env fs).2, (adds_opening hwf s.audit env).readText_eq hread]
  rfl

/-- A blacklist that could not be read is empty at best if it can be once the log is opened. -/
theorem ruleset?_of_unaided (hwf : fs.WellFormed) (hunaided : Unaided s env fs) :
    (ofSettings s env fs).ruleset? =
      (fs.readText (s.blacklistPath env)).toOption.bind fun text =>
        (read (namesOf s env fs).1.registry text).ruleset? := by
  cases hread : fs.readText (s.blacklistPath env) with
  | ok text => exact ruleset?_of_readText hwf hread
  | error failure =>
    rw [(ofSettings_spec s env fs).2]
    cases hopened : (Logger.opening s.audit env fs).2.readText (s.blacklistPath env) with
    | error failure => rfl
    | ok text =>
      rcases (adds_opening hwf s.audit env).readText_back hwf hunaided hopened with hback | rfl
      · rw [hread] at hback
        cases hback
      · rfl

theorem registry_of_givesNames (h : GivesNames s env fs bindings) (name : String) :
    (ofSettings s env fs).registry name =
      (NameTable.latest bindings (normalName name)).or (NameTable.classic.find? name) := by
  rw [(ofSettings_spec s env fs).1, namesOf_of_givesNames h, NameTable.registry,
    NameTable.find?_extend, (NameTable.Holds.insertAll bindings).find?_eq]

/-- A path that does not go up anywhere needs no help. -/
theorem unaided_of_notMem (h : ".." ∉ (Storage.Path.ofText (s.blacklistPath env)).names) :
    Unaided s env fs :=
  fun loc hclimbs => absurd hclimbs (Files.not_climbs_of_notMem h loc)

/-- **Starting from settings.** Names come from the table of further names, if it is fit, and from
the classic ones; the blacklist that can be read is in force, and without one nothing is suppressed.
-/
theorem startedFrom_ofSettings (s : Settings) (env : Environment) (hwf : fs.WellFormed) :
    StartedFrom s env fs (ofSettings s env fs) where
  names := lacksNames_or_givesNames s env fs
  listed bindings h hnodup b hb name hname := by
    rw [registry_of_givesNames h,
      (NameTable.latest_eq_some_iff hnodup).2 ⟨b, hb, hname, rfl⟩, Option.some_or]
  unlisted bindings h name hother := by
    have hnone : NameTable.latest bindings (normalName name) = none := by
      rw [← Option.not_isSome_iff_eq_none, NameTable.isSome_latest_iff, List.mem_map]
      rintro ⟨b, hb, hname⟩
      exact hother b hb hname
    rw [registry_of_givesNames h, hnone, Option.none_or]
  unfit h := by
    rw [(ofSettings_spec s env fs).1, namesOf_of_lacksNames h]
    rfl
  loaded text hread := by
    rw [(ofSettings_spec s env fs).1]
    exact ruleset?_of_readText hwf hread
  unloaded hunaided hunread := by
    have hnone : (ofSettings s env fs).ruleset? = none := by
      rw [ruleset?_of_unaided hwf hunaided]
      cases hread : fs.readText (s.blacklistPath env) with
      | ok text => exact absurd hread (hunread text)
      | error failure => rfl
    refine ⟨hnone, fun requests hloaded => (enforces_self _).none_suppressed ?_⟩
    rw [ruleset?_after, hloaded, hnone]
  found := by
    obtain ⟨hregistry, hruleset⟩ := ofSettings_spec s env fs
    rw [hregistry, hruleset]
  unaudited audit := by
    have hnames : (namesOf { s with audit := audit } env fs).1 = (namesOf s env fs).1 := rfl
    constructor
    · rw [(ofSettings_spec _ env fs).1, (ofSettings_spec s env fs).1, hnames]
    · intro hunaided hunaided'
      rw [ruleset?_of_unaided hwf hunaided', ruleset?_of_unaided hwf hunaided, hnames]
      rfl
  reloaded requests text := by
    have hself := enforces_self ((ofSettings s env fs).after requests)
    rw [registry_after] at hself
    exact ⟨(hself.reload_eq text).2, fun path hread => (hself.reloadPath_ok path text hread).2⟩

/-- The blacklist lies in the directory of the audit log, which opening the log makes, and is
missing; two further names are given in a file. -/
theorem startedFrom_ofSettings_no_blacklist :
    let fs := ((Files.emptyAt []).newFile ["items.toml"]).setContent 0
      (Text.utf8 "[items]\nray_gun = 5000\ntnt = 77\n")
    let s : Settings :=
      ⟨"logs/list.txt", some "items.toml", ⟨false, some "logs/a.log", 0, 10⟩, "info"⟩
    let env : Environment := ⟨none, none⟩
    let g := ofSettings s env fs
    fs.WellFormed ∧ g.registry "Ray Gun" = some ⟨5000⟩ ∧ g.registry "TNT" = some ⟨77⟩ ∧
      g.registry "minecart" = some ⟨328⟩ ∧ g.ruleset? = none ∧
      ∀ r, (g.step r).1 ≠ .suppress true := by
  intro fs s env g
  let bindings : List (String × ItemId) := [("ray_gun", ⟨5000⟩), ("tnt", ⟨77⟩)]
  have hwf : fs.WellFormed := wellFormed_newFile "items.toml" _
  have hstarted : StartedFrom s env fs g := startedFrom_ofSettings s env hwf
  have hgives : GivesNames s env fs bindings :=
    ⟨"items.toml", "[items]\nray_gun = 5000\ntnt = 77\n", by decide, by decide +kernel,
      NameTable.lists_iff.2 (by decide +kernel), by decide⟩
  have hlisted := hstarted.listed bindings hgives (by decide +kernel)
  have hminecart := hstarted.unlisted bindings hgives "minecart" (by decide +kernel)
  have hmissing : fs.readText (s.blacklistPath env) = .error .notFound := by decide +kernel
  obtain ⟨hnone, hsuppressed⟩ := hstarted.unloaded (unaided_of_notMem (by decide +kernel))
    fun text hread => by
      rw [hmissing] at hread
      cases hread
  have hquiet := hsuppressed [] rfl
  rw [after_nil] at hquiet
  refine ⟨hwf, hlisted _ List.mem_cons_self "Ray Gun" (by decide +kernel),
    hlisted ("tnt", ⟨77⟩) (by decide) "TNT" (by decide +kernel), ?_, hnone, hquiet⟩
  rw [hminecart, NameTable.Holds.classic.find?_eq]
  decide +kernel

/-- There is no blacklist to be read at first, as the path goes up out of a directory that is
missing. Opening the audit log makes that directory, and the blacklist is loaded. -/
theorem startedFrom_through_made_directory :
    let fs := ((Files.emptyAt []).newFile ["list.txt"]).setContent 0
      (Text.utf8 "[46]\non-right=mods\n")
    let s : Settings := ⟨"logs/../list.txt", none, ⟨false, some "logs/a.log", 0, 10⟩, "info"⟩
    let env : Environment := ⟨none, none⟩
    let g := ofSettings s env fs
    fs.WellFormed ∧ fs.readText (s.blacklistPath env) = .error .notFound ∧ g.isActive = true ∧
      (g.rightClick ⟨0, 0⟩ (Player.actor ⟨"guest", []⟩) ⟨46⟩ ⟨1⟩ ⟨46⟩).1 = true := by
  intro fs s env g
  exact ⟨wellFormed_newFile "list.txt" _, by decide +kernel, by decide +kernel, by decide +kernel⟩

end ItemGuard.Guard
