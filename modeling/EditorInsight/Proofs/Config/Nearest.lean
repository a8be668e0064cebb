import EditorInsight.Proofs.Config.BaseDirectory
import EditorInsight.Proofs.Config.Empty
import EditorInsight.Proofs.Config.Load
import EditorInsight.Proofs.FileSystem.Names

/-!
# The nearest file with settings

The search looks into one directory after the other, from the first one upwards, and into each for one
name after the other. It ends, because the path of a directory is longer than that of the one above, and
what it finds is the first file in the order of the two loops. Then only this file matters: it is loaded
or it is the reason why nothing is.

* `Path.up?` leads upwards; `getElem?_chain`: these are the directories of `chain`.
* `Search` is one run of the search, and `search_iff` says that there is one with one result.
* `FileAt` numbers the files that could be found, and `NearestFile` is the one with the least numbers:
  `Search.finds` is an induction on the run.
* `Loads` says what may come of a file; `loadNearest_exact` puts all of it together.
-/

namespace EditorInsight

namespace Path

/-- The directory so many steps above. -/
def up? : Nat → Path → Option Path
  | 0, p => some p
  | n + 1, p => p.parent?.bind (up? n)

theorem up?_succ_of_none {p : Path} (h : p.parent? = none) (n : Nat) : p.up? (n + 1) = none := by
  rw [up?, h, Option.bind_none]

theorem up?_succ_of_some {p up : Path} (h : p.parent? = some up) (n : Nat) :
    p.up? (n + 1) = up.up? n := by
  rw [up?, h, Option.bind_some]

end Path

namespace Config

open Json

variable {fs : FileSystem} {dir file : Path}

/-! ### The directories -/

/-- There are always enough steps: each directory above has a shorter path. -/
theorem getElem?_ancestors {fuel : Nat} (h : dir.text.length ≤ fuel) (n : Nat) :
    (ancestors fuel dir)[n]? = dir.up? n := by
  induction fuel generalizing dir n with
  | zero =>
    -- an empty path has no directory above
    have hparent : dir.parent? = none :=
      Option.eq_none_iff_forall_ne_some.mpr fun up hup =>
        Nat.not_lt_zero _ (Nat.lt_of_lt_of_le (Path.length_parent?_lt hup) h)
    cases n with
    | zero => rfl
    | succ n => exact (Path.up?_succ_of_none hparent n).symm
  | succ fuel ih =>
    rw [ancestors]
    cases hparent : dir.parent? with
    | none =>
      cases n with
      | zero => rfl
      | succ n => exact (Path.up?_succ_of_none hparent n).symm
    | some up =>
      have hup : up.text.length ≤ fuel :=
        Nat.le_of_lt_succ (Nat.lt_of_lt_of_le (Path.length_parent?_lt hparent) h)
      cases n with
      | zero => rfl
      | succ n => exact (ih hup n).trans (Path.up?_succ_of_some hparent n).symm

theorem getElem?_chain (dir : Path) (n : Nat) : (chain dir)[n]? = dir.up? n :=
  getElem?_ancestors (Nat.le_refl _) n

theorem chain_eq (dir : Path) : chain dir = dir :: dir.parent?.elim [] chain := by
  refine List.ext_getElem? fun n => ?_
  rw [getElem?_chain]
  cases n with
  | zero => rfl
  | succ n =>
    rw [List.getElem?_cons_succ]
    cases hparent : dir.parent? with
    | none => exact Path.up?_succ_of_none hparent n
    | some up => exact (Path.up?_succ_of_some hparent n).trans (getElem?_chain up n).symm

/-- A directory is looked into before the one above. -/
theorem findConfig_eq (fs : FileSystem) (dir : Path) :
    findConfig fs dir = (configIn? fs dir).or (dir.parent?.bind (findConfig fs)) := by
  rw [findConfig, chain_eq, List.findSome?_cons]
  cases configIn? fs dir with
  | some file => rfl
  | none =>
    cases dir.parent? with
    | none => rfl
    | some up => rfl

/-! ### The search -/

/-- One run of the search. -/
inductive Search (fs : FileSystem) : Path → Option Path → Prop where
  /-- It ends at the first directory that has a file. -/
  | here {dir file : Path} (hfile : configIn? fs dir = some file) : Search fs dir (some file)
  /-- It goes on above a directory that has none. -/
  | above {dir up : Path} {r : Option Path} (hnone : configIn? fs dir = none)
      (hup : dir.parent? = some up) (hrest : Search fs up r) : Search fs dir r
  /-- It ends where nothing is above. -/
  | top {dir : Path} (hnone : configIn? fs dir = none) (htop : dir.parent? = none) :
      Search fs dir none

/-- The search ends. -/
theorem exists_search (fs : FileSystem) (dir : Path) : ∃ r, Search fs dir r := by
  cases hfile : configIn? fs dir with
  | some file => exact ⟨some file, .here hfile⟩
  | none =>
    cases hup : dir.parent? with
    | none => exact ⟨none, .top hfile hup⟩
    | some up =>
      obtain ⟨r, hr⟩ := exists_search fs up
      exact ⟨r, .above hfile hup hr⟩
termination_by dir.text.length
decreasing_by exact Path.length_parent?_lt hup

theorem Search.eq_findConfig {r : Option Path} (h : Search fs dir r) : r = findConfig fs dir := by
  induction h with
  | here hfile => rw [findConfig_eq, hfile, Option.some_or]
  | above hnone hup _ ih => rw [findConfig_eq, hnone, hup, Option.none_or, Option.bind_some, ih]
  | top hnone htop => rw [findConfig_eq, hnone, htop, Option.none_or, Option.bind_none]

/-- **The search ends**, in one way. -/
theorem search_iff {r : Option Path} : Search fs dir r ↔ r = findConfig fs dir := by
  constructor
  · exact Search.eq_findConfig
  · rintro rfl
    obtain ⟨r, hr⟩ := exists_search fs dir
    rwa [← hr.eq_findConfig]

/-! ### What is found -/

/-- There is a file with settings: so many steps above, with the name of that number. -/
def FileAt (fs : FileSystem) (dir : Path) (n i : Nat) (file : Path) : Prop :=
  ∃ d name, dir.up? n = some d ∧ configNames[i]? = some name ∧ file = d.child name ∧
    fs.isFile file = true

/-- The file is the first one: no file is in a nearer directory, and none in the same directory has a
preferred name. -/
def NearestFile (fs : FileSystem) (dir file : Path) : Prop :=
  ∃ n i, FileAt fs dir n i file ∧
    ∀ m j other, FileAt fs dir m j other → n < m ∨ n = m ∧ i ≤ j

theorem fileAt_succ_of_none (h : dir.parent? = none) (n i : Nat) (file : Path) :
    ¬ FileAt fs dir (n + 1) i file := by
  rintro ⟨d, name, hd, -⟩
  rw [Path.up?_succ_of_none h] at hd
  cases hd

theorem fileAt_succ_of_some {up : Path} (h : dir.parent? = some up) (n i : Nat) (file : Path) :
    FileAt fs dir (n + 1) i file ↔ FileAt fs up n i file := by
  unfold FileAt
  rw [Path.up?_succ_of_some h]

theorem FileAt.unique {n i : Nat} {other : Path} (h : FileAt fs dir n i file)
    (h' : FileAt fs dir n i other) : file = other := by
  obtain ⟨d, name, hd, hname, rfl, -⟩ := h
  obtain ⟨d', name', hd', hname', rfl, -⟩ := h'
  rw [Option.some.inj (hd.symm.trans hd'), Option.some.inj (hname.symm.trans hname')]

theorem NearestFile.unique {other : Path} (h : NearestFile fs dir file)
    (h' : NearestFile fs dir other) : file = other := by
  obtain ⟨n, i, hat, hleast⟩ := h
  obtain ⟨m, j, hat', hleast'⟩ := h'
  have hle := hleast m j other hat'
  have hge := hleast' n i file hat
  obtain ⟨rfl, rfl⟩ : n = m ∧ i = j := by omega
  exact hat.unique hat'

/-- No file in the directory itself. -/
theorem configIn?_eq_none_iff : configIn? fs dir = none ↔ ∀ i file, ¬ FileAt fs dir 0 i file := by
  rw [configIn?, List.find?_eq_none]
  constructor
  · rintro h i file ⟨d, name, hd, hname, rfl, hfile⟩
    obtain rfl := Option.some.inj hd
    exact h _ (List.mem_map_of_mem (List.mem_of_getElem? hname)) hfile
  · intro h p hp hfile
    obtain ⟨name, hname, rfl⟩ := List.mem_map.mp hp
    obtain ⟨i, hi⟩ := List.getElem?_of_mem hname
    exact h i _ ⟨dir, name, rfl, hi, rfl, hfile⟩

/-- The names are looked for in their order. -/
theorem exists_fileAt_of_configIn? (h : configIn? fs dir = some file) :
    ∃ i, FileAt fs dir 0 i file ∧ ∀ j other, FileAt fs dir 0 j other → i ≤ j := by
  rw [configIn?, List.find?_map] at h
  obtain ⟨name, hfind, rfl⟩ := Option.map_eq_some_iff.mp h
  obtain ⟨hfile, i, hi, rfl, hbefore⟩ := List.find?_eq_some_iff_getElem.mp hfind
  refine ⟨i, ⟨dir, configNames[i], rfl, List.getElem?_eq_getElem hi, rfl, hfile⟩, ?_⟩
  rintro j other ⟨d, name, hd, hname, rfl, hother⟩
  obtain rfl := Option.some.inj hd
  obtain ⟨hj, rfl⟩ := List.getElem?_eq_some_iff.mp hname
  refine Nat.le_of_not_lt fun hlt => ?_
  exact absurd hother (by simpa using hbefore j hlt)

/-- What a result of the search says about the files. -/
def Finds (fs : FileSystem) (dir : Path) : Option Path → Prop
  | some file => NearestFile fs dir file
  | none => ∀ n i file, ¬ FileAt fs dir n i file

/-- **A run finds the nearest file**, or there is none. The induction is on the run: where a directory
has no file, the numbers of the files are those from the directory above, one step farther. -/
theorem Search.finds {r : Option Path} (h : Search fs dir r) : Finds fs dir r := by
  induction h with
  | @here dir file hfile =>
    -- farther directories do not matter, and in this one the order of the names decides
    obtain ⟨i, hat, hleast⟩ := exists_fileAt_of_configIn? hfile
    refine ⟨0, i, hat, fun m j other hother => ?_⟩
    cases m with
    | zero => exact Or.inr ⟨rfl, hleast j other hother⟩
    | succ m => exact Or.inl (Nat.succ_pos m)
  | @above dir up r hnone hup _ ih =>
    have hhere := configIn?_eq_none_iff.mp hnone
    cases r with
    | some file =>
      obtain ⟨n, i, hat, hleast⟩ := ih
      refine ⟨n + 1, i, (fileAt_succ_of_some hup n i file).mpr hat, fun m j other hother => ?_⟩
      cases m with
      | zero => exact absurd hother (hhere j other)
      | succ m =>
        -- both are one step farther than they are from the directory above
        rw [Nat.succ_lt_succ_iff, Nat.succ_inj]
        exact hleast m j other ((fileAt_succ_of_some hup m j other).mp hother)
    | none =>
      intro n i file hat
      cases n with
      | zero => exact hhere i file hat
      | succ n => exact ih n i file ((fileAt_succ_of_some hup n i file).mp hat)
  | @top dir hnone htop =>
    intro n i file hat
    cases n with
    | zero => exact configIn?_eq_none_iff.mp hnone i file hat
    | succ n => exact fileAt_succ_of_none htop n i file hat

theorem finds_findConfig (fs : FileSystem) (dir : Path) : Finds fs dir (findConfig fs dir) :=
  (search_iff.mpr rfl).finds

theorem findConfig_eq_some_iff : findConfig fs dir = some file ↔ NearestFile fs dir file := by
  have hfinds := finds_findConfig fs dir
  constructor
  · intro h
    rwa [h] at hfinds
  · intro hnearest
    cases h : findConfig fs dir with
    | some other =>
      rw [h] at hfinds
      rw [NearestFile.unique hnearest hfinds]
    | none =>
      obtain ⟨n, i, hat, -⟩ := hnearest
      rw [h] at hfinds
      exact absurd hat (hfinds n i file)

theorem findConfig_eq_none_iff :
    findConfig fs dir = none ↔ ∀ n i file, ¬ FileAt fs dir n i file := by
  have hfinds := finds_findConfig fs dir
  constructor
  · intro h
    rwa [h] at hfinds
  · intro hnone
    refine Option.eq_none_iff_forall_ne_some.mpr fun file hfile => ?_
    obtain ⟨n, i, hat, -⟩ := findConfig_eq_some_iff.mp hfile
    exact hnone n i file hat

/-! ### What is loaded -/

theorem isName_of_mem {name : String} (h : name ∈ configNames) : Path.IsName name := by
  have hnames : ∀ name ∈ configNames,
      '/' ∉ name.toList ∧ name ≠ "" ∧ name ≠ "." ∧ name ≠ ".." := by decide +kernel
  obtain ⟨hslash, hempty, hdot, hdots⟩ := hnames name h
  exact ⟨hslash, hempty, hdot, hdots⟩

/-- The settings of a text in some format, or the defect of a text without this format. -/
def orInvalid (path : Path) (x : Defect) : Option Settings → Except ConfigError Settings
  | some c => .ok c
  | none => .error (.invalid path x)

/-- Each of the names tells a format, so a text is only refused because it does not have this format. -/
theorem parseAs_child {name : String} (h : name ∈ configNames) (dir : Path) (text : String) :
    ∃ x read, (x = .yaml ∨ x = .json) ∧
      Settings.parseAs (dir.child name) text = orInvalid (dir.child name) x read := by
  have hextensions : ∀ name ∈ configNames,
      (Path.nameExtension? name.toList).map String.ofList = some "yml" ∨
        (Path.nameExtension? name.toList).map String.ofList = some "yaml" ∨
        (Path.nameExtension? name.toList).map String.ofList = some "json" ∨
        (Path.nameExtension? name.toList).map String.ofList = none ∧ name = Settings.plainName := by
    decide +kernel
  have hname := isName_of_mem h
  have hextension := hextensions name h
  rw [← Path.extension?_child hname dir] at hextension
  rcases hextension with hyml | hyaml | hjson | ⟨hnone, hplain⟩
  · refine ⟨.yaml, Settings.parseYaml? text, Or.inl rfl, ?_⟩
    rw [Settings.parseAs, hyml]
    rfl
  · refine ⟨.yaml, Settings.parseYaml? text, Or.inl rfl, ?_⟩
    rw [Settings.parseAs, hyaml]
    rfl
  · refine ⟨.json, Settings.parseJson? text, Or.inr rfl, ?_⟩
    rw [Settings.parseAs, hjson]
    rfl
  · -- either format will do
    have hfile : (dir.child name).fileName? = some Settings.plainName := by
      rw [Path.fileName?_child hname, hplain]
    refine ⟨.json, (Settings.parseYaml? text).or (Settings.parseJson? text), Or.inr rfl, ?_⟩
    rw [Settings.parseAs, hnone]
    exact if_pos hfile

/-- What may come of a file below its directory: it cannot be read, its text does not have the format
that its name tells, its settings break a rule, or they are loaded. -/
inductive Loads (fs : FileSystem) (base file : Path) : Except ConfigError Settings → Prop where
  | unreadable {e : OsError} (hread : fs.readText file = .error e) :
      Loads fs base file (.error (.io e))
  | malformed {text : String} {x : Defect} (hread : fs.readText file = .ok text)
      (hparse : Settings.parseAs file text = .error (.invalid file x))
      (hx : x = .yaml ∨ x = .json) :
      Loads fs base file (.error (.invalid file x))
  | refused {text : String} {c : Settings} {f : Fault} (hread : fs.readText file = .ok text)
      (hparse : Settings.parseAs file text = .ok c) (hfault : f.IsFirst c) :
      Loads fs base file (.error (.invalid file (.fault f)))
  | loaded {text : String} {c : Settings} (hread : fs.readText file = .ok text)
      (hparse : Settings.parseAs file text = .ok c) (hvalid : c.Valid) :
      Loads fs base file (.ok (c.withBaseDir base))

theorem exists?_of_isFile (h : fs.isFile file = true) : fs.exists? file = true := by
  rw [FileSystem.isFile] at h
  rw [FileSystem.exists?]
  cases hfind : fs.find? file with
  | some e => rfl
  | none =>
    rw [hfind] at h
    cases h

theorem loadConfig_of_unreadable {e : OsError} (hexists : fs.exists? file = true)
    (hread : fs.readText file = .error e) : loadConfig fs file = .error (.io e) := by
  rw [loadConfig, hexists, hread]
  rfl

theorem loadConfig_of_read {text : String} {base : Path} (hexists : fs.exists? file = true)
    (hread : fs.readText file = .ok text) (hparent : file.parent? = some base) :
    loadConfig fs file = (Settings.parse file text).map (·.withBaseDir base) := by
  rw [loadConfig, hexists, hread, hparent]
  cases hparse : Settings.parse file text with
  | error e =>
    show Settings.parse file text >>= _ = _
    rw [hparse]
    rfl
  | ok c =>
    show Settings.parse file text >>= _ = _
    rw [hparse]
    rfl

/-- The file of a name in a directory is loaded below this directory. -/
theorem loads_loadConfig {name : String} (hname : name ∈ configNames)
    (hfile : fs.isFile (dir.child name) = true) :
    ∃ base, (dir.child name).parent? = some base ∧ base.components = dir.components ∧
      Loads fs base (dir.child name) (loadConfig fs (dir.child name)) := by
  obtain ⟨base, hparent, hbase⟩ := Path.exists_parent?_child (isName_of_mem hname) dir
  refine ⟨base, hparent, hbase, ?_⟩
  have hexists := exists?_of_isFile hfile
  cases hread : fs.readText (dir.child name) with
  | error e =>
    rw [loadConfig_of_unreadable hexists hread]
    exact .unreadable hread
  | ok text =>
    rw [loadConfig_of_read hexists hread hparent]
    obtain ⟨x, read, hx, hparse⟩ := parseAs_child hname dir text
    cases read with
    | none =>
      have hinvalid : Settings.parse (dir.child name) text = .error (.invalid (dir.child name) x) := by
        rw [Settings.parse, hparse]
        rfl
      rw [hinvalid]
      exact .malformed hread hparse hx
    | some c =>
      rw [Settings.parse_of_parseAs hparse]
      cases hfault : c.fault? with
      | none => exact .loaded hread hparse (Settings.fault?_eq_none_iff.mp hfault)
      | some f => exact .refused hread hparse (Settings.fault?_eq_some_iff.mp hfault)

/-- Settings that break no rule break none below a directory. -/
theorem Settings.Valid.withBaseDir {c : Settings} (h : c.Valid) (base : Path) :
    (c.withBaseDir base).Valid := by
  rw [Settings.withBaseDir_eq]
  exact ⟨Settings.text_interpreterIn_ne_empty base h.interpreter, h.quietInterval, h.timeout,
    h.extraArgs⟩

theorem valid_default : ({} : Settings).Valid := Settings.fault?_eq_none_iff.mp (by decide +kernel)

theorem loadNearest_of_none (h : findConfig fs dir = none) : loadNearest fs dir = .ok {} := by
  rw [loadNearest, h]

theorem loads_loadNearest (h : findConfig fs dir = some file) :
    ∃ n d name base, dir.up? n = some d ∧ name ∈ configNames ∧ file = d.child name ∧
      file.parent? = some base ∧ base.components = d.components ∧
      Loads fs base file (loadNearest fs dir) := by
  obtain ⟨n, i, ⟨d, name, hd, hname, rfl, hfile⟩, -⟩ := findConfig_eq_some_iff.mp h
  have hmem := List.mem_of_getElem? hname
  obtain ⟨base, hparent, hbase, hloads⟩ := loads_loadConfig hmem hfile
  refine ⟨n, d, name, base, hd, hmem, rfl, hparent, hbase, ?_⟩
  rwa [loadNearest, h]

theorem valid_of_loadNearest {c : Settings} (h : loadNearest fs dir = .ok c) : c.Valid := by
  cases hfind : findConfig fs dir with
  | none =>
    obtain rfl := Except.ok.inj ((loadNearest_of_none hfind).symm.trans h)
    exact valid_default
  | some file =>
    obtain ⟨-, -, -, base, -, -, -, -, -, hloads⟩ := loads_loadNearest hfind
    rw [h] at hloads
    cases hloads with
    | loaded hread hparse hvalid => exact hvalid.withBaseDir base

/-- Settings that are loaded from a text are those of the text, below the directory. -/
theorem Loads.eq_loaded {base : Path} {text : String} {c : Settings}
    {r : Except ConfigError Settings} (h : Loads fs base file r) (hread : fs.readText file = .ok text)
    (hparse : Settings.parseAs file text = .ok c) (hvalid : c.Valid) :
    r = .ok (c.withBaseDir base) := by
  cases h with
  | unreadable hread' => cases hread.symm.trans hread'
  | malformed hread' hparse' =>
    obtain rfl := Except.ok.inj (hread.symm.trans hread')
    cases hparse.symm.trans hparse'
  | refused hread' hparse' hfault =>
    obtain rfl := Except.ok.inj (hread.symm.trans hread')
    obtain rfl := Except.ok.inj (hparse.symm.trans hparse')
    exact absurd hfault.1 (Settings.valid_iff.mp hvalid _)
  | loaded hread' hparse' =>
    obtain rfl := Except.ok.inj (hread.symm.trans hread')
    obtain rfl := Except.ok.inj (hparse.symm.trans hparse')
    rfl

/-- The defaults are loaded where no file is, and otherwise only if the nearest file says them. -/
theorem loadNearest_eq_default_iff : loadNearest fs dir = .ok {} ↔
    findConfig fs dir = none ∨ ∃ file text, findConfig fs dir = some file ∧
      fs.readText file = .ok text ∧ Settings.parseAs file text = .ok {} := by
  have hbare : ({} : Settings).interpreter.components.length ≤ 1 := by decide +kernel
  cases hfind : findConfig fs dir with
  | none => exact iff_of_true (loadNearest_of_none hfind) (Or.inl rfl)
  | some file =>
    obtain ⟨-, -, -, base, -, -, -, -, -, hloads⟩ := loads_loadNearest hfind
    constructor
    · intro h
      generalize loadNearest fs dir = r at h hloads
      cases hloads with
      | unreadable => cases h
      | malformed => cases h
      | refused => cases h
      | loaded hread hparse hvalid =>
        -- the default interpreter is a bare name, and no other becomes one below a directory
        obtain rfl := Settings.eq_of_withBaseDir_eq (Except.ok.inj h) hbare rfl
        exact Or.inr ⟨file, _, rfl, hread, hparse⟩
    · rintro (hnone | ⟨other, text, hother, hread, hparse⟩)
      · cases hnone
      · obtain rfl := Option.some.inj hother
        have hdefault : ({} : Settings).withBaseDir base = {} := by
          rw [Settings.withBaseDir_eq, Settings.interpreterIn_of_le hbare]
          rfl
        rw [hloads.eq_loaded hread hparse valid_default, hdefault]

/-- A nearest file in YAML that says nothing says the defaults. -/
theorem loadNearest_of_saysNothing {text : String} (hfind : findConfig fs dir = some file)
    (hyaml : file.extension? = some "yml" ∨ file.extension? = some "yaml")
    (hread : fs.readText file = .ok text)
    (hnothing : Text.isBlankText text = true ∨ Yaml.SaysNothing text) :
    loadNearest fs dir = .ok {} := by
  have hparse : Settings.parseYaml? text = some {} :=
    Settings.parseYaml?_eq_default (hnothing.imp_right Or.inl)
  refine loadNearest_eq_default_iff.mpr (Or.inr ⟨file, text, hfind, hread, ?_⟩)
  unfold Settings.parseAs
  rcases hyaml with hextension | hextension
  · rw [hextension, hparse]
    rfl
  · rw [hextension, hparse]
    rfl

/-- **The nearest file with settings.** The search ends in one way, with `findConfig`. It finds the file
with the least numbers, that of the directory first and then that of the name, and none only if there is
no file in any of the directories. Without a file everything is at its default. With one the outcome is
that of this file alone: it is loaded below its own directory, or it is the reason why nothing is loaded.
What is loaded breaks no rule, and it is the defaults only if there is no file or if the nearest file
itself says the defaults. -/
theorem loadNearest_exact (fs : FileSystem) (dir : Path) :
    (∀ r, Search fs dir r ↔ r = findConfig fs dir) ∧
      (∀ file, findConfig fs dir = some file ↔ NearestFile fs dir file) ∧
      (findConfig fs dir = none ↔ ∀ n i file, ¬ FileAt fs dir n i file) ∧
      (findConfig fs dir = none → loadNearest fs dir = .ok {}) ∧
      (∀ file, findConfig fs dir = some file →
        ∃ n d name base, dir.up? n = some d ∧ name ∈ configNames ∧ file = d.child name ∧
          file.parent? = some base ∧ base.components = d.components ∧
          Loads fs base file (loadNearest fs dir)) ∧
      (∀ c, loadNearest fs dir = .ok c → c.Valid) ∧
      (loadNearest fs dir = .ok {} ↔
        findConfig fs dir = none ∨ ∃ file text, findConfig fs dir = some file ∧
          fs.readText file = .ok text ∧ Settings.parseAs file text = .ok {}) :=
  ⟨fun _ => search_iff, fun _ => findConfig_eq_some_iff, findConfig_eq_none_iff, loadNearest_of_none,
    fun _ => loads_loadNearest, fun _ => valid_of_loadNearest, loadNearest_eq_default_iff⟩

/-- The text of a file that only names an interpreter, below it. -/
def interpreterBelow : String := "\x7b\"interpreter\": \"bin/python\"\x7d"

theorem parseAs_interpreterBelow : Settings.parseAs ⟨"/w/pyedit.config.json"⟩ interpreterBelow
    = .ok { interpreter := ⟨"bin/python"⟩ } := by
  have hscan : Token.scan interpreterBelow.toList = some
      [.openObject, .string (some "interpreter"), .colon, .string (some "bin/python"),
        .closeObject] := by decide +kernel
  have hdocument : Settings.Document { interpreter := ⟨"bin/python"⟩ } ⟨true, none, none⟩
      [("interpreter", .string "bin/python")] :=
    ⟨⟨.string "bin/python", by simp, rfl⟩, by simp [HasGroup], by simp [HasGroup]⟩
  exact Settings.parseAs_of_isText (by decide +kernel)
    ⟨show 5000 < wordSize by decide, show 10000 < wordSize by decide⟩
    ⟨_, rfl, hdocument.members⟩ (isText_of_scan hscan rfl)

/-- The text of a file in YAML that names an interpreter and a file of the linter, below it. -/
def bothBelow : String := "# for everything\ninterpreter: bin/python\nlint:\n  rcfile: pylintrc\n"

/-- A file next to a directory that has the name of a preferred one, below a file with that name. -/
def layered : FileSystem where
  root := [(".pyeditrc.yml", .file 0o644 (.text bothBelow)),
    ("w", .directory [(".pyeditrc.yml", .directory []),
      ("pyedit.config.json", .file 0o644 (.text interpreterBelow)), ("sub", .directory [])])]

theorem leadsStraight_layered :
    layered.leadsStraight ⟨"/w/pyedit.config.json"⟩ ["w", "pyedit.config.json"] = true := by
  decide +kernel

theorem nearestFile_layered : NearestFile layered ⟨"/w/sub"⟩ ⟨"/w/pyedit.config.json"⟩ := by
  have hlower : ∀ name ∈ configNames,
      layered.leadsStraight (Path.child ⟨"/w/sub"⟩ name) ["w", "sub", name] = true ∧
        (layered.at? ["w", "sub", name]).any Entry.isFile = false := by decide +kernel
  have hpreferred : ∀ name ∈ configNames.take 6,
      layered.leadsStraight (Path.child ⟨"/w"⟩ name) ["w", name] = true ∧
        (layered.at? ["w", name]).any Entry.isFile = false := by decide +kernel
  have habove : Path.up? 1 ⟨"/w/sub"⟩ = some ⟨"/w"⟩ := by decide +kernel
  refine ⟨1, 6, ⟨⟨"/w"⟩, "pyedit.config.json", habove, rfl, by decide +kernel, ?_⟩, ?_⟩
  · exact (FileSystem.isFile_of_leadsStraight leadsStraight_layered).trans rfl
  · rintro m j other ⟨d, name, hd, hname, rfl, hother⟩
    -- no file is nearer, and none beside it has an earlier name
    match m, hd with
    | 0, hd =>
      obtain rfl := Option.some.inj hd
      obtain ⟨hways, hnone⟩ := hlower name (List.mem_of_getElem? hname)
      rw [FileSystem.isFile_of_leadsStraight hways, hnone] at hother
      cases hother
    | 1, hd =>
      obtain rfl := Option.some.inj (habove.symm.trans hd)
      refine Or.inr ⟨rfl, Nat.le_of_not_lt fun hlt => ?_⟩
      rw [← List.getElem?_take_of_lt hlt] at hname
      obtain ⟨hways, hnone⟩ := hpreferred name (List.mem_of_getElem? hname)
      rw [FileSystem.isFile_of_leadsStraight hways, hnone] at hother
      cases hother
    | m + 2, _ => exact Or.inl (Nat.succ_lt_succ (Nat.succ_pos m))

theorem leadsStraight_layered_root :
    layered.leadsStraight ⟨"/.pyeditrc.yml"⟩ [".pyeditrc.yml"] = true := by
  decide +kernel

/-- In a directory the preferred name is looked for first. -/
theorem nearestFile_layered_root : NearestFile layered ⟨"/"⟩ ⟨"/.pyeditrc.yml"⟩ := by
  refine ⟨0, 0, ⟨⟨"/"⟩, ".pyeditrc.yml", rfl, rfl, by decide +kernel, ?_⟩, ?_⟩
  · exact (FileSystem.isFile_of_leadsStraight leadsStraight_layered_root).trans rfl
  · rintro m j other -
    exact (Nat.eq_zero_or_pos m).symm.imp_right fun hm => ⟨hm.symm, Nat.zero_le j⟩

/-- A file is nearest although it has the last name, and its interpreter is below its directory. From the
root another one is nearest, in YAML. -/
theorem loadNearest_exact_layered :
    (findConfig layered ⟨"/w/sub"⟩ = some ⟨"/w/pyedit.config.json"⟩ ∧
      loadNearest layered ⟨"/w/sub"⟩ = .ok { interpreter := ⟨"/w/bin/python"⟩ }) ∧
    findConfig layered ⟨"/"⟩ = some ⟨"/.pyeditrc.yml"⟩ ∧
      loadNearest layered ⟨"/"⟩
        = .ok { interpreter := ⟨"/bin/python"⟩, lint := { rcfile := some ⟨"/pylintrc"⟩ } } := by
  constructor
  · obtain ⟨-, hsome, -, -, hloaded, -, -⟩ := loadNearest_exact layered ⟨"/w/sub"⟩
    have hfind := (hsome _).mpr nearestFile_layered
    obtain ⟨-, -, -, base, -, -, -, hparent, -, hloads⟩ := hloaded _ hfind
    have hbase : Path.parent? ⟨"/w/pyedit.config.json"⟩ = some ⟨"/w"⟩ := by decide +kernel
    obtain rfl := Option.some.inj (hbase.symm.trans hparent)
    have hread : layered.readText ⟨"/w/pyedit.config.json"⟩ = .ok interpreterBelow :=
      FileSystem.readText_of_find?
        ((FileSystem.find?_of_leadsStraight leadsStraight_layered).trans rfl)
    have hvalid : Settings.Valid { interpreter := ⟨"bin/python"⟩ } :=
      Settings.fault?_eq_none_iff.mp (by decide +kernel)
    refine ⟨hfind, ?_⟩
    rw [hloads.eq_loaded hread parseAs_interpreterBelow hvalid]
    exact congrArg Except.ok (by decide +kernel)
  · obtain ⟨-, hsome, -, -, hloaded, -, -⟩ := loadNearest_exact layered ⟨"/"⟩
    have hfind := (hsome _).mpr nearestFile_layered_root
    obtain ⟨-, -, -, base, -, -, -, hparent, -, hloads⟩ := hloaded _ hfind
    have hbase : Path.parent? ⟨"/.pyeditrc.yml"⟩ = some ⟨"/"⟩ := by decide +kernel
    obtain rfl := Option.some.inj (hbase.symm.trans hparent)
    -- the extension makes it YAML, and both paths are below the root
    have hread : layered.readText ⟨"/.pyeditrc.yml"⟩ = .ok bothBelow :=
      FileSystem.readText_of_find?
        ((FileSystem.find?_of_leadsStraight leadsStraight_layered_root).trans rfl)
    have hparse : Settings.parseAs ⟨"/.pyeditrc.yml"⟩ bothBelow
        = .ok { interpreter := ⟨"bin/python"⟩, lint := { rcfile := some ⟨"pylintrc"⟩ } } := by
      decide +kernel
    have hvalid : Settings.Valid
        { interpreter := ⟨"bin/python"⟩, lint := { rcfile := some ⟨"pylintrc"⟩ } } :=
      Settings.fault?_eq_none_iff.mp (by decide +kernel)
    refine ⟨hfind, ?_⟩
    rw [hloads.eq_loaded hread hparse hvalid]
    exact congrArg Except.ok (by decide +kernel)

end Config

end EditorInsight
