import EditorInsight.Proofs.FileSystem.Names
import EditorInsight.Proofs.Path
import Mathlib.Data.List.Induction
import Mathlib.Data.List.Nodup

/-!
# Well-formed trees

A tree of files is kept as lists of entries, and not every such tree is one that a system has: there the
entries of a directory have proper names, no two of them the same, and the current directory is there.

* `Entry.induction`: what holds of a directory if it holds of its entries, and of everything else, holds
  of all trees.
* `FileSystem.WellFormed` and `FileSystem.HasNoLinks` are the conditions. They are conditions on every
  directory, so `Entry.everywhere` decides them.
* `FileSystem.WellFormed.isEntryName_of_mem`: a row of names that leads somewhere has proper names.
-/

namespace EditorInsight

/-- Whether a text can be the name of an entry. -/
def isEntryName (name : String) : Bool :=
  FileSystem.asksForEntry name && !name.toList.contains '/' && !name.toList.contains '\x00'

theorem asksForEntry_of_isEntryName {name : String} (h : isEntryName name = true) :
    FileSystem.asksForEntry name = true := by
  simp only [isEntryName, Bool.and_eq_true] at h
  exact h.1.1

theorem isName_of_isEntryName {name : String} (h : isEntryName name = true) : Path.IsName name := by
  simp only [isEntryName, FileSystem.asksForEntry, Bool.and_eq_true, Bool.not_eq_true',
    Bool.or_eq_false_iff, beq_eq_false_iff_ne, decide_eq_true_iff] at h
  obtain ⟨⟨⟨⟨⟨hempty, hdot⟩, hdots⟩, -⟩, hslash⟩, -⟩ := h
  exact ⟨fun hmem => Bool.false_ne_true (hslash.symm.trans (List.contains_iff_mem.mpr hmem)), hempty,
    hdot, hdots⟩

theorem null_not_mem_of_isEntryName {name : String} (h : isEntryName name = true) :
    '\x00' ∉ name.toList := by
  simp only [isEntryName, Bool.and_eq_true, Bool.not_eq_true'] at h
  exact fun hmem => Bool.false_ne_true (h.2.symm.trans (List.contains_iff_mem.mpr hmem))

namespace Entry

/-- Induction over trees. -/
@[elab_as_elim]
theorem induction {motive : Entry → Prop} (file : ∀ mode contents, motive (.file mode contents))
    (directory : ∀ entries, (∀ name e, (name, e) ∈ entries → motive e) → motive (.directory entries))
    (link : ∀ target, motive (.link target)) (e : Entry) : motive e :=
  match e with
  | .file mode contents => file mode contents
  | .directory entries => directory entries fun _ e _ => induction file directory link e
  | .link target => link target
decreasing_by
  have hmem := List.sizeOf_lt_of_mem ‹_ ∈ entries›
  simp only [Entry.directory.sizeOf_spec, Prod.mk.sizeOf_spec] at hmem ⊢
  omega

mutual

/-- Whether every directory in a tree passes a test of its entries. -/
def everywhere (test : List (String × Entry) → Bool) : Entry → Bool
  | .directory entries => test entries && everywhereIn test entries
  | .file .. | .link _ => true

/-- Whether every directory in some trees passes a test of its entries. -/
def everywhereIn (test : List (String × Entry) → Bool) : List (String × Entry) → Bool
  | [] => true
  | (_, e) :: rest => everywhere test e && everywhereIn test rest

end

variable {test : List (String × Entry) → Bool} {entries : List (String × Entry)}

theorem everywhere_of_mem (h : everywhereIn test entries = true) {p : String × Entry}
    (hp : p ∈ entries) : everywhere test p.2 = true := by
  induction entries with
  | nil => cases hp
  | cons q rest ih =>
    rw [everywhereIn, Bool.and_eq_true] at h
    rcases List.mem_cons.mp hp with rfl | hp
    · exact h.1
    · exact ih h.2 hp

/-- Every row of names leads to a tree that passes the test if the whole one does. -/
theorem everywhere_follow? {e f : Entry} {location : List String} (h : everywhere test e = true)
    (hf : e.follow? location = some f) : everywhere test f = true := by
  induction location generalizing e with
  | nil =>
    rw [follow?] at hf
    rwa [← Option.some.inj hf]
  | cons name names ih =>
    cases e with
    | directory entries =>
      rw [follow?] at hf
      obtain ⟨e', he', hf⟩ := Option.bind_eq_some_iff.mp hf
      rw [everywhere, Bool.and_eq_true] at h
      exact ih (everywhere_of_mem h.2 (mem_of_lookup he')) hf
    | file mode contents => cases hf
    | link target => cases hf

theorem test_of_everywhere {e : Entry} {location : List String} (h : everywhere test e = true)
    (hf : e.follow? location = some (.directory entries)) : test entries = true := by
  have hentries := everywhere_follow? h hf
  rw [everywhere, Bool.and_eq_true] at hentries
  exact hentries.1

end Entry

namespace FileSystem

/-- Whether a tree of files is one that a system has. -/
structure WellFormed (fs : FileSystem) : Prop where
  /-- Every entry has a proper name. -/
  names : ∀ location entries, fs.at? location = some (.directory entries) →
    ∀ p ∈ entries, isEntryName p.1 = true
  /-- No two entries of a directory have the same name. -/
  distinct : ∀ location entries, fs.at? location = some (.directory entries) →
    (entries.map (·.1)).Nodup
  /-- The current directory is there. -/
  current : fs.HasCurrent

/-- Whether no entry is a symbolic link. -/
def HasNoLinks (fs : FileSystem) : Prop := ∀ location target, fs.at? location ≠ some (.link target)

/-- Whether the entries of a directory have proper names, no two of them the same. -/
def properNames (entries : List (String × Entry)) : Bool :=
  entries.all (fun p => isEntryName p.1) && decide (entries.map (·.1)).Nodup

variable {fs : FileSystem} {location : List String} {e : Entry}

theorem wellFormed_of_everywhere (h : fs.rootEntry.everywhere properNames = true)
    (hcur : fs.HasCurrent) : fs.WellFormed := by
  have htest : ∀ location entries, fs.at? location = some (.directory entries) →
      entries.all (fun p => isEntryName p.1) = true ∧ (entries.map (·.1)).Nodup := by
    intro location entries hat
    have hentries := Entry.test_of_everywhere h hat
    rwa [properNames, Bool.and_eq_true, decide_eq_true_iff] at hentries
  refine ⟨fun location entries hat => ?_, fun location entries hat => (htest _ _ hat).2, hcur⟩
  exact List.all_eq_true.mp (htest _ _ hat).1

/-- The directory in front of the last name. -/
theorem isDirectoryAt_of_concat {name : String} (hat : fs.at? (location ++ [name]) = some e) :
    ∃ entries, fs.at? location = some (.directory entries) ∧ entries.lookup name = some e := by
  rw [at?_append] at hat
  obtain ⟨d, hd, hname⟩ := Option.bind_eq_some_iff.mp hat
  cases d with
  | directory entries =>
    rw [Entry.follow?] at hname
    obtain ⟨e', he', hlast⟩ := Option.bind_eq_some_iff.mp hname
    rw [Entry.follow?] at hlast
    exact ⟨entries, hd, he'.trans hlast⟩
  | file mode contents => cases hname
  | link target => cases hname

/-- Only directories have something below them. -/
theorem isDirectoryAt_of_append {names : List String} (hne : names ≠ [])
    (hat : fs.at? (location ++ names) = some e) : fs.IsDirectoryAt location := by
  obtain ⟨name, names, rfl⟩ := List.exists_cons_of_ne_nil hne
  rw [at?_append] at hat
  obtain ⟨d, hd, hfollow⟩ := Option.bind_eq_some_iff.mp hat
  cases d with
  | directory entries => exact ⟨entries, hd⟩
  | file mode contents => cases hfollow
  | link target => cases hfollow

theorem hasNoLinks_of_everywhere
    (h : fs.rootEntry.everywhere (fun entries => entries.all (!·.2.isLink)) = true) :
    fs.HasNoLinks := by
  intro location target hat
  rcases List.eq_nil_or_concat location with rfl | ⟨dir, name, rfl⟩
  · cases hat
  · rw [List.concat_eq_append] at hat
    obtain ⟨entries, hdir, hname⟩ := isDirectoryAt_of_concat hat
    have hentries := Entry.test_of_everywhere h hdir
    exact Bool.noConfusion (List.all_eq_true.mp hentries _ (mem_of_lookup hname))

/-- **A row of names that leads somewhere** has proper names. -/
theorem WellFormed.isEntryName_of_mem (h : fs.WellFormed) (hat : fs.at? location = some e)
    {name : String} (hname : name ∈ location) : isEntryName name = true := by
  -- by induction from the last name, which is that of an entry in the directory of the others
  induction location using List.reverseRecOn generalizing e with
  | nil => cases hname
  | append_singleton dir last ih =>
    obtain ⟨entries, hdir, hlast⟩ := isDirectoryAt_of_concat hat
    rcases List.mem_append.mp hname with hname | hname
    · exact ih hdir hname
    · rw [List.mem_singleton.mp hname]
      exact h.names dir entries hdir _ (mem_of_lookup hlast)

theorem WellFormed.isName_of_mem (h : fs.WellFormed) (hat : fs.at? location = some e)
    {name : String} (hname : name ∈ location) : Path.IsName name :=
  isName_of_isEntryName (h.isEntryName_of_mem hat hname)

/-- An entry of a directory is what its name leads to. -/
theorem WellFormed.lookup_eq_some_iff (h : fs.WellFormed) {entries : List (String × Entry)}
    (hat : fs.at? location = some (.directory entries)) {name : String} :
    entries.lookup name = some e ↔ (name, e) ∈ entries :=
  lookup_eq_some_iff_mem (h.distinct location _ hat)

end FileSystem

end EditorInsight
