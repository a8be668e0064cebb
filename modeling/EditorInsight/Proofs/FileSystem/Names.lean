import EditorInsight.Proofs.FileSystem

/-!
# Paths of names

A path may go through links, and then it leads somewhere that its spelling does not tell. Without a
link on the way it leads where its names say, be it to a file, to a directory or to nothing.

* `FileSystem.entryOf_walk`: what a walk along names comes to is what is there.
* `FileSystem.find?_of_leadsStraight`: so it is for paths from the root.
* `FileSystem.readText_of_find?`: what is read is what is found.
-/

namespace EditorInsight

/-- Whether the entry is a symbolic link. -/
def Entry.isLink : Entry → Bool
  | .link _ => true
  | _ => false

namespace FileSystem

variable {fs : FileSystem}

/-- Whether a part of a path asks a directory for an entry. -/
def asksForEntry (part : String) : Bool :=
  !(part == "" || part == "." || part == "..") && decide (Text.byteLength part ≤ maxName)

/-- The entry that a walk has come to. -/
def entryOf : Except OsError Place → Option Entry
  | .ok (.occupied _ e) => some e
  | _ => none

theorem at?_append (fs : FileSystem) (l l' : List String) :
    fs.at? (l ++ l') = (fs.at? l).bind (·.follow? l') :=
  Entry.follow?_append _ _ _

/-- **Names lead where they say**, if none of them is that of a link. -/
theorem entryOf_walk {links : Nat} {here names : List String} (hdir : fs.IsDirectoryAt here)
    (hnames : names.all asksForEntry = true)
    (hlinks : ∀ k ≤ names.length, (fs.at? (here ++ names.take k)).any Entry.isLink = false) :
    entryOf (fs.walk .target links here names) = fs.at? (here ++ names) := by
  induction names generalizing here with
  | nil =>
    obtain ⟨entries, hat⟩ := hdir
    have hentries : fs.entriesAt? here = some entries := by
      rw [entriesAt?, show fs.rootEntry.follow? here = _ from hat]
    rw [List.append_nil, hat, walk, hentries]
    rfl
  | cons name rest ih =>
    rw [List.all_cons, Bool.and_eq_true] at hnames
    obtain ⟨hname, hrest⟩ := hnames
    simp only [asksForEntry, Bool.and_eq_true, Bool.not_eq_true', decide_eq_true_iff,
      Bool.or_eq_false_iff] at hname
    obtain ⟨⟨hempty, hdots⟩, hshort⟩ := hname
    have hnext : here ++ name :: rest = here ++ [name] ++ rest := by
      rw [List.append_assoc, List.singleton_append]
    rw [walk_name links here (by rw [hempty.1, hempty.2]; decide) (by rw [hdots]; decide) (by simp)
      (Nat.not_lt.mpr hshort), hnext]
    cases hat : fs.at? (here ++ [name]) with
    | none =>
      -- where nothing is, nothing follows
      rw [at?_append, hat]
      cases rest <;> rfl
    | some e =>
      cases e with
      | file mode contents =>
        -- a walk that goes on behind a file fails, and no names follow one
        rw [at?_append, hat]
        cases rest <;> rfl
      | directory entries =>
        refine ih ⟨entries, hat⟩ hrest fun k hk => ?_
        have hlink := hlinks (k + 1) (Nat.succ_le_succ hk)
        rwa [List.take_succ_cons, ← List.singleton_append, ← List.append_assoc] at hlink
      | link target =>
        have hlink := hlinks 1 (Nat.succ_le_succ (Nat.zero_le _))
        rw [List.take_succ_cons, List.take_zero, hat] at hlink
        cases hlink

/-- Whether a path from the root consists of these names, and none of them is that of a link. -/
def leadsStraight (fs : FileSystem) (p : Path) (names : List String) : Bool :=
  !(p.text.toList.contains '\x00' || isTooLong p || p.text.isEmpty) && p.isAbsolute &&
    parts p.text.toList == "" :: names && names.all asksForEntry &&
    decide (∀ k ≤ names.length, (fs.at? (names.take k)).any Entry.isLink = false)

theorem find?_of_leadsStraight {p : Path} {names : List String}
    (h : fs.leadsStraight p names = true) : fs.find? p = fs.at? names := by
  simp only [leadsStraight, Bool.and_eq_true, Bool.not_eq_true', Bool.or_eq_false_iff, beq_iff_eq,
    decide_eq_true_iff] at h
  obtain ⟨⟨⟨⟨⟨⟨hnull, hlong⟩, hempty⟩, hroot⟩, hparts⟩, hnames⟩, hlinks⟩ := h
  have hwalk : fs.find? p = entryOf (fs.walk .target maxLinks [] names) := by
    rw [find?, find, locate, if_neg (Bool.eq_false_iff.mp hnull),
      if_neg (Bool.eq_false_iff.mp hlong), trace, if_neg (Bool.eq_false_iff.mp hempty), hroot, hparts,
      if_pos rfl, walk, if_pos (by decide)]
    cases fs.walk .target maxLinks [] names with
    | error e => rfl
    | ok place => cases place <;> rfl
  rw [hwalk]
  exact entryOf_walk fs.isDirectoryAt_nil hnames hlinks

theorem isFile_of_leadsStraight {p : Path} {names : List String}
    (h : fs.leadsStraight p names = true) : fs.isFile p = (fs.at? names).any Entry.isFile := by
  rw [isFile, find?_of_leadsStraight h]

/-- What is read from a file is what it holds. -/
theorem readText_of_find? {p : Path} {mode : Nat} {s : String}
    (h : fs.find? p = some (.file mode (.text s))) : fs.readText p = .ok s := by
  rw [find?] at h
  obtain ⟨⟨location, e⟩, hfind, rfl⟩ := Option.map_eq_some_iff.mp h
  cases hentry : fs.find p with
  | error e =>
    rw [hentry] at hfind
    cases hfind
  | ok found =>
    rw [hentry] at hfind
    cases hfind
    rw [readText, hentry]
    rfl

end FileSystem

end EditorInsight
