import EditorInsight.Proofs.Glob.Expand
import EditorInsight.Proofs.Sources.Directories

/-!
# Source files in several spellings

The list of source files has each path only once, and paths are compared by their components. One file has
many paths, though: from the root and from the current directory, with a dot in front, or with dots that
lead up and down again. It is listed once if all arguments are spelled in one way.

* `SameFile` paths lead to one file, and `ListsFilesOnce` says that a list has no two such paths.
* `sameFile_iff`: without links, the components tell whether two paths do.
* `StandsBelow` arguments go down behind the same components, and `goesDown_of_mem_collectSources`: so do
  the paths that they stand for.
* `listsFilesOnce_of_standsBelow`: these lead to different files.
-/

namespace EditorInsight

variable {fs : FileSystem} {p q dir : Path} {ps : List Path} {argument : String}
  {arguments : List String} {front : List Component}

/-- Whether two paths lead to the same place. -/
def SameFile (fs : FileSystem) (p q : Path) : Prop :=
  ∃ location e, fs.find p = .ok (location, e) ∧ fs.find q = .ok (location, e)

/-- Whether no two paths of a list lead to the same place. -/
def ListsFilesOnce (fs : FileSystem) (ps : List Path) : Prop :=
  ∀ p ∈ ps, ∀ q ∈ ps, SameFile fs p q → p = q

/-- Without links, paths lead to the same place if they lead somewhere and their components tell the
same. -/
theorem sameFile_iff (hfs : fs.WellFormed) (hlinks : fs.HasNoLinks) :
    SameFile fs p q ↔ (∃ found, fs.find p = .ok found) ∧ (∃ found, fs.find q = .ok found) ∧
      p.resolve fs.current = q.resolve fs.current := by
  constructor
  · rintro ⟨location, e, hp, hq⟩
    exact ⟨⟨_, hp⟩, ⟨_, hq⟩, (hlinks.location_eq hp).symm.trans (hlinks.location_eq hq)⟩
  · rintro ⟨⟨⟨location, e⟩, hp⟩, ⟨⟨location', e'⟩, hq⟩, hsame⟩
    obtain rfl : location = location' := by
      rw [hlinks.location_eq hp, hlinks.location_eq hq, hsame]
    have he : e = e' :=
      Option.some.inj ((hfs.at?_of_find hp).1.symm.trans (hfs.at?_of_find hq).1)
    exact ⟨location, e, hp, he ▸ hq⟩

/-- Without links, the components of the paths in a list tell whether it has a file twice. -/
theorem listsFilesOnce_iff (hfs : fs.WellFormed) (hlinks : fs.HasNoLinks) :
    ListsFilesOnce fs ps ↔ ∀ p ∈ ps, ∀ q ∈ ps, (∃ found, fs.find p = .ok found) →
      (∃ found, fs.find q = .ok found) → p.resolve fs.current = q.resolve fs.current → p = q := by
  refine forall₂_congr fun p _ => forall₂_congr fun q _ => ?_
  rw [sameFile_iff hfs hlinks, and_imp, and_imp]

/-! ### Arguments -/

theorem sourcesOf_of_file {location : List String} {mode : Nat} {contents : Contents}
    (hfind : fs.find p = .ok (location, .file mode contents)) : sourcesOf fs p.text = .ok [p] := by
  rw [sourcesOf, FileSystem.isFile, FileSystem.find?, hfind]
  rfl

theorem collectSources_pair {a b : String} {qs : List Path} (ha : sourcesOf fs a = .ok ps)
    (hb : sourcesOf fs b = .ok qs) : collectSources fs [a, b] = .ok (Path.sorted (ps ++ qs)) := by
  rw [collectSources, List.mapM_cons, ha, List.mapM_cons, hb, List.mapM_nil]
  show Except.ok (Path.sorted (ps ++ (qs ++ []))) = _
  rw [List.append_nil]

/-! ### Arguments in one spelling -/

/-- Whether an argument goes down behind some components: it is the path of a file or a directory that does,
or a pattern from the root or from the current directory in which no part stands for a directory itself or
for the one above it. -/
inductive StandsBelow (fs : FileSystem) (front : List Component) (argument : String) : Prop
  | path (hdown : Path.GoesDown front ⟨argument⟩)
      (hfound : fs.isFile ⟨argument⟩ = true ∨ fs.isDirectory ⟨argument⟩ = true)
  | pattern (hfront : front = Path.start (Path.isAbsolute ⟨argument⟩))
      (hparts : ∀ part ∈ Path.splitSlashes argument.toList, Glob.staysBelow part = true)

theorem StandsBelow.goesDown (h : StandsBelow fs front argument) : Path.GoesDown front ⟨argument⟩ := by
  cases h with
  | path hdown hfound => exact hdown
  | pattern hfront hparts => exact hfront ▸ Glob.goesDown_of_staysBelow hparts

/-- What follows an argument that is neither a file nor a directory. -/
theorem StandsBelow.goesDown_of_mem_expand (hfs : fs.WellFormed) (h : StandsBelow fs front argument)
    (hfile : ¬ fs.isFile ⟨argument⟩ = true) (hdir : ¬ fs.isDirectory ⟨argument⟩ = true) {g : Glob}
    (hparse : Glob.parse argument = .ok g) (hq : q ∈ g.expand fs) : q.GoesDown front := by
  cases h with
  | path hdown hfound => exact absurd hfound (not_or.mpr ⟨hfile, hdir⟩)
  | pattern hfront hparts => exact hfront ▸ Glob.goesDown_of_mem_expand hfs hparse hparts hq

theorem goesDown_of_mem_sourcesBelow (hfs : fs.WellFormed) (hdir : dir.GoesDown front)
    (h : p ∈ sourcesBelow fs dir) : p.GoesDown front := by
  rcases fs.entriesOf_eq_nil_or dir with hnone | ⟨location, hfind⟩
  · rw [sourcesBelow, hnone] at h
    cases h
  · obtain ⟨dirs, name, hsource, -, rfl⟩ := exists_place_of_mem hfs (hfs.at?_of_find hfind).1 h
    obtain ⟨names, hdown⟩ := hdir
    refine ⟨names ++ (dirs ++ [name]), ?_⟩
    rw [Path.components_below fun _ => hsource.isName hfs, hdown, List.append_assoc,
      ← List.map_append]

/-- **What an argument stands for** goes down if the argument does. -/
theorem goesDown_of_mem_sourcesOf (hfs : fs.WellFormed) (hargument : StandsBelow fs front argument)
    (hsources : sourcesOf fs argument = .ok ps) (h : p ∈ ps) : p.GoesDown front := by
  unfold sourcesOf at hsources
  -- a file stands for itself, a directory for what is below it, and the rest are patterns
  split at hsources
  · cases hsources
    rw [List.mem_singleton.mp h]
    exact hargument.goesDown
  · next hfile =>
    split at hsources
    · cases hsources
      exact goesDown_of_mem_sourcesBelow hfs hargument.goesDown h
    · next hdir =>
      split at hsources
      · next g hparse =>
        cases hsources
        obtain ⟨q, hq, h⟩ := List.mem_flatMap.mp h
        have hdown := hargument.goesDown_of_mem_expand hfs hfile hdir hparse hq
        rw [sourcesAt] at h
        split at h
        · exact goesDown_of_mem_sourcesBelow hfs hdown h
        · split at h
          · rwa [List.mem_singleton.mp h]
          · cases h
      · cases hsources

theorem exists_of_mem_collectSources (h : collectSources fs arguments = .ok ps) (hp : p ∈ ps) :
    ∃ argument ∈ arguments, ∃ sources, sourcesOf fs argument = .ok sources ∧ p ∈ sources := by
  obtain ⟨lists, hlists, h⟩ := bind_eq_ok h
  cases h
  obtain ⟨sources, hsources, hp⟩ := List.mem_flatten.mp (Path.mem_of_mem_sorted hp)
  obtain ⟨argument, hargument, hstep⟩ := exists_of_mem_mapM hlists hsources
  exact ⟨argument, hargument, sources, hstep, hp⟩

theorem goesDown_of_mem_collectSources (hfs : fs.WellFormed)
    (harguments : ∀ a ∈ arguments, StandsBelow fs front a)
    (h : collectSources fs arguments = .ok ps) (hp : p ∈ ps) : p.GoesDown front := by
  obtain ⟨argument, hargument, sources, hsources, hp⟩ := exists_of_mem_collectSources h hp
  exact goesDown_of_mem_sourcesOf hfs (harguments argument hargument) hsources hp

theorem ascending_collectSources (h : collectSources fs arguments = .ok ps) : Path.Ascending ps := by
  obtain ⟨lists, -, h⟩ := bind_eq_ok h
  cases h
  exact Path.ascending_sorted _

/-- **No file is listed twice** if all arguments go down behind the same components. -/
theorem listsFilesOnce_of_standsBelow (hfs : fs.WellFormed) (hlinks : fs.HasNoLinks)
    (harguments : ∀ a ∈ arguments, StandsBelow fs front a)
    (h : collectSources fs arguments = .ok ps) : ListsFilesOnce fs ps := by
  intro p hp q hq hsame
  have hdown := fun r => goesDown_of_mem_collectSources (p := r) hfs harguments h
  have hcomponents := (hdown p hp).components_eq (hdown q hq) ((sameFile_iff hfs hlinks).mp hsame).2.2
  exact (ascending_collectSources h).eq_of_components_eq hp hq hcomponents

end EditorInsight
