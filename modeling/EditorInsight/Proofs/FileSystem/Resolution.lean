import EditorInsight.Proofs.FileSystem.Canonical

/-!
# Paths in trees without links

Where no link is on the way, the components of a path tell where it leads: names go down, two dots go up,
and all else stays. Paths that only go down behind the same components, such as the slash in front or none,
lead to one place only if they have the same components.

* `Path.resolve` is the place that the components tell.
* `FileSystem.HasNoLinks.location_eq`: a path leads to this place.
* `Path.GoesDown` paths only go down, and `Path.GoesDown.components_eq`: they can be told apart by where they
  lead.
-/

namespace EditorInsight

/-- Where a component leads from a place. -/
def Component.goFrom (here : List String) : Component → List String
  | root => []
  | current => here
  | parent => here.dropLast
  | name s => here ++ [s]

namespace Path

variable {p q : Path} {here names : List String} {s : String} {front : List Component}

/-- Where the components of a path lead from a directory. -/
def resolve (here : List String) (p : Path) : List String := p.components.foldl Component.goFrom here

/-- Whether a path only goes down behind some components. -/
def GoesDown (front : List Component) (p : Path) : Prop :=
  ∃ names : List String, p.components = front ++ names.map .name

/-- The components in front of a path that goes down from the root or from the current directory. -/
def start (absolute : Bool) : List Component := if absolute then [.root] else []

theorem foldl_names (here names : List String) :
    (names.map Component.name).foldl Component.goFrom here = here ++ names := by
  induction names generalizing here with
  | nil => exact (List.append_nil here).symm
  | cons name names ih =>
    rw [List.map_cons, List.foldl_cons, ih, Component.goFrom, List.append_assoc, List.singleton_append]

theorem resolve_of_components_eq (h : p.components = front ++ names.map .name) :
    p.resolve here = front.foldl Component.goFrom here ++ names := by
  rw [resolve, h, List.foldl_append, foldl_names]

/-- **Paths that go down** behind the same components lead to one place only if they have the same
components. -/
theorem GoesDown.components_eq (hp : p.GoesDown front) (hq : q.GoesDown front)
    (h : p.resolve here = q.resolve here) : p.components = q.components := by
  obtain ⟨names, hp⟩ := hp
  obtain ⟨names', hq⟩ := hq
  rw [resolve_of_components_eq hp, resolve_of_components_eq hq, List.append_cancel_left_eq] at h
  rw [hp, hq, h]

/-! ### Components of parts -/

/-- The component that a part stands for. -/
def componentOfPart? (s : String) : Option Component := componentOf? s.toList

theorem componentOfPart?_eq_none (h : (s == "" || s == ".") = true) : componentOfPart? s = none := by
  rw [Bool.or_eq_true, beq_iff_eq, beq_iff_eq] at h
  rcases h with rfl | rfl
  · rfl
  · rfl

theorem componentOfPart?_eq_parent (h : (s == "..") = true) : componentOfPart? s = some .parent := by
  rw [beq_iff_eq.mp h]
  rfl

theorem componentOfPart?_eq_name (hname : ¬ (s == "" || s == ".") = true)
    (hup : ¬ (s == "..") = true) : componentOfPart? s = some (.name s) := by
  rw [Bool.or_eq_true, beq_iff_eq, beq_iff_eq, not_or] at hname
  rw [beq_iff_eq] at hup
  unfold componentOfPart? componentOf?
  split
  · next heq => exact absurd (String.toList_inj.mp (show s.toList = "".toList from heq)) hname.1
  · next heq => exact absurd (String.toList_inj.mp (show s.toList = ".".toList from heq)) hname.2
  · next heq => exact absurd (String.toList_inj.mp (show s.toList = "..".toList from heq)) hup
  · rw [String.ofList_toList]

theorem bodyOf_eq_filterMap (cs : List Char) :
    bodyOf cs = (FileSystem.parts cs).filterMap componentOfPart? := by
  rw [bodyOf, FileSystem.parts, List.filterMap_map]
  exact List.filterMap_congr fun part _ => congrArg componentOf? String.toList_ofList.symm

end Path

namespace FileSystem

variable {fs : FileSystem} {here location ps : List String} {links : Nat} {e : Entry} {p : Path}

/-- Without links a walk comes to the place that the components of its parts tell. -/
theorem HasNoLinks.location_eq_of_walk (hlinks : fs.HasNoLinks)
    (h : fs.walk .target links here ps = .ok (.occupied location e)) :
    location = (ps.filterMap Path.componentOfPart?).foldl Component.goFrom here := by
  -- by induction on the walk: each part it takes is one component, and no link is ever met
  fun_induction walk fs .target links here ps with
  | case1 links here =>
    cases h
    rfl
  | case2 links here part rest hname ih =>
    rw [List.filterMap_cons_none (Path.componentOfPart?_eq_none hname)]
    exact ih h
  | case3 links here part rest hname hup ih =>
    rw [List.filterMap_cons_some (Path.componentOfPart?_eq_parent hup), List.foldl_cons]
    exact ih h
  | case8 links here part rest hname hup hslash hshort entries hat ih =>
    rw [List.filterMap_cons_some (Path.componentOfPart?_eq_name hname hup), List.foldl_cons]
    exact ih h
  | case9 links here part rest hname hup hslash hshort mode contents hat hrest =>
    cases h
    rw [List.filterMap_cons_some (Path.componentOfPart?_eq_name hname hup), List.isEmpty_iff.mp hrest]
    rfl
  | case11 links here part rest hname hup hslash hshort target hat hend =>
    rw [lookup_entriesAt?] at hat
    exact absurd hat (hlinks _ _)
  | case13 here part rest hname hup hslash hshort target hat hgoes links cs ih =>
    rw [lookup_entriesAt?] at hat
    exact absurd hat (hlinks _ _)
  -- the walk fails, or comes to a place where nothing is
  | case4 | case5 | case6 | case7 | case10 | case12 => cases h

/-- **Without links** the components of a path tell where it leads. -/
theorem HasNoLinks.location_eq (hlinks : fs.HasNoLinks) (h : fs.find p = .ok (location, e)) :
    location = p.resolve fs.current := by
  have htrace := trace_eq_ok h
  rw [trace] at htrace
  split at htrace
  · cases htrace
  · rw [hlinks.location_eq_of_walk htrace, ← Path.bodyOf_eq_filterMap, Path.resolve, Path.components,
      Path.componentsOf_eq, List.foldl_append, Path.frontOf]
    by_cases hroot : p.isAbsolute = true
    · rw [if_pos hroot, if_pos (Path.isAbsolute_iff.mp hroot)]
      rfl
    · rw [if_neg hroot, if_neg (mt Path.isAbsolute_iff.mpr hroot)]
      -- a dot in front is a component of its own, and it stays where it is
      split <;> rfl

end FileSystem

end EditorInsight
