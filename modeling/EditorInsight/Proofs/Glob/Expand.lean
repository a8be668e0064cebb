import EditorInsight.Glob.Expand
import EditorInsight.Proofs.FileSystem.Resolution

/-!
# Paths that follow a pattern

A pattern of paths goes down from where it starts, unless one of its parts also stands for a directory
itself or for the one above it. Then the paths that follow it only go down as well: no dots are in them
that the names of directories have not.

* `Glob.staysBelow` parts stand for names only.
* `Glob.goesDown_of_staysBelow`: a path of such parts only goes down.
* `Glob.goesDown_of_mem_expand`: so do the paths that follow a pattern of such parts.
-/

namespace EditorInsight

namespace Path

variable {dir : Path} {name : String} {front : List Component}

theorem GoesDown.child (h : dir.GoesDown front) (hname : name = "" ∨ IsName name) :
    (dir.child name).GoesDown front := by
  obtain ⟨names, hdown⟩ := h
  rcases hname with rfl | hname
  · exact ⟨names, (components_child_empty dir).trans hdown⟩
  · refine ⟨names ++ [name], ?_⟩
    rw [components_child hname, hdown, List.append_assoc, List.map_append]
    rfl

end Path

namespace Glob

/-! ### Patterns without wildcards -/

namespace Token

variable {tokens : List Token} {cs cs' : List Char}

/-- A pattern that describes only one name consists of its characters. -/
theorem eq_of_literal? (h : literal? tokens = some cs) : tokens = cs.map .char := by
  induction tokens generalizing cs with
  | nil =>
    cases h
    rfl
  | cons token tokens ih =>
    cases token with
    | char c =>
      rw [literal?] at h
      obtain ⟨cs', hcs, rfl⟩ := Option.map_eq_some_iff.mp h
      rw [ih hcs, List.map_cons]
    | anyChar => cases h
    | anyChars => cases h
    | anyDepth => cases h
    | within items => cases h
    | outside items => cases h

/-- A class is no name. -/
theorem literal?_of_scanClass {opened pos : Nat} {negated : Bool} {seen : List Char}
    (h : scanClass opened pos negated seen cs = .ok tokens) : literal? tokens = none := by
  induction cs generalizing pos seen with
  | nil =>
    unfold scanClass at h
    cases h
  | cons c rest ih =>
    unfold scanClass at h
    split at h
    · next heq => cases heq
    · obtain ⟨tokens', -, h⟩ := bind_eq_ok h
      cases h
      cases negated <;> rfl
    · next heq =>
      cases heq
      exact ih h

/-- A pattern that describes only one name is spelled like it. -/
theorem eq_of_scanFrom {pos : Nat} {previous : Option Char} (h : scanFrom pos previous cs = .ok tokens)
    (hname : literal? tokens = some cs') : cs' = cs := by
  induction cs generalizing pos previous tokens cs' with
  | nil =>
    unfold scanFrom at h
    cases h
    cases hname
    rfl
  | cons c rest ih =>
    unfold scanFrom at h
    -- the cases are those of the scan; only the last one reads a character that stands for itself
    split at h
    · next heq => cases heq
    · obtain ⟨tokens', -, h⟩ := bind_eq_ok h
      cases h
      cases hname
    · cases h
    · split at h
      · cases h
        cases hname
      · cases h
    · split at h
      · split at h
        · obtain ⟨tokens', -, h⟩ := bind_eq_ok h
          cases h
          cases hname
        · cases h
      · cases h
    · obtain ⟨tokens', -, h⟩ := bind_eq_ok h
      cases h
      cases hname
    · cases (literal?_of_scanClass h).symm.trans hname
    · cases h
    · cases h
    · cases (literal?_of_scanClass h).symm.trans hname
    · -- the character is its own token, and the rest is spelled like its tokens
      next heq =>
      cases heq
      obtain ⟨tokens', hrest, h⟩ := bind_eq_ok h
      cases h
      rw [literal?] at hname
      obtain ⟨cs'', hcs, rfl⟩ := Option.map_eq_some_iff.mp hname
      rw [ih hrest hcs]

end Token

/-! ### Paths that only go down -/

variable {fs : FileSystem} {absolute : Bool} {dir p q : Path} {name : String}
  {tokens : List Token} {components : List (List Token)} {onlyDirectories : Bool}

/-- Whether a path only goes down, or is the current directory as patterns start from it. -/
def StartsDown (absolute : Bool) (dir : Path) : Prop :=
  dir.GoesDown (Path.start absolute) ∨ absolute = false ∧ dir.components = [.current]

/-- The path of an entry only goes down. -/
theorem goesDown_entryPath (hdir : StartsDown absolute dir) (hname : name = "" ∨ Path.IsName name) :
    (entryPath dir name).GoesDown (Path.start absolute) := by
  have hhere : here.components = [.current] := by decide
  rw [entryPath, Path.same, hhere]
  -- the current directory is left out in front of a name
  by_cases hcurrent : dir.components = [.current]
  · rw [if_pos (by rw [hcurrent]; decide)]
    have hrelative : absolute = false := by
      rcases hdir with ⟨names, hdown⟩ | ⟨hrelative, -⟩
      · cases absolute with
        | false => rfl
        | true => cases hcurrent.symm.trans hdown
      · exact hrelative
    subst hrelative
    rcases hname with rfl | hname
    · exact ⟨[], by decide⟩
    · exact ⟨[name], Path.components_of_isName hname⟩
  · rw [if_neg (by simpa using hcurrent)]
    exact (hdir.resolve_right fun h => hcurrent h.2).child hname

theorem isName_of_mem_namesIn (hfs : fs.WellFormed) (h : name ∈ namesIn fs dir) : Path.IsName name := by
  obtain ⟨entry, hmem, rfl⟩ := List.mem_map.mp (List.mem_mergeSort.mp h)
  rcases fs.entriesOf_eq_nil_or dir with hnone | ⟨location, hfind⟩
  · rw [hnone] at hmem
    cases hmem
  · exact isName_of_isEntryName (hfs.names location _ (hfs.at?_of_find hfind).1 _ hmem)

theorem goesDown_of_mem_below (hfs : fs.WellFormed) {depth : Nat} (hdir : StartsDown absolute dir)
    (h : (name, p) ∈ below fs depth dir) : p.GoesDown (Path.start absolute) := by
  induction depth generalizing dir with
  | zero => cases h
  | succ depth ih =>
    rw [below] at h
    obtain ⟨name', hname, h⟩ := List.mem_flatMap.mp h
    have hdown := goesDown_entryPath hdir (Or.inr (isName_of_mem_namesIn hfs hname))
    rcases List.mem_cons.mp h with heq | h
    · cases heq
      exact hdown
    · exact ih (Or.inl hdown) h

/-- Whether the pattern of a component stands for names only. -/
structure StandsForNames (tokens : List Token) : Prop where
  /-- It stands neither for a directory itself nor for the one above. -/
  special : specialNames tokens = []
  /-- There is no slash in a name that it spells out. -/
  noSlash : ∀ cs, Token.literal? tokens = some cs → '/' ∉ cs

/-- What it spells out is a name, or nothing. -/
theorem StandsForNames.isName (h : StandsForNames tokens) {cs : List Char}
    (hname : Token.literal? tokens = some cs) :
    String.ofList cs = "" ∨ Path.IsName (String.ofList cs) := by
  have htokens := Token.eq_of_literal? hname
  have hspecial := h.special
  by_cases hempty : String.ofList cs = ""
  · exact Or.inl hempty
  · refine Or.inr ⟨by rw [String.toList_ofList]; exact h.noSlash cs hname, hempty, fun hdot => ?_,
      fun hdots => ?_⟩
    · have hcs : cs = ['.'] := by rw [← String.toList_ofList (l := cs), hdot]; rfl
      rw [htokens, hcs] at hspecial
      exact absurd hspecial (by decide)
    · have hcs : cs = ['.', '.'] := by rw [← String.toList_ofList (l := cs), hdots]; rfl
      rw [htokens, hcs] at hspecial
      exact absurd hspecial (by decide)

/-- **What follows a pattern** only goes down. -/
theorem goesDown_of_mem_search (hfs : fs.WellFormed)
    (hcomponents : ∀ tokens ∈ components, StandsForNames tokens)
    (hdir : StartsDown absolute dir) (hne : components = [] → dir.GoesDown (Path.start absolute))
    (h : q ∈ search fs onlyDirectories components dir) : q.GoesDown (Path.start absolute) := by
  -- every step goes to an entry of the directory, so behind the first one the path only goes down
  fun_induction search fs onlyDirectories components dir with
  | case1 dir hend =>
    rw [List.mem_singleton.mp h]
    exact hne rfl
  | case2 => cases h
  | case3 rest dir ih =>
    exact ih (List.forall_mem_cons.mp hcomponents).2 hdir nofun h
  | case4 dir =>
    -- everything below the directory
    obtain ⟨⟨name, p⟩, hbelow, rfl⟩ := List.mem_map.mp (List.mem_filter.mp h).1
    exact goesDown_of_mem_below hfs hdir hbelow
  | case5 tokens rest dir hdepth ih =>
    obtain ⟨⟨name, p⟩, hbelow, h⟩ := List.mem_flatMap.mp h
    have hdown := goesDown_of_mem_below hfs hdir hbelow
    have hrest := (List.forall_mem_cons.mp (List.forall_mem_cons.mp hcomponents).2).2
    dsimp only at h
    split at h
    · exact ih p hrest (Or.inl hdown) (fun _ => hdown) h
    · cases h
  | case6 tokens rest dir h₁ h₂ h₃ cs hname name hleads ih =>
    -- one name
    obtain ⟨htokens, hrest⟩ := List.forall_mem_cons.mp hcomponents
    have hdown := goesDown_entryPath hdir (htokens.isName hname)
    exact ih hrest (Or.inl hdown) (fun _ => hdown) h
  | case7 => cases h
  | case8 tokens rest dir h₁ h₂ h₃ hpattern hexists ih₁ ih₂ =>
    -- the names of entries, since the pattern does not stand for the special ones
    obtain ⟨htokens, hrest⟩ := List.forall_mem_cons.mp hcomponents
    rw [htokens.special, List.flatMap_nil, List.nil_append] at h
    obtain ⟨name, hname, h⟩ := List.mem_flatMap.mp h
    have hdown :=
      goesDown_entryPath hdir (Or.inr (isName_of_mem_namesIn hfs (List.mem_filter.mp hname).1))
    exact ih₂ name hrest (Or.inl hdown) (fun _ => hdown) h
  | case9 => cases h

/-! ### Patterns as they are written -/

/-- Whether a part between slashes stands for names only, be it read as a pattern or as it is. -/
def staysBelow (part : List Char) : Bool :=
  match Token.scan part with
  | .ok tokens => (specialNames tokens).isEmpty
  | .error _ => true

theorem standsForNames_of_staysBelow {part : List Char} (h : staysBelow part = true)
    (hslash : '/' ∉ part) (hscan : Token.scan part = .ok tokens) : StandsForNames tokens := by
  rw [staysBelow, hscan] at h
  refine ⟨List.isEmpty_iff.mp h, fun cs hname => ?_⟩
  rwa [Token.eq_of_scanFrom hscan hname]

theorem partsOf_ne_nil (text : List Char) : partsOf text ≠ [] := by
  unfold partsOf
  dsimp only
  split
  · next hslash =>
    obtain ⟨front, rfl⟩ := List.getLast?_eq_some_iff.mp hslash
    rw [show front ++ ['/'] = front ++ '/' :: [] from rfl, Path.splitSlashes_append_slash]
    show (Path.splitSlashes front ++ [[]]).dropLast ≠ []
    rw [List.dropLast_concat]
    exact Path.splitSlashes_ne_nil front
  · exact Path.splitSlashes_ne_nil text

theorem mem_splitSlashes_of_mem_partsOf {text part : List Char} (h : part ∈ partsOf text) :
    part ∈ Path.splitSlashes text := by
  unfold partsOf at h
  dsimp only at h
  split at h
  · exact List.dropLast_subset _ h
  · exact h

/-- The component that such a part stands for is a name. -/
theorem exists_name_of_staysBelow {part : List Char} {c : Component} (h : staysBelow part = true)
    (hcomponent : Path.componentOf? part = some c) : ∃ name, c = .name name := by
  unfold Path.componentOf? at hcomponent
  split at hcomponent
  · cases hcomponent
  · cases hcomponent
  · exact absurd h (by decide)
  · exact ⟨_, (Option.some.inj hcomponent).symm⟩

theorem exists_names_of_staysBelow {parts : List (List Char)} (h : ∀ part ∈ parts, staysBelow part = true) :
    ∃ names : List String, parts.filterMap Path.componentOf? = names.map .name := by
  induction parts with
  | nil => exact ⟨[], rfl⟩
  | cons part parts ih =>
    obtain ⟨hpart, hrest⟩ := List.forall_mem_cons.mp h
    obtain ⟨names, hnames⟩ := ih hrest
    cases hcomponent : Path.componentOf? part with
    | none => exact ⟨names, (List.filterMap_cons_none hcomponent).trans hnames⟩
    | some c =>
      obtain ⟨name, rfl⟩ := exists_name_of_staysBelow hpart hcomponent
      exact ⟨name :: names, by rw [List.filterMap_cons_some hcomponent, hnames, List.map_cons]⟩

/-- **A path of such parts** only goes down. -/
theorem goesDown_of_staysBelow {text : String}
    (h : ∀ part ∈ Path.splitSlashes text.toList, staysBelow part = true) :
    Path.GoesDown (Path.start (Path.isAbsolute ⟨text⟩)) ⟨text⟩ := by
  obtain ⟨names, hbody⟩ := exists_names_of_staysBelow h
  refine ⟨names, ?_⟩
  rw [Path.components, Path.componentsOf_eq, Path.bodyOf, hbody, Path.frontOf, Path.start]
  by_cases hroot : Path.isAbsolute ⟨text⟩ = true
  · rw [if_pos hroot, if_pos (Path.isAbsolute_iff.mp hroot)]
  · rw [if_neg hroot, if_neg (mt Path.isAbsolute_iff.mpr hroot), if_neg fun hdot => ?_]
    -- a dot in front would stand for a directory itself
    exact absurd (h _ (List.mem_of_head? hdot)) (by decide)

/-- A pattern without the slash in front. -/
def behindRoot (text : List Char) : List Char := if text.head? == some '/' then text.tail else text

theorem mem_splitSlashes_of_behindRoot {text part : List Char}
    (h : part ∈ Path.splitSlashes (behindRoot text)) : part ∈ Path.splitSlashes text := by
  unfold behindRoot at h
  split at h
  · next hroot =>
    obtain ⟨cs, rfl⟩ := List.head?_eq_some_iff.mp (beq_iff_eq.mp hroot)
    rw [Path.splitSlashes_cons_slash]
    exact List.mem_cons_of_mem [] h
  · exact h

/-- Where a pattern starts, and that each of its components comes from a part. -/
theorem parse_eq_ok {text : String} {g : Glob} (h : parse text = .ok g) :
    StartsDown (Path.isAbsolute ⟨text⟩) g.start ∧ g.components ≠ [] ∧
      ∀ tokens ∈ g.components, ∃ part ∈ Path.splitSlashes text.toList, Token.scan part = .ok tokens := by
  obtain ⟨-, -, h⟩ := bind_eq_ok h
  obtain ⟨components, hcomponents, h⟩ := bind_eq_ok h
  cases h
  change (partsOf (behindRoot text.toList)).mapM Token.scan = .ok components at hcomponents
  refine ⟨?_, ?_, fun tokens htokens => ?_⟩
  · show StartsDown (text.toList.head? == some '/')
      (if (text.toList.head? == some '/') = true then ⟨"/"⟩ else here)
    cases text.toList.head? == some '/' with
    | true => exact Or.inl ⟨[], by decide⟩
    | false => exact Or.inr ⟨rfl, by decide⟩
  · -- a pattern has at least one part, and each part is one component
    rintro rfl
    obtain ⟨part, rest, hparts⟩ := List.exists_cons_of_ne_nil (partsOf_ne_nil (behindRoot text.toList))
    rw [hparts] at hcomponents
    obtain ⟨b, bs, -, -, hnil⟩ := mapM_cons_eq_ok hcomponents
    cases hnil
  · obtain ⟨part, hpart, hscan⟩ := exists_of_mem_mapM hcomponents htokens
    exact ⟨part, mem_splitSlashes_of_behindRoot (mem_splitSlashes_of_mem_partsOf hpart), hscan⟩

/-- **What follows a pattern of such parts** only goes down. -/
theorem goesDown_of_mem_expand (hfs : fs.WellFormed) {text : String} {g : Glob}
    (hparse : parse text = .ok g)
    (h : ∀ part ∈ Path.splitSlashes text.toList, staysBelow part = true) (hq : q ∈ g.expand fs) :
    q.GoesDown (Path.start (Path.isAbsolute ⟨text⟩)) := by
  obtain ⟨hstart, hne, hparts⟩ := parse_eq_ok hparse
  refine goesDown_of_mem_search hfs (fun tokens htokens => ?_) hstart (fun hnil => absurd hnil hne) hq
  obtain ⟨part, hpart, hscan⟩ := hparts tokens htokens
  exact standsForNames_of_staysBelow (h part hpart) (Path.noSlash_of_mem_splitSlashes hpart) hscan

end Glob

end EditorInsight
