import EditorInsight.Path
import Mathlib.Data.List.Basic

/-!
# Paths below paths

A path is put below another by its spelling, and what two spellings mean is compared by their
components. Both agree: behind a slash every part stands for itself, wherever it is, and what stands
in front of the first slash stays in front.

* `Path.join_assoc`: a path below a path below a third one is spelled in only one way.
* `Path.isAbsolute_join` and `Path.components_join` say what a path below another is.
* `Path.components_child`, `Path.fileName?_child` and `Path.extension?_child` say it of an entry of a
  directory; `Path.exists_parent?_child` leads back to the directory.
* `Path.length_parent?_lt`: the path of the directory above is shorter.
-/

namespace EditorInsight.Path

variable {cs ds : List Char} {base p q : Path} {name : String}

/-! ### Parts -/

theorem splitSlashes_ne_nil (cs : List Char) : splitSlashes cs ≠ [] := by
  cases cs with
  | nil => exact List.cons_ne_nil _ _
  | cons c cs =>
    rw [splitSlashes]
    split
    · exact List.cons_ne_nil _ _
    · split <;> exact List.cons_ne_nil _ _

theorem splitSlashes_cons_slash (cs : List Char) :
    splitSlashes ('/' :: cs) = [] :: splitSlashes cs := by
  rw [splitSlashes]
  cases hcs : splitSlashes cs with
  | nil => exact absurd hcs (splitSlashes_ne_nil cs)
  | cons part parts => rfl

theorem splitSlashes_cons_of_ne {c : Char} (h : c ≠ '/') {part : List Char} {parts : List (List Char)}
    (hcs : splitSlashes cs = part :: parts) : splitSlashes (c :: cs) = (c :: part) :: parts := by
  rw [splitSlashes, hcs]
  exact if_neg h

/-- The parts before a slash are those before it, and the parts behind it those behind it. -/
theorem splitSlashes_append_slash (cs ds : List Char) :
    splitSlashes (cs ++ '/' :: ds) = splitSlashes cs ++ splitSlashes ds := by
  induction cs with
  | nil => exact splitSlashes_cons_slash ds
  | cons c cs ih =>
    rw [List.cons_append]
    by_cases hc : c = '/'
    · subst hc
      rw [splitSlashes_cons_slash, splitSlashes_cons_slash, ih, List.cons_append]
    · obtain ⟨part, parts, hparts⟩ := List.exists_cons_of_ne_nil (splitSlashes_ne_nil cs)
      rw [hparts, List.cons_append] at ih
      rw [splitSlashes_cons_of_ne hc ih, splitSlashes_cons_of_ne hc hparts, List.cons_append]

theorem splitSlashes_of_not_mem (h : '/' ∉ cs) : splitSlashes cs = [cs] := by
  induction cs with
  | nil => rfl
  | cons c cs ih =>
    rw [List.mem_cons, not_or] at h
    exact splitSlashes_cons_of_ne (Ne.symm h.1) (ih h.2)

/-- No part has a slash in it. -/
theorem noSlash_of_mem_splitSlashes {part : List Char} (h : part ∈ splitSlashes cs) : '/' ∉ part := by
  induction cs generalizing part with
  | nil =>
    rw [List.mem_singleton.mp h]
    exact List.not_mem_nil
  | cons c cs ih =>
    obtain ⟨first, rest, hcs⟩ := List.exists_cons_of_ne_nil (splitSlashes_ne_nil cs)
    by_cases hc : c = '/'
    · rw [hc, splitSlashes_cons_slash] at h
      rcases List.mem_cons.mp h with rfl | h
      · exact List.not_mem_nil
      · exact ih h
    · rw [splitSlashes_cons_of_ne hc hcs] at h
      rcases List.mem_cons.mp h with rfl | h
      · rw [List.mem_cons, not_or]
        exact ⟨Ne.symm hc, ih (hcs ▸ List.mem_cons_self)⟩
      · exact ih (hcs ▸ List.mem_cons_of_mem first h)

theorem head?_splitSlashes_append_slash (cs ds : List Char) :
    (splitSlashes (cs ++ '/' :: ds)).head? = (splitSlashes cs).head? := by
  rw [splitSlashes_append_slash]
  exact List.head?_append_of_ne_nil _ (splitSlashes_ne_nil cs)

/-! ### Front and body -/

/-- What the front of a spelling stands for: the root, a dot, or nothing. -/
def frontOf (cs : List Char) : List Component :=
  if cs.head? = some '/' then [.root]
  else if (splitSlashes cs).head? = some ['.'] then [.current]
  else []

/-- What the parts of a spelling stand for behind its front. -/
def bodyOf (cs : List Char) : List Component := (splitSlashes cs).filterMap componentOf?

theorem componentsOf_eq (cs : List Char) : componentsOf cs = frontOf cs ++ bodyOf cs := by
  cases cs with
  | nil => rfl
  | cons c cs =>
    obtain ⟨part, parts, hparts⟩ := List.exists_cons_of_ne_nil (splitSlashes_ne_nil cs)
    unfold componentsOf frontOf bodyOf
    by_cases hc : c = '/'
    · subst hc
      rw [splitSlashes_cons_slash, hparts]
      rfl
    · -- without a slash in front, a dot there is the only one that is kept
      rw [splitSlashes_cons_of_ne hc hparts, List.head?_cons, if_neg (by simpa using hc),
        List.head?_cons]
      by_cases hdot : c :: part = ['.']
      · rw [hdot]
        rfl
      · rw [if_neg (by simpa using hdot)]
        split
        · next heq => cases heq
        · next heq => exact absurd (List.cons.inj heq).1 hdot
        · rfl

theorem bodyOf_append_slash (cs ds : List Char) :
    bodyOf (cs ++ '/' :: ds) = bodyOf cs ++ bodyOf ds := by
  rw [bodyOf, splitSlashes_append_slash, List.filterMap_append]
  rfl

/-- What stands behind a slash does not change the front. -/
theorem frontOf_append_slash (h : cs ≠ []) (ds : List Char) :
    frontOf (cs ++ '/' :: ds) = frontOf cs := by
  rw [frontOf, frontOf, head?_splitSlashes_append_slash, List.head?_append_of_ne_nil _ h]

/-- **Behind a slash**, every part stands for itself. -/
theorem componentsOf_append_slash (h : cs ≠ []) (ds : List Char) :
    componentsOf (cs ++ '/' :: ds) = componentsOf cs ++ bodyOf ds := by
  rw [componentsOf_eq, componentsOf_eq, frontOf_append_slash h, bodyOf_append_slash,
    List.append_assoc]

/-- A slash at the end says nothing, unless it is the root. -/
theorem componentsOf_concat_slash (h : cs ≠ []) : componentsOf (cs ++ ['/']) = componentsOf cs := by
  rw [componentsOf_append_slash h]
  exact List.append_nil _

theorem componentsOf_concat_slash_append (cs ds : List Char) :
    componentsOf (cs ++ ['/'] ++ ds) = componentsOf (cs ++ ['/']) ++ bodyOf ds := by
  rw [List.append_assoc]
  rcases List.eq_nil_or_concat cs with rfl | ⟨front, c, rfl⟩
  · show componentsOf ([] ++ '/' :: ds) = _
    rw [componentsOf_eq, bodyOf_append_slash]
    rfl
  · have hne : front.concat c ≠ [] := by simp
    rw [componentsOf_concat_slash hne]
    exact componentsOf_append_slash hne ds

theorem length_frontOf_le (cs : List Char) : (frontOf cs).length ≤ 1 := by
  unfold frontOf
  split
  · exact Nat.le_refl 1
  · split
    · exact Nat.le_refl 1
    · exact Nat.zero_le 1

/-- A part that is not empty stands for itself, be it at the front. -/
theorem componentOf?_cons {c : Char} (h : c :: cs ≠ ['.']) : ∃ x, componentOf? (c :: cs) = some x := by
  unfold componentOf?
  split
  · next heq => cases heq
  · next heq => exact absurd heq h
  · exact ⟨_, rfl⟩
  · exact ⟨_, rfl⟩

/-- Only the empty spelling has no components. -/
theorem componentsOf_eq_nil_iff : componentsOf cs = [] ↔ cs = [] := by
  constructor
  · intro h
    rw [componentsOf_eq, List.append_eq_nil_iff] at h
    obtain ⟨hfront, hbody⟩ := h
    cases cs with
    | nil => rfl
    | cons c cs =>
      exfalso
      obtain ⟨part, parts, hparts⟩ := List.exists_cons_of_ne_nil (splitSlashes_ne_nil cs)
      by_cases hc : c = '/'
      · subst hc
        cases hfront
      · -- a first part that is no dot is a component, and a dot in front is one too
        rw [frontOf, splitSlashes_cons_of_ne hc hparts, if_neg (by simpa using hc)] at hfront
        rw [bodyOf, splitSlashes_cons_of_ne hc hparts] at hbody
        by_cases hdot : c :: part = ['.']
        · rw [hdot] at hfront
          cases hfront
        · obtain ⟨x, hx⟩ := componentOf?_cons hdot
          rw [List.filterMap_cons, hx] at hbody
          cases hbody
  · rintro rfl
    rfl

/-! ### Joining -/

/-- The spelling of a directory, as it is before what is below it. -/
def directory (cs : List Char) : List Char :=
  if cs.isEmpty || cs.getLast? == some '/' then cs else cs ++ ['/']

theorem directory_nil : directory [] = [] := rfl

/-- The spelling of a directory ends with a slash. -/
theorem exists_directory_eq (h : cs ≠ []) :
    ∃ front, directory cs = front ++ ['/'] ∧ (cs = front ++ ['/'] ∨ cs = front) := by
  unfold directory
  split
  · next hslash =>
    have hlast : cs.getLast? = some '/' := by simpa [h] using hslash
    obtain ⟨front, rfl⟩ := List.getLast?_eq_some_iff.mp hlast
    exact ⟨front, rfl, Or.inl rfl⟩
  · exact ⟨cs, rfl, Or.inr rfl⟩

theorem directory_concat_slash (cs : List Char) : directory (cs ++ ['/']) = cs ++ ['/'] := by
  unfold directory
  exact if_pos (by simp)

theorem directory_directory (cs : List Char) : directory (directory cs) = directory cs := by
  by_cases h : cs = []
  · subst h
    rfl
  · obtain ⟨front, hfront, -⟩ := exists_directory_eq h
    rw [hfront, directory_concat_slash]

/-- Only the end of a spelling matters. -/
theorem directory_append (cs : List Char) (h : ds ≠ []) :
    directory (cs ++ ds) = cs ++ directory ds := by
  unfold directory
  rw [List.getLast?_append_of_ne_nil cs h]
  by_cases hslash : ds.getLast? = some '/'
  · rw [if_pos (by simp [hslash]), if_pos (by simp [hslash])]
  · rw [if_neg (by simp [h, hslash]), if_neg (by simp [h, hslash]), List.append_assoc]

theorem componentsOf_directory (cs : List Char) : componentsOf (directory cs) = componentsOf cs := by
  by_cases h : cs = []
  · subst h
    rfl
  · obtain ⟨front, hfront, hcs | hcs⟩ := exists_directory_eq h
    · rw [hfront, hcs]
    · rw [hfront, ← hcs, componentsOf_concat_slash h]

theorem eq_of_toList_eq (h : p.text.toList = q.text.toList) : p = q := by
  cases p
  cases q
  exact congrArg Path.mk (String.toList_inj.mp h)

theorem join_of_isAbsolute (h : p.isAbsolute = true) : base.join p = p := if_pos h

theorem toList_join (h : p.isAbsolute = false) :
    (base.join p).text.toList = directory base.text.toList ++ p.text.toList := by
  unfold join directory
  rw [if_neg (by rw [h]; exact Bool.false_ne_true)]
  dsimp only
  split
  · exact String.toList_append
  · rw [String.toList_append, String.toList_append]
    rfl

theorem isAbsolute_iff : p.isAbsolute = true ↔ p.text.toList.head? = some '/' := beq_iff_eq

theorem isAbsolute_join (base p : Path) :
    (base.join p).isAbsolute = (p.isAbsolute || base.isAbsolute) := by
  cases hp : p.isAbsolute with
  | true => rw [join_of_isAbsolute hp, hp, Bool.true_or]
  | false =>
    rw [Bool.false_or, isAbsolute, toList_join hp, isAbsolute]
    by_cases hempty : base.text.toList = []
    · rw [hempty]
      exact hp
    · -- a slash at the end of the directory is not at its front
      obtain ⟨front, hfront, hbase | hbase⟩ := exists_directory_eq hempty
      · rw [hfront, hbase, List.head?_append_of_ne_nil _ (by simp)]
      · rw [hfront, ← hbase, List.append_assoc, List.head?_append_of_ne_nil _ hempty]

theorem isAbsolute_join_of_isAbsolute (hbase : base.isAbsolute = true) (p : Path) :
    (base.join p).isAbsolute = true := by
  rw [isAbsolute_join, hbase, Bool.or_true]

/-- **Putting paths below one another** can be done in any order: the spelling is the same. -/
theorem join_assoc (base p q : Path) : (base.join p).join q = base.join (p.join q) := by
  cases hq : q.isAbsolute with
  | true => rw [join_of_isAbsolute hq, join_of_isAbsolute hq, join_of_isAbsolute hq]
  | false =>
    cases hp : p.isAbsolute with
    | true =>
      have hpq : (p.join q).isAbsolute = true := by rw [isAbsolute_join, hp, Bool.or_true]
      rw [join_of_isAbsolute hp, join_of_isAbsolute hpq]
    | false =>
      have hpq : (p.join q).isAbsolute = false := by rw [isAbsolute_join, hq, hp, Bool.or_false]
      apply eq_of_toList_eq
      rw [toList_join hq, toList_join hpq, toList_join hp, toList_join hq]
      by_cases hempty : p.text.toList = []
      · rw [hempty, List.append_nil, directory_directory, directory_nil, List.nil_append]
      · rw [directory_append _ hempty, List.append_assoc]

/-- Below a path that is not empty, every part of a relative path stands for itself. -/
theorem components_join (hbase : base.text ≠ "") (hp : p.isAbsolute = false) :
    (base.join p).components = base.components ++ bodyOf p.text.toList := by
  have hne : base.text.toList ≠ [] := mt String.toList_eq_nil_iff.mp hbase
  obtain ⟨front, hfront, -⟩ := exists_directory_eq hne
  calc (base.join p).components
    _ = componentsOf (front ++ ['/'] ++ p.text.toList) := by
      rw [components, toList_join hp, hfront]
    _ = componentsOf (directory base.text.toList) ++ bodyOf p.text.toList := by
      rw [componentsOf_concat_slash_append, hfront]
    _ = base.components ++ bodyOf p.text.toList := by rw [componentsOf_directory, components]

theorem join_of_empty (hbase : base.text = "") (p : Path) : base.join p = p := by
  cases hp : p.isAbsolute with
  | true => exact join_of_isAbsolute hp
  | false =>
    apply eq_of_toList_eq
    rw [toList_join hp, hbase]
    rfl

theorem text_join_ne_empty (base : Path) (hp : p.text ≠ "") : (base.join p).text ≠ "" := by
  cases h : p.isAbsolute with
  | true => rwa [join_of_isAbsolute h]
  | false =>
    intro hempty
    have htext : (base.join p).text.toList = directory base.text.toList ++ p.text.toList :=
      toList_join h
    rw [hempty] at htext
    exact hp (String.toList_eq_nil_iff.mp (List.append_eq_nil_iff.mp htext.symm).2)

theorem components_eq_nil_iff : p.components = [] ↔ p.text = "" :=
  componentsOf_eq_nil_iff.trans String.toList_eq_nil_iff

/-- A relative path of several components is one below every other path. -/
theorem one_lt_length_components_join (hp : p.isAbsolute = false) (hlong : 1 < p.components.length) :
    1 < (base.join p).components.length := by
  by_cases hbase : base.text = ""
  · rw [join_of_empty hbase]
    exact hlong
  · -- at most one component is in front, so at least one of the others is left
    have hfront := length_frontOf_le p.text.toList
    have hpos : 0 < base.components.length :=
      List.length_pos_iff.mpr (mt components_eq_nil_iff.mp hbase)
    rw [components, componentsOf_eq, List.length_append] at hlong
    rw [components_join hbase hp, List.length_append]
    omega

/-! ### Entries of a directory -/

/-- Whether a text is the name of an entry. -/
structure IsName (name : String) : Prop where
  noSlash : '/' ∉ name.toList
  ne_empty : name ≠ ""
  ne_dot : name ≠ "."
  ne_dots : name ≠ ".."

theorem IsName.isAbsolute_eq_false (h : IsName name) : isAbsolute ⟨name⟩ = false := by
  refine Bool.eq_false_iff.mpr fun hroot => h.noSlash ?_
  exact List.mem_of_head? (isAbsolute_iff.mp hroot)

theorem IsName.frontOf_eq (h : IsName name) : frontOf name.toList = [] := by
  have hdot : name.toList ≠ ['.'] := fun heq => h.ne_dot (String.toList_inj.mp heq)
  rw [frontOf, if_neg (fun hroot => h.noSlash (List.mem_of_head? hroot)),
    splitSlashes_of_not_mem h.noSlash, if_neg (by simpa using hdot)]

theorem IsName.bodyOf_eq (h : IsName name) : bodyOf name.toList = [.name name] := by
  have hpart : componentOf? name.toList = some (.name name) := by
    unfold componentOf?
    split
    · next heq => exact absurd (String.toList_eq_nil_iff.mp heq) h.ne_empty
    · next heq => exact absurd (String.toList_inj.mp heq) h.ne_dot
    · next heq => exact absurd (String.toList_inj.mp heq) h.ne_dots
    · rw [String.ofList_toList]
  rw [bodyOf, splitSlashes_of_not_mem h.noSlash, List.filterMap_cons, hpart]
  rfl

/-- An entry is one component more. -/
theorem components_child (h : IsName name) (dir : Path) :
    (dir.child name).components = dir.components ++ [.name name] := by
  rw [child, ← h.bodyOf_eq]
  by_cases hempty : dir.text = ""
  · rw [join_of_empty hempty, components_eq_nil_iff.mpr hempty, components, componentsOf_eq,
      h.frontOf_eq]
  · exact components_join hempty h.isAbsolute_eq_false

theorem components_of_isName (h : IsName name) : components ⟨name⟩ = [.name name] := by
  rw [components, componentsOf_eq, h.frontOf_eq, h.bodyOf_eq, List.nil_append]

theorem components_child_empty (dir : Path) : (dir.child "").components = dir.components := by
  by_cases hempty : dir.text = ""
  · rw [child, join_of_empty hempty, components_eq_nil_iff.mpr hempty]
    rfl
  · exact (components_join hempty rfl).trans (List.append_nil _)

theorem fileName?_child (h : IsName name) (dir : Path) : (dir.child name).fileName? = some name := by
  rw [fileName?, components_child h, List.getLast?_concat]

theorem extension?_child (h : IsName name) (dir : Path) :
    (dir.child name).extension? = (nameExtension? name.toList).map String.ofList := by
  rw [extension?, fileName?_child h, Option.bind_eq_bind, Option.bind_some, Option.map_eq_bind]
  rfl

/-! ### The directory above -/

theorem length_dropSilent_le (cs : List Char) : (dropSilent cs).length ≤ cs.length := by
  fun_induction dropSilent cs with
  | case1 c rest ih => exact Nat.le_succ_of_le ih
  | case2 => exact Nat.le_succ 1
  | case3 c rest ih => exact Nat.le_succ_of_le (Nat.le_succ_of_le ih)
  | case4 cs _ _ => exact Nat.le_refl _

/-- A slash is left at the end only if nothing else is. -/
theorem eq_nil_of_dropSilent_eq {rest : List Char} (h : dropSilent cs = '/' :: rest) : rest = [] := by
  fun_induction dropSilent cs with
  | case1 c rest ih => exact ih h
  | case2 => exact (List.cons.inj h).2.symm
  | case3 c rest ih => exact ih h
  | case4 cs hslash _ =>
    cases rest with
    | nil => rfl
    | cons c rest => exact absurd h (hslash c rest)

/-- What is dropped at the end says nothing. -/
theorem componentsOf_dropSilent (cs : List Char) :
    componentsOf (dropSilent cs).reverse = componentsOf cs.reverse := by
  fun_induction dropSilent cs with
  | case1 c rest ih =>
    rw [ih, List.reverse_cons (a := '/'), componentsOf_concat_slash (by simp)]
  | case2 => decide
  | case3 c rest ih =>
    have hne : (c :: rest).reverse ≠ [] := by simp
    rw [ih, List.reverse_cons (a := '.'), List.reverse_cons (a := '/'), List.append_assoc]
    show _ = componentsOf ((c :: rest).reverse ++ '/' :: ['.'])
    rw [componentsOf_append_slash hne]
    exact (List.append_nil _).symm
  | case4 cs _ _ => rfl

theorem componentsOf_trimSilent (cs : List Char) : componentsOf (trimSilent cs) = componentsOf cs := by
  rw [trimSilent, componentsOf_dropSilent, List.reverse_reverse]

theorem length_trimSilent_le (cs : List Char) : (trimSilent cs).length ≤ cs.length := by
  have hdrop := length_dropSilent_le cs.reverse
  rwa [List.length_reverse, ← List.length_reverse, ← trimSilent] at hdrop

/-- **The path of the directory above is shorter.** -/
theorem length_parent?_lt {up : Path} (h : p.parent? = some up) : up.text.length < p.text.length := by
  have hdrop := length_dropSilent_le p.text.toList.reverse
  rw [List.length_reverse, String.length_toList] at hdrop
  unfold parent? at h
  split at h
  · cases h
  · cases h
  · next hempty hroot =>
    obtain rfl := Option.some.inj h
    -- the last component is left out, and it has a character that is no slash
    cases hlast : dropSilent p.text.toList.reverse with
    | nil =>
      refine absurd ?_ hempty
      rw [trimSilent, hlast]
      rfl
    | cons c cs =>
      have hc : c ≠ '/' := by
        rintro rfl
        obtain rfl := eq_nil_of_dropSilent_eq hlast
        refine hroot ?_
        rw [trimSilent, hlast]
        rfl
      -- so at least this character is missing above
      have htail : ((c :: cs).dropWhile (· != '/')).length ≤ cs.length := by
        rw [List.dropWhile_cons_of_pos (by simpa using hc)]
        exact (List.dropWhile_sublist _).length_le
      have htrim := length_trimSilent_le ((c :: cs).dropWhile (· != '/')).reverse
      rw [List.length_reverse] at htrim
      rw [hlast, List.length_cons] at hdrop
      have hspelling : trimSilent p.text.toList = (c :: cs).reverse := by rw [trimSilent, hlast]
      rw [String.length_ofList, hspelling, List.reverse_reverse]
      omega

/-- Nothing of a name is dropped. -/
theorem dropSilent_append {ns : List Char} (hslash : '/' ∉ ns) (hne : ns ≠ []) (hdot : ns ≠ ['.'])
    (rest : List Char) : dropSilent (ns ++ rest) = ns ++ rest := by
  obtain ⟨c, ns, rfl⟩ := List.exists_cons_of_ne_nil hne
  rw [List.mem_cons, not_or] at hslash
  rw [List.cons_append]
  unfold dropSilent
  split
  · next heq => exact absurd (List.cons.inj heq).1.symm hslash.1
  · next heq =>
    obtain ⟨rfl, hrest⟩ := List.cons.inj heq
    cases ns with
    | nil => exact absurd rfl hdot
    | cons d ns => exact absurd (List.mem_cons.mpr (Or.inl (List.cons.inj hrest).1.symm)) hslash.2
  · rfl

theorem dropWhile_reverse_directory (cs : List Char) :
    (directory cs).reverse.dropWhile (· != '/') = (directory cs).reverse := by
  by_cases h : cs = []
  · subst h
    rfl
  · obtain ⟨front, hfront, -⟩ := exists_directory_eq h
    rw [hfront, List.reverse_append]
    rfl

theorem parent?_child (h : IsName name) (dir : Path) :
    (dir.child name).parent? = some ⟨String.ofList (trimSilent (directory dir.text.toList))⟩ := by
  have htext : (dir.child name).text.toList = directory dir.text.toList ++ name.toList :=
    toList_join h.isAbsolute_eq_false
  obtain ⟨c, ns, hname⟩ := List.exists_cons_of_ne_nil (mt String.toList_eq_nil_iff.mp h.ne_empty)
  have hmem : c ∈ directory dir.text.toList ++ name.toList := by
    rw [hname]
    exact List.mem_append_right _ List.mem_cons_self
  have hc : c ≠ '/' := by
    rintro rfl
    exact h.noSlash (hname ▸ List.mem_cons_self)
  have hslash : '/' ∉ name.toList.reverse := fun hslash => h.noSlash (List.mem_reverse.mp hslash)
  -- the spelling ends with the name, and in front of that with the slash of the directory
  have htrim : trimSilent (directory dir.text.toList ++ name.toList)
      = directory dir.text.toList ++ name.toList := by
    rw [trimSilent, List.reverse_append, dropSilent_append hslash, ← List.reverse_append,
      List.reverse_reverse]
    · simp [h.ne_empty]
    · intro hdot
      refine h.ne_dot (String.toList_inj.mp ?_)
      rw [← List.reverse_reverse name.toList, hdot]
      rfl
  have hrest : (directory dir.text.toList ++ name.toList).reverse.dropWhile (· != '/')
      = (directory dir.text.toList).reverse := by
    rw [List.reverse_append, List.dropWhile_append_of_pos, dropWhile_reverse_directory]
    intro d hd
    exact bne_iff_ne.mpr fun heq => hslash (heq ▸ hd)
  unfold parent?
  rw [htext, htrim]
  split
  · next heq => rw [heq] at hmem; cases hmem
  · next heq =>
    rw [heq] at hmem
    exact absurd (List.mem_singleton.mp hmem) hc
  · dsimp only
    rw [hrest, List.reverse_reverse]

/-- **An entry of a directory leads back to it**, up to what says nothing in its path. -/
theorem exists_parent?_child (h : IsName name) (dir : Path) :
    ∃ up, (dir.child name).parent? = some up ∧ up.components = dir.components := by
  refine ⟨_, parent?_child h dir, ?_⟩
  rw [components, String.toList_ofList, componentsOf_trimSilent, componentsOf_directory, components]

end EditorInsight.Path
