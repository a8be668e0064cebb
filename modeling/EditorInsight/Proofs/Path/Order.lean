import EditorInsight.Path
import Mathlib.Data.List.Pairwise
import Mathlib.Data.List.Sort
import Mathlib.Data.Prod.Lex
import Mathlib.Data.String.Basic

/-!
# The order of paths

Paths are ordered by their components, one after the other, and components by their kind and then by
their name. Each component has a key in a linear order, so a path is a row of keys and its order is the
lexicographic one. A sorted list of paths has one path for every row of components.

* `Path.before_iff`: the order of paths is that of their keys.
* `Path.pairwise_sorted`: a sorted list ascends, so no two paths in it have the same components.
* `Path.mem_sorted_iff`: where components tell a path, sorting keeps all paths and adds none.
* `Path.eq_of_ascending`: an ascending list is told by its members.
-/

namespace EditorInsight

namespace Component

/-- The place of a component in the order: its kind, then its name. -/
def key : Component → Nat ×ₗ String
  | name s => toLex (rank (name s), s)
  | c => toLex (c.rank, "")

theorem key_injective : Function.Injective key := by
  intro a b h
  cases a <;> cases b <;> simp_all [key, rank]

theorem before_iff (a b : Component) : a.before b = true ↔ a.key < b.key := by
  cases a <;> cases b <;> simp [before, key, rank, Prod.Lex.toLex_lt_toLex]

end Component

namespace Path

variable {p q : Path} {ps qs : List Path}

/-- The place of a path in the order. -/
def key (p : Path) : List (Nat ×ₗ String) := p.components.map Component.key

theorem key_eq_iff : p.key = q.key ↔ p.components = q.components :=
  (List.map_injective_iff.mpr Component.key_injective).eq_iff

theorem componentsBefore_iff (as bs : List Component) :
    componentsBefore as bs = true ↔ as.map Component.key < bs.map Component.key := by
  induction as generalizing bs with
  | nil =>
    cases bs with
    | nil => exact iff_of_false Bool.false_ne_true (List.not_lt_nil _)
    | cons b bs => exact iff_of_true rfl (List.nil_lt_cons _ _)
  | cons a as ih =>
    cases bs with
    | nil => exact iff_of_false Bool.false_ne_true (List.not_lt_nil _)
    | cons b bs =>
      rw [componentsBefore, List.map_cons, List.map_cons, List.cons_lt_cons_iff]
      by_cases hab : a = b
      · rw [if_pos hab, ih bs, hab]
        exact ⟨fun h => Or.inr ⟨rfl, h⟩, fun h => h.elim (absurd · (lt_irrefl _)) (·.2)⟩
      · rw [if_neg hab, Component.before_iff]
        exact ⟨Or.inl, fun h => h.elim id fun h => absurd (Component.key_injective h.1) hab⟩

theorem before_iff : p.before q = true ↔ p.key < q.key := componentsBefore_iff _ _

theorem components_eq_of_not_before (hpq : ¬ p.before q = true) (hqp : ¬ q.before p = true) :
    p.components = q.components := by
  rw [before_iff] at hpq hqp
  exact key_eq_iff.mp (le_antisymm (not_lt.mp hqp) (not_lt.mp hpq))

theorem components_ne_of_before (h : p.before q = true) : p.components ≠ q.components := fun heq =>
  absurd (before_iff.mp h) (key_eq_iff.mpr heq).not_lt

/-- A list of paths in which each one comes before all that follow. -/
def Ascending (ps : List Path) : Prop := ps.Pairwise fun p q => p.before q = true

instance : DecidablePred Ascending := fun ps => inferInstanceAs (Decidable (List.Pairwise _ ps))

/-- **An ascending list is told by its members.** -/
theorem eq_of_ascending (hps : Ascending ps) (hqs : Ascending qs) (h : ∀ p, p ∈ ps ↔ p ∈ qs) :
    ps = qs := by
  have : Std.Irrefl fun p q : Path => p.before q = true :=
    ⟨fun _ hp => components_ne_of_before hp rfl⟩
  have : Std.Antisymm fun p q : Path => p.before q = true :=
    ⟨fun _ _ hpq hqp => absurd (before_iff.mp hqp) (before_iff.mp hpq).asymm⟩
  exact hps.eq_of_mem_iff hqs h

/-- In an ascending list components tell the path. -/
theorem Ascending.eq_of_components_eq (h : Ascending ps) (hp : p ∈ ps) (hq : q ∈ ps)
    (hsame : p.components = q.components) : p = q := by
  by_contra hne
  have hdistinct : ps.Pairwise fun p q => p.components ≠ q.components :=
    h.imp components_ne_of_before
  have : Std.Symm fun p q : Path => p.components ≠ q.components := ⟨fun _ _ => Ne.symm⟩
  exact hdistinct.forall hp hq hne hsame

/-! ### Sorting -/

theorem mem_of_mem_insertSorted (h : q ∈ insertSorted p ps) : q = p ∨ q ∈ ps := by
  induction ps with
  | nil => exact Or.inl (List.mem_singleton.mp h)
  | cons r ps ih =>
    rw [insertSorted] at h
    split at h
    · exact List.mem_cons.mp h
    · split at h
      · rcases List.mem_cons.mp h with rfl | hq
        · exact Or.inr List.mem_cons_self
        · exact (ih hq).imp_right (List.mem_cons_of_mem r)
      · exact Or.inr h

/-- What is in the list stays. -/
theorem mem_insertSorted_of_mem (h : q ∈ ps) (p : Path) : q ∈ insertSorted p ps := by
  induction ps with
  | nil => cases h
  | cons r ps ih =>
    rw [insertSorted]
    split
    · exact List.mem_cons_of_mem p h
    · split
      · rcases List.mem_cons.mp h with rfl | hq
        · exact List.mem_cons_self
        · exact List.mem_cons_of_mem r (ih hq)
      · exact h

/-- The path is in the list then, maybe in another spelling. -/
theorem exists_mem_insertSorted (p : Path) (ps : List Path) :
    ∃ q ∈ insertSorted p ps, q.components = p.components := by
  induction ps with
  | nil => exact ⟨p, List.mem_singleton_self p, rfl⟩
  | cons r ps ih =>
    rw [insertSorted]
    split
    · exact ⟨p, List.mem_cons_self, rfl⟩
    · next hpr =>
      split
      · obtain ⟨q, hq, heq⟩ := ih
        exact ⟨q, List.mem_cons_of_mem r hq, heq⟩
      -- neither comes before the other, so the path is passed over for one with the same components
      · next hrp => exact ⟨r, List.mem_cons_self, components_eq_of_not_before hrp hpr⟩

theorem ascending_insertSorted (h : Ascending ps) (p : Path) : Ascending (insertSorted p ps) := by
  induction ps with
  | nil => exact List.pairwise_singleton _ _
  | cons r ps ih =>
    obtain ⟨hr, hps⟩ := List.pairwise_cons.mp h
    rw [insertSorted]
    split
    · next hpr =>
      -- what comes before the first one comes before all
      refine List.pairwise_cons.mpr ⟨fun q hq => ?_, h⟩
      rcases List.mem_cons.mp hq with rfl | hq
      · exact hpr
      · exact before_iff.mpr ((before_iff.mp hpr).trans (before_iff.mp (hr q hq)))
    · split
      · next hrp =>
        refine List.pairwise_cons.mpr ⟨fun q hq => ?_, ih hps⟩
        rcases mem_of_mem_insertSorted hq with rfl | hq
        · exact hrp
        · exact hr q hq
      · exact h

theorem ascending_foldl (h : Ascending qs) (ps : List Path) :
    Ascending (ps.foldl (fun acc p => insertSorted p acc) qs) := by
  induction ps generalizing qs with
  | nil => exact h
  | cons p ps ih => exact ih (ascending_insertSorted h p)

theorem mem_of_mem_foldl (h : q ∈ ps.foldl (fun acc p => insertSorted p acc) qs) :
    q ∈ ps ∨ q ∈ qs := by
  induction ps generalizing qs with
  | nil => exact Or.inr h
  | cons p ps ih =>
    rcases ih h with hq | hq
    · exact Or.inl (List.mem_cons_of_mem p hq)
    · rcases mem_of_mem_insertSorted hq with rfl | hq
      · exact Or.inl List.mem_cons_self
      · exact Or.inr hq

theorem mem_foldl_of_mem (h : q ∈ qs) (ps : List Path) :
    q ∈ ps.foldl (fun acc p => insertSorted p acc) qs := by
  induction ps generalizing qs with
  | nil => exact h
  | cons p ps ih => exact ih (mem_insertSorted_of_mem h p)

theorem exists_mem_foldl (h : p ∈ ps) (qs : List Path) :
    ∃ q ∈ ps.foldl (fun acc p => insertSorted p acc) qs, q.components = p.components := by
  induction ps generalizing qs with
  | nil => cases h
  | cons r ps ih =>
    rcases List.mem_cons.mp h with rfl | hp
    · obtain ⟨q, hq, heq⟩ := exists_mem_insertSorted p qs
      exact ⟨q, mem_foldl_of_mem hq ps, heq⟩
    · exact ih hp (insertSorted r qs)

/-- **A sorted list ascends.** -/
theorem ascending_sorted (ps : List Path) : Ascending (sorted ps) :=
  ascending_foldl List.Pairwise.nil ps

/-- Sorting adds no path. -/
theorem mem_of_mem_sorted (h : p ∈ sorted ps) : p ∈ ps :=
  (mem_of_mem_foldl h).resolve_right List.not_mem_nil

/-- Sorting loses no row of components. -/
theorem exists_mem_sorted (h : p ∈ ps) : ∃ q ∈ sorted ps, q.components = p.components :=
  exists_mem_foldl h []

/-- Sorting loses no path where components tell the spelling. -/
theorem mem_sorted_iff (h : ∀ p ∈ ps, ∀ q ∈ ps, p.components = q.components → p = q) :
    p ∈ sorted ps ↔ p ∈ ps := by
  refine ⟨mem_of_mem_sorted, fun hp => ?_⟩
  obtain ⟨q, hq, heq⟩ := exists_mem_sorted hp
  rwa [← h q (mem_of_mem_sorted hq) p hp heq]

end Path

end EditorInsight
