/-!
# Lists of pairs

Tables are kept as lists of pairs, and the first pair with a key is the one that counts. Buffers by
their identities, directory entries by their names and kept answers by their keys are such tables.
What is found after each pair was changed, after the pairs of one key were taken away, and if no two
pairs have one key.
-/

namespace EditorInsight

variable {κ α : Type} [BEq κ] [LawfulBEq κ]

theorem lookup_map_eq (l : List (κ × α)) (f : κ → α → α) (k : κ) :
    (l.map fun p => (p.1, f p.1 p.2)).lookup k = (l.lookup k).map (f k) := by
  induction l with
  | nil => rfl
  | cons p l ih =>
    rw [List.map_cons, List.lookup_cons, List.lookup_cons, ih]
    by_cases h : k = p.1
    · subst h
      rw [beq_self_eq_true]
      rfl
    · rw [beq_eq_false_iff_ne.mpr h]

theorem lookup_filter_ne (l : List (κ × α)) (a k : κ) [Decidable (k = a)] :
    (l.filter (·.1 != a)).lookup k = if k = a then none else l.lookup k := by
  induction l with
  | nil => simp
  | cons p l ih =>
    by_cases ha : p.1 = a
    · -- the first pair goes
      rw [List.filter_cons_of_neg (by simpa using ha), ih, List.lookup_cons]
      by_cases hk : k = a
      · rw [if_pos hk, if_pos hk]
      · rw [if_neg hk, if_neg hk, beq_eq_false_iff_ne.mpr fun h => hk (h.trans ha)]
    · -- the first pair stays
      rw [List.filter_cons_of_pos (by simpa using ha), List.lookup_cons, List.lookup_cons, ih]
      by_cases hk : k = a
      · subst hk
        rw [if_pos rfl, if_pos rfl, beq_eq_false_iff_ne.mpr (Ne.symm ha)]
      · rw [if_neg hk, if_neg hk]

theorem mem_of_lookup {l : List (κ × α)} {k : κ} {v : α} (h : l.lookup k = some v) :
    (k, v) ∈ l := by
  obtain ⟨l₁, l₂, rfl, -⟩ := List.lookup_eq_some_iff.mp h
  exact List.mem_append_right _ List.mem_cons_self

/-- If no two pairs have one key, a pair is what is found under its key. -/
theorem lookup_eq_some_iff_mem {l : List (κ × α)} (h : (l.map (·.1)).Nodup) {k : κ} {v : α} :
    l.lookup k = some v ↔ (k, v) ∈ l := by
  refine ⟨mem_of_lookup, fun hmem => ?_⟩
  induction l with
  | nil => cases hmem
  | cons p l ih =>
    rw [List.map_cons, List.nodup_cons] at h
    rcases List.mem_cons.mp hmem with rfl | hmem
    · exact List.lookup_cons_self
    · -- the first pair has another key
      have hne : k ≠ p.1 := by
        rintro rfl
        exact h.1 (List.mem_map.mpr ⟨(p.1, v), hmem, rfl⟩)
      rw [List.lookup_cons, beq_eq_false_iff_ne.mpr hne]
      exact ih h.2 hmem

/-- A key that no pair has is not found. -/
theorem lookup_eq_none_of_not_any {l : List (κ × α)} {k : κ} (h : ¬ l.any (·.1 == k) = true) :
    l.lookup k = none := by
  refine List.lookup_eq_none_iff.mpr fun p hp => ?_
  have hne : ¬ p.1 = k := fun hpk => h (List.any_eq_true.mpr ⟨p, hp, beq_iff_eq.mpr hpk⟩)
  simpa using Ne.symm hne

end EditorInsight
