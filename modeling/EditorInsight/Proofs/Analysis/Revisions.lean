import EditorInsight.Analysis.Cache
import EditorInsight.Proofs.Association

/-!
# One text of each file

A cache is looked up, filled and cleared in any order, and a file may come back to a text that it had
before. At every moment all that is kept of a file is for one text of it. The cache looks for answers
to other texts only if another text is noted for the file than the one that an answer comes in for, so
that no such answers are left otherwise has to be known of the answers and the notes together.

* `Cache.Call` is a call of a cache, `Cache.perform` does one and `Cache.performAll` several.
* `Cache.OneText` is the invariant: every answer is for the text that is noted for its file.
  `Cache.OneText.perform` is one call and `Cache.OneText.performAll` a row of them.
* `Cache.Call.Displaces` says which answers a call takes out; `Cache.OneText.mem_perform_iff` that it
  takes out no others, and `Cache.OneText.mem_performAll_iff` which ones are there after many calls.
* `Cache.one_text_per_file` puts everything together for a cache that is empty at first.
-/

namespace EditorInsight.Analysis.Cache

/-- A call of a cache. -/
inductive Call where
  /-- Looks for the answer to a question. -/
  | get (q : Query) (kind : QueryKind)
  /-- Keeps an answer to a question. -/
  | insert (q : Query) (kind : QueryKind) (a : Answer)
  /-- Drops all answers. -/
  | clear
deriving DecidableEq, Repr

/-- What a call gives back, and the cache that it leaves. Only a look-up gives something back. -/
def perform (digest : String → UInt64) (c : Cache) : Call → Option Answer × Cache
  | .get q kind => (c.get? (q.key digest kind), c)
  | .insert q kind a => (none, c.insert (q.key digest kind) a)
  | .clear => (none, c.clear)

/-- The cache that calls leave, one after the other. -/
def performAll (digest : String → UInt64) (c : Cache) : List Call → Cache
  | [] => c
  | call :: calls => performAll digest (c.perform digest call).2 calls

/-- Whether a call takes out the answer with a key: another one is put in its place, or one for
another text of its file is kept, or all are dropped. -/
def Call.Displaces (digest : String → UInt64) (k : CacheKey) : Call → Prop
  | .get _ _ => False
  | .insert q kind _ =>
    k = q.key digest kind ∨ (k.path = q.path.components ∧ k.digest ≠ digest q.source)
  | .clear => True

instance (digest : String → UInt64) (k : CacheKey) : (call : Call) →
    Decidable (call.Displaces digest k)
  | .get _ _ => inferInstanceAs (Decidable False)
  | .insert q kind _ => inferInstanceAs (Decidable (k = q.key digest kind ∨
      (k.path = q.path.components ∧ k.digest ≠ digest q.source)))
  | .clear => inferInstanceAs (Decidable True)

/-- Whether every answer is for the text that is noted for its file, and no two answers have one
key. -/
structure OneText (c : Cache) : Prop where
  noted : ∀ k a, (k, a) ∈ c.entries → c.revisions.lookup k.path = some k.digest
  distinct : (c.entries.map (·.1)).Nodup

theorem oneText_empty : OneText {} where
  noted _ _ h := nomatch h
  distinct := List.nodup_nil

theorem lookup_revisions_insert (c : Cache) (k : CacheKey) (a : Answer) (path : List Component) :
    (c.insert k a).revisions.lookup path
      = if path = k.path then some k.digest else c.revisions.lookup path := by
  change List.lookup path ((k.path, k.digest) :: c.revisions.filter (·.1 != k.path)) = _
  rw [List.lookup_cons]
  by_cases h : path = k.path
  · rw [if_pos h, beq_iff_eq.mpr h]
  · rw [if_neg h, beq_eq_false_iff_ne.mpr h]
    exact (lookup_filter_ne c.revisions k.path path).trans (if_neg h)

theorem isOutdated_eq_false_iff {k old : CacheKey} :
    isOutdated k old = false ↔ (old.path = k.path → old.digest = k.digest) := by
  rw [isOutdated, Bool.and_eq_false_imp, beq_iff_eq, bne_eq_false_iff_eq]

/-! ### One call -/

namespace OneText

variable {c : Cache} {k : CacheKey} {a : Answer} {digest : String → UInt64}

/-- If no other text is noted for a file, none of the answers is for another text of it. -/
theorem filter_isOutdated (h : c.OneText)
    (hnoted : ∀ d, c.revisions.lookup k.path = some d → d = k.digest) :
    (c.entries.filter fun e => !isOutdated k e.1) = c.entries := by
  refine List.filter_eq_self.mpr fun e he => ?_
  rw [Bool.not_eq_true', isOutdated_eq_false_iff]
  intro hpath
  exact hnoted e.1.digest (hpath ▸ h.noted e.1 e.2 he)

/-- The answers might as well be looked through every time. -/
theorem entries_insert (h : c.OneText) (k : CacheKey) (a : Answer) :
    (c.insert k a).entries
      = (k, a) :: (c.entries.filter fun e => !isOutdated k e.1).filter (·.1 != k) := by
  unfold insert
  cases hlookup : c.revisions.lookup k.path with
  | none => rw [h.filter_isOutdated fun d hd => nomatch hlookup.symm.trans hd]
  | some d =>
    by_cases hd : d = k.digest
    · rw [h.filter_isOutdated fun d' hd' => (Option.some.inj (hd'.symm.trans hlookup)).trans hd]
      simp only [if_pos hd]
    · simp only [if_neg hd]

/-- An answer that comes in takes the place of the one with its key, and of those for other texts of
its file. -/
theorem mem_insert_iff (h : c.OneText) {k' : CacheKey} {b : Answer} :
    (k', b) ∈ (c.insert k a).entries ↔
      (k' = k ∧ b = a) ∨
        ((k', b) ∈ c.entries ∧ k' ≠ k ∧ (k'.path = k.path → k'.digest = k.digest)) := by
  rw [h.entries_insert, List.mem_cons, List.mem_filter, List.mem_filter, Prod.mk.injEq,
    Bool.not_eq_true', isOutdated_eq_false_iff, bne_iff_ne, and_assoc, and_comm (b := k' ≠ k)]

theorem insert (h : c.OneText) (k : CacheKey) (a : Answer) : (c.insert k a).OneText where
  noted := by
    intro k' b hmem
    rw [lookup_revisions_insert]
    split
    · next hpath =>
      rcases h.mem_insert_iff.mp hmem with ⟨rfl, -⟩ | ⟨-, -, hdigest⟩
      · rfl
      · rw [hdigest hpath]
    · next hpath =>
      rcases h.mem_insert_iff.mp hmem with ⟨rfl, -⟩ | ⟨hold, -⟩
      · exact absurd rfl hpath
      · exact h.noted k' b hold
  distinct := by
    rw [h.entries_insert, List.map_cons, List.nodup_cons]
    refine ⟨fun hmem => ?_, ?_⟩
    · obtain ⟨e, he, heq⟩ := List.mem_map.mp hmem
      exact bne_iff_ne.mp (List.mem_filter.mp he).2 heq
    · -- what is left of different keys is different
      refine h.distinct.sublist (List.Sublist.map _ ?_)
      exact List.filter_sublist.trans List.filter_sublist

/-- **Each call leaves one text of each file.** -/
theorem perform (h : c.OneText) (call : Call) : (c.perform digest call).2.OneText := by
  cases call with
  | get q kind => exact h
  | insert q kind a => exact h.insert (q.key digest kind) a
  | clear => exact oneText_empty

/-- What one call takes out are the answers that it displaces, and what it adds is the one that it
keeps. -/
theorem mem_perform_iff (h : c.OneText) (call : Call) :
    (k, a) ∈ (c.perform digest call).2.entries ↔
      (∃ q kind, call = .insert q kind a ∧ k = q.key digest kind) ∨
        ((k, a) ∈ c.entries ∧ ¬ call.Displaces digest k) := by
  cases call with
  | get q kind => simp [Cache.perform, Call.Displaces]
  | insert q kind b =>
    rw [Call.Displaces, not_or, not_and, Classical.not_not]
    refine h.mem_insert_iff.trans (or_congr_left ?_)
    constructor
    · rintro ⟨rfl, rfl⟩
      exact ⟨q, kind, rfl, rfl⟩
    · rintro ⟨q', kind', hcall, rfl⟩
      cases hcall
      exact ⟨rfl, rfl⟩
  | clear => simp [Cache.perform, clear, Call.Displaces]

/-- What is found under a key is the answer that is kept. -/
theorem get?_eq_some_iff (h : c.OneText) : c.get? k = some a ↔ (k, a) ∈ c.entries :=
  lookup_eq_some_iff_mem h.distinct

/-! ### Many calls -/

theorem performAll (h : c.OneText) (calls : List Call) : (c.performAll digest calls).OneText := by
  induction calls generalizing c with
  | nil => exact h
  | cons call calls ih => exact ih (h.perform call)

/-- **Which answers are there** after calls: those that one of the calls kept and none after it
displaced, and those from before that none displaced. -/
theorem mem_performAll_iff (h : c.OneText) (calls : List Call) :
    (k, a) ∈ (c.performAll digest calls).entries ↔
      (∃ earlier q kind later, calls = earlier ++ .insert q kind a :: later ∧
        k = q.key digest kind ∧ ∀ call ∈ later, ¬ call.Displaces digest k) ∨
      ((k, a) ∈ c.entries ∧ ∀ call ∈ calls, ¬ call.Displaces digest k) := by
  induction calls generalizing c with
  | nil => simp [Cache.performAll]
  | cons call calls ih =>
    rw [Cache.performAll, ih (h.perform call), h.mem_perform_iff, List.forall_mem_cons]
    constructor
    · rintro (⟨earlier, q, kind, later, rfl, hk, hlater⟩ |
        ⟨⟨q, kind, rfl, hk⟩ | ⟨hmem, hcall⟩, hcalls⟩)
      · exact .inl ⟨call :: earlier, q, kind, later, rfl, hk, hlater⟩
      · exact .inl ⟨[], q, kind, calls, rfl, hk, hcalls⟩
      · exact .inr ⟨hmem, hcall, hcalls⟩
    · rintro (⟨earlier, q, kind, later, hsplit, hk, hlater⟩ | ⟨hmem, hcall, hcalls⟩)
      · -- the call that kept the answer is the first one or a later one
        rcases List.cons_eq_append_iff.mp hsplit with ⟨rfl, hfirst⟩ | ⟨earlier, rfl, rfl⟩
        · obtain ⟨rfl, rfl⟩ := List.cons_eq_cons.mp hfirst
          exact .inr ⟨.inl ⟨q, kind, rfl, hk⟩, hlater⟩
        · exact .inl ⟨earlier, q, kind, later, rfl, hk, hlater⟩
      · exact .inr ⟨.inr ⟨hmem, hcall⟩, hcalls⟩

end OneText

/-- **One text of each file.** After every row of calls on an empty cache, each answer is for the text
of which the digest is noted for its file, and so all answers for one file are for texts with one
digest. An answer that is kept then leaves everything as it is that is for another file, or for the
same text and not for the same question. A look-up finds an answer if, and only if, one of the calls
kept it for the question, and after that none kept another answer for the question or one for another
text of the file, and none dropped all. -/
theorem one_text_per_file (digest : String → UInt64) (calls : List Call) :
    (∀ k a, (k, a) ∈ (performAll digest {} calls).entries →
      (performAll digest {} calls).revisions.lookup k.path = some k.digest) ∧
    (∀ k a k' a', (k, a) ∈ (performAll digest {} calls).entries →
      (k', a') ∈ (performAll digest {} calls).entries → k.path = k'.path → k.digest = k'.digest) ∧
    (∀ q kind a k b, k ≠ q.key digest kind →
      (k.path ≠ q.path.components ∨ k.digest = digest q.source) →
      ((k, b) ∈ ((performAll digest {} calls).perform digest (.insert q kind a)).2.entries ↔
        (k, b) ∈ (performAll digest {} calls).entries)) ∧
    ∀ q kind a, ((performAll digest {} calls).perform digest (.get q kind)).1 = some a ↔
      ∃ earlier q' kind' later, calls = earlier ++ .insert q' kind' a :: later ∧
        q.key digest kind = q'.key digest kind' ∧
        ∀ call ∈ later, ¬ call.Displaces digest (q.key digest kind) := by
  have h : (performAll digest {} calls).OneText := oneText_empty.performAll calls
  refine ⟨h.noted, fun k a k' a' hmem hmem' hpath => ?_, fun q kind a k b hkey hspared => ?_,
    fun q kind a => ?_⟩
  · -- both are for the text that is noted
    have hk := h.noted k a hmem
    rw [hpath, h.noted k' a' hmem'] at hk
    exact (Option.some.inj hk).symm
  · have hdigest : k.path = q.path.components → k.digest = digest q.source :=
      fun hpath => hspared.resolve_left fun hne => hne hpath
    refine h.mem_insert_iff.trans ⟨?_, fun hmem => .inr ⟨hmem, hkey, hdigest⟩⟩
    rintro (⟨heq, -⟩ | ⟨hmem, -⟩)
    · exact absurd heq hkey
    · exact hmem
  · refine h.get?_eq_some_iff.trans ((oneText_empty.mem_performAll_iff calls).trans ?_)
    -- nothing was there before the calls
    exact or_iff_left fun hmem => nomatch hmem.1

/-- A file is asked about, then another one, then the first one with another text and under another
spelling of its path, and at last with its first text again. -/
def changeAndBack : List Call :=
  [.insert ⟨"x\n", ⟨"src/a.py"⟩, ⟨1, 0⟩⟩ .hover (.hover (some "int")),
    .insert ⟨"xyz\n", ⟨"src/b.py"⟩, ⟨1, 0⟩⟩ .callTip (.callTip ["f()"]),
    .get ⟨"x\n", ⟨"src/a.py"⟩, ⟨1, 0⟩⟩ .hover,
    .insert ⟨"xy\n", ⟨"src//a.py"⟩, ⟨1, 0⟩⟩ .hover (.hover none),
    .insert ⟨"x\n", ⟨"src/a.py"⟩, ⟨1, 1⟩⟩ .completions (.completions [])]

/-- The last answer, for which two characters are noted, stays when another one for its text is kept.
The other file keeps its answer. The first answer does not come back with the text that it was for. -/
theorem one_text_per_file_returned :
    (performAll (·.length.toUInt64) {} changeAndBack).revisions.lookup
        (Path.components ⟨"src/a.py"⟩) = some 2 ∧
      (⟨Path.components ⟨"src/a.py"⟩, 2, .completions, ⟨1, 1⟩⟩, .completions [])
        ∈ ((performAll (·.length.toUInt64) {} changeAndBack).perform (·.length.toUInt64)
          (.insert ⟨"x\n", ⟨"src/a.py"⟩, ⟨1, 0⟩⟩ .completions (.completions []))).2.entries ∧
      ((performAll (·.length.toUInt64) {} changeAndBack).perform (·.length.toUInt64)
        (.get ⟨"xyz\n", ⟨"src/b.py"⟩, ⟨1, 0⟩⟩ .callTip)).1 = some (.callTip ["f()"]) ∧
      ((performAll (·.length.toUInt64) {} changeAndBack).perform (·.length.toUInt64)
        (.get ⟨"x\n", ⟨"src/a.py"⟩, ⟨1, 0⟩⟩ .hover)).1 = none := by
  obtain ⟨hnoted, -, hspared, hget⟩ := one_text_per_file (·.length.toUInt64) changeAndBack
  let last : CacheKey := ⟨Path.components ⟨"src/a.py"⟩, 2, .completions, ⟨1, 1⟩⟩
  have hlast : (last, Answer.completions [])
      ∈ (performAll (·.length.toUInt64) {} changeAndBack).entries := by decide +kernel
  refine ⟨hnoted last _ hlast, ?_, (hget _ _ _).mpr ?_, by decide +kernel⟩
  · exact (hspared _ _ _ last _ (by decide +kernel) (.inr (by decide +kernel))).mpr hlast
  · exact ⟨changeAndBack.take 1, ⟨"xyz\n", ⟨"src/b.py"⟩, ⟨1, 0⟩⟩, .callTip, changeAndBack.drop 2, rfl,
      rfl, by decide +kernel⟩

end EditorInsight.Analysis.Cache
