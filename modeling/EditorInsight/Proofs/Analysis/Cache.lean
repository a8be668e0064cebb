import EditorInsight.Analysis.Cache
import EditorInsight.Proofs.Association
import EditorInsight.Proofs.Except

/-!
# Caching is invisible

An engine is steady if what it answers depends on the question alone, and not on what it was asked
before or on how the path is spelled. With such an engine it makes no difference whether answers are
kept, as long as the texts that are asked about have different digests.

* `askAll` answers questions one after the other.
* `Cache.Truthful` is the invariant: whatever is kept was an answer of the engine, without a failure,
  to one of the questions with that key. `ask_truthful` is one question and `askAll_truthful` a
  sequence of them, both for engines of any kind.
* `Cache.Truthful.answer_of_get?`: what a truthful cache knows is what a steady engine answers, so a
  question is answered as by the engine alone (`ask_eq_reply`, `askAll_eq_reply`).
* `askAll_cached_eq` compares the answers with and without a cache.
-/

namespace EditorInsight.Analysis

/-! ### Questions and engines -/

/-- Whether two questions differ in nothing but the spelling of the path. -/
structure Query.Same (q q' : Query) : Prop where
  source : q.source = q'.source
  path : q.path.same q'.path = true
  position : q.position = q'.position

namespace Query.Same

variable {q q' : Query}

theorem components (h : q.Same q') : q.path.components = q'.path.components := beq_iff_eq.mp h.path

theorem isSite (h : q.Same q') : q.isSite = q'.isSite := by
  funext s
  unfold Query.isSite Path.same
  rw [h.components, h.position]

theorem definitionOf (h : q.Same q') (ls : List EngineLocation) :
    definitionOf q ls = definitionOf q' ls := by
  unfold Analysis.definitionOf
  rw [h.isSite]

theorem referencesOf (h : q.Same q') (ls : List EngineLocation) :
    referencesOf q ls = referencesOf q' ls := by
  unfold Analysis.referencesOf
  rw [h.isSite]

end Query.Same

/-- Questions with one key are the same, unless their texts share a digest. -/
theorem Query.same_of_key_eq {digest : String → UInt64} {q q' : Query} {kind kind' : QueryKind}
    (h : q.key digest kind = q'.key digest kind')
    (distinct : digest q.source = digest q'.source → q.source = q'.source) :
    q.Same q' ∧ kind = kind' := by
  obtain ⟨hpath, hdigest, hkind, hposition⟩ := CacheKey.mk.inj h
  exact ⟨⟨distinct hdigest, beq_iff_eq.mpr hpath, hposition⟩, hkind⟩

variable {σ : Type}

/-- Whether the five answers of an engine, failures included, depend on the question alone. The
engine may have a state, but the state does not show. -/
structure Engine.Steady (e : Engine (StateM σ)) : Prop where
  goto : ∀ q q' s s', q.Same q' → (e.goto q s).1 = (e.goto q' s').1
  references : ∀ q q' s s', q.Same q' → (e.references q s).1 = (e.references q' s').1
  signatures : ∀ q q' s s', q.Same q' → (e.signatures q s).1 = (e.signatures q' s').1
  help : ∀ q q' s s', q.Same q' → (e.help q s).1 = (e.help q' s').1
  completions : ∀ q q' s s', q.Same q' → (e.completions q s).1 = (e.completions q' s').1

/-- The rules for the answers do not look at the spelling of the path either. -/
theorem Engine.Steady.answer {e : Engine (StateM σ)} (steady : e.Steady) {q q' : Query}
    (h : q.Same q') (kind : QueryKind) (s s' : σ) :
    (e.answer q kind s).1 = (e.answer q' kind s').1 := by
  cases kind with
  | definition =>
    change (e.goto q s).1.map _ = (e.goto q' s').1.map _
    rw [steady.goto q q' s s' h, funext h.definitionOf]
  | references =>
    change (e.references q s).1.map _ = (e.references q' s').1.map _
    rw [steady.references q q' s s' h, funext h.referencesOf]
  | callTip =>
    change (e.signatures q s).1.map _ = (e.signatures q' s').1.map _
    rw [steady.signatures q q' s s' h]
  | hover =>
    change (e.help q s).1.map _ = (e.help q' s').1.map _
    rw [steady.help q q' s s' h]
  | completions =>
    change (e.completions q s).1.map _ = (e.completions q' s').1.map _
    rw [steady.completions q q' s s' h]

/-- What is answered if the engine is asked. -/
def Engine.reply (e : Engine (StateM σ)) (s : σ) (q : Query) (kind : QueryKind) : Answer :=
  match (e.answer q kind s).1 with
  | .ok a => a
  | .error _ => kind.emptyAnswer

/-! ### One question -/

/-- A question is answered from the cache, or by the engine, which may fail. -/
theorem ask_cases (digest : String → UInt64) (e : Engine (StateM σ)) (cache : Option Cache)
    (q : Query) (kind : QueryKind) (s : σ) :
    (∃ c a, cache = some c ∧ c.get? (q.key digest kind) = some a ∧
      (ask digest e cache q kind s).1 = (a, cache)) ∨
    (∃ a, (e.answer q kind s).1 = .ok a ∧
      (ask digest e cache q kind s).1 = (a, cache.map (·.insert (q.key digest kind) a))) ∨
    (∃ f, (e.answer q kind s).1 = .error f ∧
      (ask digest e cache q kind s).1 = (kind.emptyAnswer, cache)) := by
  unfold ask
  cases hit : (cache.bind (·.get? (q.key digest kind))).filter (·.kind == kind) with
  | some a =>
    left
    obtain ⟨hget, -⟩ := Option.filter_eq_some_iff.mp hit
    obtain ⟨c, rfl, hget⟩ := Option.bind_eq_some_iff.mp hget
    exact ⟨c, a, rfl, hget, rfl⟩
  | none =>
    right
    -- the engine is asked, and its state after that does not matter
    rcases hr : e.answer q kind s with ⟨_ | a, s₁⟩
    · refine Or.inr ⟨_, rfl, ?_⟩
      simp only [bind, StateT.bind, hr]
      rfl
    · refine Or.inl ⟨a, rfl, ?_⟩
      simp only [bind, StateT.bind, hr]
      rfl

namespace Cache

theorem mem_entries_of_get? {c : Cache} {k : CacheKey} {a : Answer} (h : c.get? k = some a) :
    (k, a) ∈ c.entries :=
  mem_of_lookup h

/-- Keeping an answer adds that answer and no other. -/
theorem mem_entries_insert {c : Cache} {k : CacheKey} {a : Answer} {p : CacheKey × Answer}
    (h : p ∈ (c.insert k a).entries) : p = (k, a) ∨ p ∈ c.entries := by
  refine (List.mem_cons.mp h).imp_right fun h => ?_
  -- nothing is added by dropping answers for old texts
  replace h := (List.mem_filter.mp h).1
  split at h
  · split at h
    · exact h
    · exact (List.mem_filter.mp h).1
  · exact h

/-- Whether everything that is kept was answered by the engine, without a failure, to one of the
questions that were asked. -/
def Truthful (digest : String → UInt64) (e : Engine (StateM σ))
    (asked : List (Query × QueryKind)) (c : Cache) : Prop :=
  ∀ k a, (k, a) ∈ c.entries → ∃ q kind s, (q, kind) ∈ asked ∧ k = q.key digest kind ∧
    (e.answer q kind s).1 = .ok a

end Cache

section Truth

variable {digest : String → UInt64} {e : Engine (StateM σ)} {asked : List (Query × QueryKind)}
  {cache : Option Cache}

/-- A question leaves a truthful cache truthful, and it neither makes a cache nor drops it. -/
theorem ask_truthful (hc : ∀ c ∈ cache, c.Truthful digest e asked) {q : Query} {kind : QueryKind}
    (hq : (q, kind) ∈ asked) (s : σ) :
    (∀ c ∈ (ask digest e cache q kind s).1.2, c.Truthful digest e asked) ∧
      (ask digest e cache q kind s).1.2.isSome = cache.isSome := by
  rcases ask_cases digest e cache q kind s with ⟨-, a, -, -, hask⟩ | ⟨a, ha, hask⟩ | ⟨f, -, hask⟩
  · rw [hask]
    exact ⟨hc, rfl⟩
  · rw [hask]
    refine ⟨fun c' hc' => ?_, Option.isSome_map⟩
    obtain ⟨c, hmem, rfl⟩ := Option.map_eq_some_iff.mp hc'
    intro k b hb
    -- an entry is the new one, which the engine has just given, or was there before
    rcases Cache.mem_entries_insert hb with hnew | hb
    · obtain ⟨rfl, rfl⟩ := Prod.mk.inj hnew
      exact ⟨q, kind, s, hq, rfl, ha⟩
    · exact hc c hmem k b hb
  · rw [hask]
    exact ⟨hc, rfl⟩

/-- What a truthful cache knows is what a steady engine answers. -/
theorem Cache.Truthful.answer_of_get? {c : Cache} (hc : c.Truthful digest e asked)
    (steady : e.Steady)
    (distinct : ∀ p ∈ asked, ∀ p' ∈ asked, digest p.1.source = digest p'.1.source →
      p.1.source = p'.1.source)
    {q : Query} {kind : QueryKind} (hq : (q, kind) ∈ asked) {a : Answer}
    (h : c.get? (q.key digest kind) = some a) (s : σ) : (e.answer q kind s).1 = .ok a := by
  obtain ⟨q', kind', s', hq', hkey, ha⟩ := hc _ a (Cache.mem_entries_of_get? h)
  obtain ⟨hsame, rfl⟩ := Query.same_of_key_eq hkey (distinct _ hq _ hq')
  exact (steady.answer hsame kind s s').trans ha

/-- With a truthful cache or with none, a question is answered as by the engine alone. -/
theorem ask_eq_reply (hc : ∀ c ∈ cache, c.Truthful digest e asked) (steady : e.Steady)
    (distinct : ∀ p ∈ asked, ∀ p' ∈ asked, digest p.1.source = digest p'.1.source →
      p.1.source = p'.1.source)
    {q : Query} {kind : QueryKind} (hq : (q, kind) ∈ asked) (s s₀ : σ) :
    (ask digest e cache q kind s).1.1 = e.reply s₀ q kind := by
  have hengine : (e.answer q kind s).1 = (e.answer q kind s₀).1 :=
    steady.answer ⟨rfl, beq_self_eq_true _, rfl⟩ kind s s₀
  rcases ask_cases digest e cache q kind s with ⟨c, a, hmem, hget, hask⟩ | ⟨a, ha, hask⟩ |
    ⟨f, hf, hask⟩
  · rw [hask, Engine.reply, (hc c hmem).answer_of_get? steady distinct hq hget s₀]
  · rw [hask, Engine.reply, ← hengine, ha]
  · rw [hask, Engine.reply, ← hengine, hf]

end Truth

/-! ### Sequences of questions -/

/-- Answers questions one after the other. -/
def askAll {m : Type → Type} [Monad m] (digest : String → UInt64) (e : Engine m) :
    Option Cache → List (Query × QueryKind) → m (List Answer × Option Cache)
  | cache, [] => return ([], cache)
  | cache, (q, kind) :: rest => do
    let (a, cache) ← ask digest e cache q kind
    let (as, cache) ← askAll digest e cache rest
    return (a :: as, cache)

section Sequences

variable {digest : String → UInt64} {e : Engine (StateM σ)} {asked : List (Query × QueryKind)}

theorem askAll_cons (cache : Option Cache) (q : Query) (kind : QueryKind)
    (rest : List (Query × QueryKind)) (s : σ) :
    (askAll digest e cache ((q, kind) :: rest) s).1
      = ((ask digest e cache q kind s).1.1 ::
          (askAll digest e (ask digest e cache q kind s).1.2 rest
            (ask digest e cache q kind s).2).1.1,
        (askAll digest e (ask digest e cache q kind s).1.2 rest
          (ask digest e cache q kind s).2).1.2) := rfl

theorem askAll_truthful {cache : Option Cache} (hc : ∀ c ∈ cache, c.Truthful digest e asked)
    {qs : List (Query × QueryKind)} (hqs : ∀ p ∈ qs, p ∈ asked) (s : σ) :
    (∀ c ∈ (askAll digest e cache qs s).1.2, c.Truthful digest e asked) ∧
      (askAll digest e cache qs s).1.2.isSome = cache.isSome := by
  induction qs generalizing cache s with
  | nil => exact ⟨hc, rfl⟩
  | cons p qs ih =>
    obtain ⟨hp, hqs⟩ := List.forall_mem_cons.mp hqs
    obtain ⟨htruthful, hsome⟩ := ask_truthful hc hp s
    rw [askAll_cons]
    obtain ⟨hrest, hsome'⟩ := ih htruthful hqs (ask digest e cache p.1 p.2 s).2
    exact ⟨hrest, hsome'.trans hsome⟩

theorem askAll_eq_reply {cache : Option Cache} (hc : ∀ c ∈ cache, c.Truthful digest e asked)
    (steady : e.Steady)
    (distinct : ∀ p ∈ asked, ∀ p' ∈ asked, digest p.1.source = digest p'.1.source →
      p.1.source = p'.1.source)
    {qs : List (Query × QueryKind)} (hqs : ∀ p ∈ qs, p ∈ asked) (s s₀ : σ) :
    (askAll digest e cache qs s).1.1 = qs.map fun p => e.reply s₀ p.1 p.2 := by
  induction qs generalizing cache s with
  | nil => rfl
  | cons p qs ih =>
    obtain ⟨hp, hqs⟩ := List.forall_mem_cons.mp hqs
    rw [askAll_cons, List.map_cons, ask_eq_reply hc steady distinct hp s s₀]
    exact congrArg _ (ih (ask_truthful hc hp s).1 hqs _)

end Sequences

/-- **Caching is invisible.** Let the answers of an engine depend on the question alone, and let the
texts that are asked about have different digests. Then a sequence of questions gets the same answers
with a cache, empty at first, as without one, and whatever the state of the engine. Failures are
never kept: the cache that the sequence leaves knows nothing for the questions on which the engine
fails. -/
theorem askAll_cached_eq {σ : Type} (digest : String → UInt64) (e : Engine (StateM σ))
    (steady : e.Steady) (qs : List (Query × QueryKind))
    (distinct : ∀ p ∈ qs, ∀ p' ∈ qs, digest p.1.source = digest p'.1.source →
      p.1.source = p'.1.source) (s s' : σ) :
    (askAll digest e (some {}) qs s).1.1 = (askAll digest e none qs s').1.1 ∧
      ∃ c, (askAll digest e (some {}) qs s).1.2 = some c ∧
        ∀ p ∈ qs, ∀ s₁ f, (e.answer p.1 p.2 s₁).1 = .error f →
          c.get? (p.1.key digest p.2) = none := by
  have hempty : ∀ c ∈ some ({} : Cache), c.Truthful digest e qs := by
    rintro c hc k a hk
    obtain rfl := Option.some.inj hc
    cases hk
  have hnone : ∀ c ∈ (none : Option Cache), c.Truthful digest e qs := fun c hc => nomatch hc
  have hall : ∀ p ∈ qs, p ∈ qs := fun p hp => hp
  refine ⟨(askAll_eq_reply hempty steady distinct hall s s).trans
    (askAll_eq_reply hnone steady distinct hall s' s).symm, ?_⟩
  obtain ⟨htruthful, hsome⟩ := askAll_truthful hempty hall s
  obtain ⟨c, hc⟩ := Option.isSome_iff_exists.mp hsome
  refine ⟨c, hc, fun p hp s₁ f hf => ?_⟩
  cases hget : c.get? (p.1.key digest p.2) with
  | none => rfl
  | some a =>
    -- an answer that is kept was not a failure
    have hok := (htruthful c hc).answer_of_get? steady distinct hp hget s₁
    cases hf.symm.trans hok

/-- What an engine says that counts how often it is asked and cannot read an open bracket. -/
def countedReport {α : Type} (q : Query) (found : List α) :
    StateM Nat (Except EngineFailure (List α)) := do
  modify (· + 1)
  return if q.source = "(\n" then .error ⟨"SyntaxError"⟩ else .ok found

/-- The engine that says so. -/
def countingEngine : Engine (StateM Nat) where
  goto q := countedReport q [⟨some ⟨"b.py"⟩, some 5, 2, none⟩]
  references q := countedReport q [⟨some ⟨"a.py"⟩, some 1, 0, some q.source⟩]
  signatures q := countedReport q [⟨"f", some [q.source]⟩]
  help q := countedReport q [q.source]
  completions q := countedReport q []

theorem countedReport_congr {α : Type} (found : String → List α) {q q' : Query} (h : q.Same q')
    (s s' : Nat) :
    (countedReport q (found q.source) s).1 = (countedReport q' (found q'.source) s').1 := by
  obtain ⟨hsource, -, -⟩ := h
  unfold countedReport
  rw [hsource]
  rfl

theorem countingEngine_steady : countingEngine.Steady where
  goto q q' s s' h := countedReport_congr (fun _ => _) h s s'
  references q q' s s' h := by
    let found (text : String) : List EngineLocation := [⟨some ⟨"a.py"⟩, some 1, 0, some text⟩]
    exact countedReport_congr found h s s'
  signatures q q' s s' h := by
    let found (text : String) : List EngineSignature := [⟨"f", some [text]⟩]
    exact countedReport_congr found h s s'
  help q q' s s' h := countedReport_congr (fun text => [text]) h s s'
  completions q q' s s' h := countedReport_congr (fun _ => []) h s s'

/-- Questions about one place under two spellings of its path, about an open bracket, twice, and
about another text of the file. -/
def bracketQuestions : List (Query × QueryKind) :=
  [(⟨"x = 1\n", ⟨"src/a.py"⟩, ⟨1, 0⟩⟩, .hover), (⟨"x = 1\n", ⟨"src//a.py"⟩, ⟨1, 0⟩⟩, .hover),
    (⟨"(\n", ⟨"src/a.py"⟩, ⟨1, 0⟩⟩, .hover), (⟨"(\n", ⟨"src/a.py"⟩, ⟨1, 0⟩⟩, .hover),
    (⟨"x = 12\n", ⟨"src/a.py"⟩, ⟨1, 0⟩⟩, .definition)]

/-- With a cache the engine is asked less often, though each failure costs a question, and the
answers are the same. -/
theorem askAll_cached_eq_counting :
    (askAll (·.length.toUInt64) countingEngine (some {}) bracketQuestions 0).1.1
        = (askAll (·.length.toUInt64) countingEngine none bracketQuestions 0).1.1 ∧
      (askAll (·.length.toUInt64) countingEngine (some {}) bracketQuestions 0).2 = 4 ∧
      (askAll (·.length.toUInt64) countingEngine none bracketQuestions 0).2 = 5 := by
  have distinct : ∀ p ∈ bracketQuestions, ∀ p' ∈ bracketQuestions,
      p.1.source.length.toUInt64 = p'.1.source.length.toUInt64 → p.1.source = p'.1.source := by
    decide +kernel
  exact ⟨(askAll_cached_eq _ _ countingEngine_steady bracketQuestions distinct 0 0).1,
    by decide +kernel, by decide +kernel⟩

end EditorInsight.Analysis
