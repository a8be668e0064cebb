import EditorInsight.Navigation
import EditorInsight.Proofs.Analysis.Cache

/-!
# Where a click leads

A click asks the engine, decides, and drives the editor. To say what the editor is driven to, its
calls are recorded: the world of a click is the state of the engine, the state of the editor and the
calls that changed it.

* `Surface` is an editor, which may refuse to open a file; `Surface.driven` records its calls, and
  `Engine.inWorld` is an engine beside it.
* `Served` are the caches that come from questions alone. `ask_answered` says where what a client is
  told comes from.
* `applied_of_error`, `applied_of_none` and `applied_of_target` carry one intent out.
* `Led` says where going to a symbol leads, and `Clicked` where a click leads.
  `click_leads_elsewhere` proves both.
-/

namespace EditorInsight

open Analysis

variable {σ η Handle : Type}

/-! ### The world of a click -/

/-- A call that changes the editor. -/
inductive HostCall (Handle : Type) where
  | openAndFocus (path : Path)
  | setCursor (handle : Handle) (position : Position)

/-- An editor with a state. What has the focus can be seen without changing it. -/
structure Surface (η Handle : Type) where
  /-- The path of the buffer that has the focus. -/
  current : η → Option Path
  /-- Opens a file, or gives it the focus, or refuses to. -/
  openAndFocus : Path → η → Except NavigationError Handle × η
  /-- Moves the caret. -/
  setCursor : Handle → Position → η → η

/-- The state of the engine, the state of the editor, and the calls of the editor so far. -/
structure World (σ η Handle : Type) where
  engine : σ
  host : η
  calls : List (HostCall Handle)

/-- The editor as a client drives it, with its calls recorded. -/
def Surface.driven (surface : Surface η Handle) : Host (StateM (World σ η Handle)) Handle where
  current w := (surface.current w.host, w)
  openAndFocus path w :=
    ((surface.openAndFocus path w.host).1,
      { w with
        host := (surface.openAndFocus path w.host).2
        calls := w.calls ++ [.openAndFocus path] })
  setCursor handle position w :=
    ((), { w with
      host := surface.setCursor handle position w.host
      calls := w.calls ++ [.setCursor handle position] })

/-- What the engine does leaves the editor alone. -/
def World.engineDoes {α : Type} (act : StateM σ α) : StateM (World σ η Handle) α := fun w =>
  ((act w.engine).1, { w with engine := (act w.engine).2 })

/-- The engine beside the editor. -/
def Analysis.Engine.inWorld (e : Engine (StateM σ)) : Engine (StateM (World σ η Handle)) where
  goto q := World.engineDoes (e.goto q)
  references q := World.engineDoes (e.references q)
  signatures q := World.engineDoes (e.signatures q)
  help q := World.engineDoes (e.help q)
  completions q := World.engineDoes (e.completions q)

theorem answer_inWorld (e : Engine (StateM σ)) (q : Query) (kind : QueryKind) :
    (e.inWorld : Engine (StateM (World σ η Handle))).answer q kind
      = World.engineDoes (e.answer q kind) := by
  cases kind <;> rfl

theorem ask_inWorld (digest : String → UInt64) (e : Engine (StateM σ)) (cache : Option Cache)
    (q : Query) (kind : QueryKind) :
    ask digest (e.inWorld : Engine (StateM (World σ η Handle))) cache q kind
      = World.engineDoes (ask digest e cache q kind) := by
  funext w
  simp only [ask, answer_inWorld]
  generalize (cache.bind (·.get? (q.key digest kind))).filter (·.kind == kind) = kept
  cases kept with
  | some a => rfl
  | none =>
    simp only [bind, StateT.bind, World.engineDoes]
    rcases e.answer q kind w.engine with ⟨_ | a, s⟩ <;> rfl

/-! ### What a client is told -/

/-- The caches that come from questions alone, whatever they were and whatever the engine's state at
each of them. -/
inductive Served (digest : String → UInt64) (e : Engine (StateM σ)) : Option Cache → Prop where
  | none : Served digest e none
  | empty : Served digest e (some {})
  | ask {cache : Option Cache} (served : Served digest e cache) (q : Query) (kind : QueryKind)
      (s : σ) : Served digest e (ask digest e cache q kind s).1.2

theorem Analysis.Cache.Truthful.mono {digest : String → UInt64} {e : Engine (StateM σ)}
    {asked asked' : List (Query × QueryKind)} {c : Cache} (h : c.Truthful digest e asked)
    (hsub : ∀ p ∈ asked, p ∈ asked') : c.Truthful digest e asked' := by
  intro k a hk
  obtain ⟨q, kind, s, hq, hkey, ha⟩ := h k a hk
  exact ⟨q, kind, s, hsub _ hq, hkey, ha⟩

section Told

variable {digest : String → UInt64} {e : Engine (StateM σ)} {cache : Option Cache}

theorem Served.truthful (h : Served digest e cache) :
    ∃ asked, ∀ c ∈ cache, c.Truthful digest e asked := by
  induction h with
  | none => exact ⟨[], fun c hc => nomatch hc⟩
  | empty =>
    refine ⟨[], fun c hc k a hk => ?_⟩
    obtain rfl := Option.some.inj hc
    cases hk
  | ask _ q kind s ih =>
    obtain ⟨asked, hasked⟩ := ih
    refine ⟨(q, kind) :: asked, (ask_truthful (fun c hc => ?_) List.mem_cons_self s).1⟩
    exact (hasked c hc).mono fun p hp => List.mem_cons_of_mem _ hp

/-- What a client is told was answered to a question with the same key, or the engine failed. -/
theorem ask_answered (served : Served digest e cache) (q : Query) (kind : QueryKind) (s : σ) :
    (∃ q' s', q.key digest kind = q'.key digest kind ∧ (cache = none → q' = q ∧ s' = s) ∧
      (e.answer q' kind s').1 = .ok (ask digest e cache q kind s).1.1) ∨
    (∃ f, (e.answer q kind s).1 = .error f ∧
      (ask digest e cache q kind s).1.1 = kind.emptyAnswer) := by
  rcases ask_cases digest e cache q kind s with ⟨c, a, rfl, hget, hask⟩ | ⟨a, ha, hask⟩ |
    ⟨f, hf, hask⟩
  · obtain ⟨asked, hasked⟩ := served.truthful
    obtain ⟨q', kind', s', -, hkey, ha⟩ := hasked c rfl _ a (Cache.mem_entries_of_get? hget)
    obtain rfl : kind = kind' := (CacheKey.mk.inj hkey).2.2.1
    rw [hask]
    exact .inl ⟨q', s', hkey, nofun, ha⟩
  · rw [hask]
    exact .inl ⟨q, s, rfl, fun _ => ⟨rfl, rfl⟩, ha⟩
  · rw [hask]
    exact .inr ⟨f, hf, rfl⟩

theorem ask_none (digest : String → UInt64) (e : Engine (StateM σ)) (q : Query) (kind : QueryKind)
    (s : σ) : (ask digest e none q kind s).1.2 = none := by
  rcases ask_cases digest e none q kind s with ⟨c, a, hsome, -, -⟩ | ⟨a, -, hask⟩ | ⟨f, -, hask⟩
  · cases hsome
  · rw [hask]
    rfl
  · rw [hask]

theorem isSite_of_key_eq {q q' : Query} {kind : QueryKind}
    (h : q.key digest kind = q'.key digest kind) : q.isSite = q'.isSite := by
  obtain ⟨hpath, -, -, hposition⟩ := CacheKey.mk.inj h
  funext symbol
  unfold Query.isSite Path.same
  rw [hpath, hposition]

/-- A definition that a client is told of is never on the line that was asked about. -/
theorem isSite_of_symbol? (served : Served digest e cache) {q : Query} {s : σ}
    {symbol : ResolvedSymbol}
    (h : (ask digest e cache q .definition s).1.1.symbol? = some symbol) :
    q.isSite symbol = false := by
  rcases ask_answered served q .definition s with ⟨q', s', hkey, -, hanswer⟩ | ⟨f, -, hempty⟩
  · rw [isSite_of_key_eq hkey]
    change (e.goto q' s').1.map _ = _ at hanswer
    cases hgoto : (e.goto q' s').1 with
    | error f =>
      rw [hgoto] at hanswer
      cases hanswer
    | ok ls =>
      rw [hgoto] at hanswer
      rw [← Except.ok.inj hanswer] at h
      -- the place that was asked about is not taken for a definition
      have hfound : definitionOf q' ls = some symbol := h
      have hother := (Option.filter_eq_some_iff.mp hfound).2
      simpa using hother
  · rw [hempty] at h
    cases h

/-- The places with a file among those that an engine reports. -/
def located (ls : List EngineLocation) : List ReferenceHit :=
  ls.filterMap fun l => l.modulePath.map fun file =>
    ⟨file, ⟨l.line.getD 0, l.column⟩, l.code.getD ""⟩

/-- Whether a use is on a line of a file. -/
def isOnLine (file : Path) (line : Nat) (hit : ReferenceHit) : Bool :=
  hit.filePath.same file && hit.position.line == line

theorem referencesOf_eq (q : Query) (ls : List EngineLocation) :
    referencesOf q ls = (located ls).filter fun hit => !isOnLine q.path q.position.line hit := by
  have hlocated (l : EngineLocation) :
      (l.toSymbol?.map fun s => (⟨s.filePath, s.position, l.code.getD ""⟩ : ReferenceHit))
        = l.modulePath.map fun file => ⟨file, ⟨l.line.getD 0, l.column⟩, l.code.getD ""⟩ := by
    rw [EngineLocation.toSymbol?, Option.map_map]
    rfl
  unfold referencesOf located
  simp only [hlocated]
  rfl

/-- Whether uses are those that the engine reported to a question with the same key, in its order,
without places that have no file or are on the line that was asked about. -/
def Reported (digest : String → UInt64) (e : Engine (StateM σ)) (cache : Option Cache) (q : Query)
    (hits : List ReferenceHit) : Prop :=
  ∃ q' s ls, q.key digest .references = q'.key digest .references ∧ (cache = none → q' = q) ∧
    (e.references q' s).1 = .ok ls ∧
    hits = (located ls).filter fun hit => !isOnLine q.path q.position.line hit

/-- The uses that a client is told of are those that the engine reported, or there are none. -/
theorem reported_of_ask (served : Served digest e cache) (q : Query) (s : σ) :
    Reported digest e cache q (ask digest e cache q .references s).1.1.hits ∨
      (ask digest e cache q .references s).1.1.hits = [] := by
  rcases ask_answered served q .references s with ⟨q', s', hkey, hsame, hanswer⟩ | ⟨f, -, hempty⟩
  · change (e.references q' s').1.map _ = _ at hanswer
    cases hfound : (e.references q' s').1 with
    | error f =>
      rw [hfound] at hanswer
      cases hanswer
    | ok ls =>
      rw [hfound] at hanswer
      have hhits : referencesOf q' ls = (ask digest e cache q .references s).1.1.hits := by
        rw [← Except.ok.inj hanswer]
        rfl
      -- the answer may be for a question that was asked before, with the same path and position
      obtain ⟨hpath, -, -, hposition⟩ := CacheKey.mk.inj hkey
      refine .inl ⟨q', s', ls, hkey, fun hnone => (hsame hnone).1, hfound, ?_⟩
      rw [← hhits, referencesOf_eq]
      unfold isOnLine Path.same
      rw [hpath, hposition]
  · rw [hempty]
    exact .inr rfl

end Told

/-! ### Carrying an intent out -/

/-- Whether the editor was driven to a place, and to nothing else: it opened a file, and with the
handle that it gave, its caret was moved. -/
def Jumped (surface : Surface η Handle) (path : Path) (position : Position)
    (w w' : World σ η Handle) : Prop :=
  ∃ handle, (surface.openAndFocus path w.host).1 = .ok handle ∧
    w'.host = surface.setCursor handle position (surface.openAndFocus path w.host).2 ∧
    w'.calls = w.calls ++ [.openAndFocus path, .setCursor handle position]

/-- Whether the editor refused to open a file, and was asked for nothing else. -/
def Refused (surface : Surface η Handle) (path : Path) (error : NavigationError)
    (w w' : World σ η Handle) : Prop :=
  (surface.openAndFocus path w.host).1 = .error error ∧
    w'.host = (surface.openAndFocus path w.host).2 ∧ w'.calls = w.calls ++ [.openAndFocus path]

/-- Whether the editor was not called. -/
def Untouched (w w' : World σ η Handle) : Prop := w'.host = w.host ∧ w'.calls = w.calls

theorem jump_cases (surface : Surface η Handle) (path : Path) (position : Position)
    (w : World σ η Handle) :
    (∃ error, (Intent.jump surface.driven path position w).1 = .error error ∧
      Refused surface path error w (Intent.jump surface.driven path position w).2) ∨
    ((Intent.jump surface.driven path position w).1 = .ok () ∧
      Jumped surface path position w (Intent.jump surface.driven path position w).2) := by
  simp only [Intent.jump, bind, StateT.bind, Surface.driven]
  cases hopen : (surface.openAndFocus path w.host).1 with
  | error error => exact .inl ⟨error, rfl, hopen, rfl, rfl⟩
  | ok handle => exact .inr ⟨rfl, handle, hopen, rfl, List.append_assoc ..⟩

section Apply

variable {surface : Surface η Handle} {fs : FileSystem} {intent : Intent} {w : World σ η Handle}

theorem applied_of_error {error : NavigationError}
    (h : intent.target fs (surface.current w.host) = .error error) :
    Intent.applied surface.driven fs intent w = (.error error, w) := by
  simp only [Intent.applied, Intent.apply, bind, StateT.bind, Surface.driven, h]
  rfl

theorem applied_of_none (h : intent.target fs (surface.current w.host) = .ok none) :
    Intent.applied surface.driven fs intent w = (.ok intent, w) := by
  simp only [Intent.applied, Intent.apply, bind, StateT.bind, Surface.driven, h]
  rfl

/-- An intent with a target drives the editor there, unless the editor refuses to. -/
theorem applied_of_target {path : Path} {position : Position}
    (h : intent.target fs (surface.current w.host) = .ok (some (path, position))) :
    let r := Intent.applied surface.driven fs intent w
    (r.1 = .ok intent ∧ Jumped surface path position w r.2) ∨
      ∃ error, r.1 = .error error ∧ Refused surface path error w r.2 := by
  intro r
  have hr : r = ((Intent.jump surface.driven path position w).1.map fun _ => intent,
      (Intent.jump surface.driven path position w).2) := by
    simp only [r, Intent.applied, Intent.apply, bind, StateT.bind, Surface.driven, h]
    rfl
  rw [hr]
  rcases jump_cases surface path position w with ⟨error, hjump, hrefused⟩ | ⟨hjump, hjumped⟩
  · rw [hjump]
    exact .inr ⟨error, rfl, hrefused⟩
  · rw [hjump]
    exact .inl ⟨rfl, hjumped⟩

end Apply

/-- Where going to a symbol leads. -/
structure Led (surface : Surface η Handle) (fs : FileSystem) (current : Path)
    (symbol : ResolvedSymbol) (w w' : World σ η Handle) (result : Except NavigationError Intent) :
    Prop where
  /-- In the buffer that has the focus. -/
  within : symbol.filePath.same current = true →
    (result = .ok (.jumpWithinBuffer symbol.position) ∧
      Jumped surface current symbol.position w w') ∨
    ∃ error, result = .error error ∧ Refused surface current error w w'
  /-- In another file. -/
  elsewhere : symbol.filePath.same current = false → fs.exists? symbol.filePath = true →
    (result = .ok (.openAndJump symbol.filePath symbol.position) ∧
      Jumped surface symbol.filePath symbol.position w w') ∨
    ∃ error, result = .error error ∧ Refused surface symbol.filePath error w w'
  /-- In another file that is not there. -/
  missing : symbol.filePath.same current = false → fs.exists? symbol.filePath = false →
    result = .error (.targetMissing symbol.filePath) ∧ Untouched w w'

/-- The state of the engine does not count. -/
theorem Led.of_engine {surface : Surface η Handle} {fs : FileSystem} {current : Path}
    {symbol : ResolvedSymbol} {w w' : World σ η Handle} {s : σ}
    {result : Except NavigationError Intent}
    (h : Led surface fs current symbol { w with engine := s } w' result) :
    Led surface fs current symbol w w' result :=
  ⟨h.within, h.elsewhere, h.missing⟩

/-- Going to a symbol, if nothing fails, is one of the two jumps to its own place. -/
theorem Led.of_ok {surface : Surface η Handle} {fs : FileSystem} {current : Path}
    {symbol : ResolvedSymbol} {w w' : World σ η Handle} {intent : Intent}
    (h : Led surface fs current symbol w w' (.ok intent)) :
    (symbol.filePath.same current = true ∧ intent = .jumpWithinBuffer symbol.position ∧
      Jumped surface current symbol.position w w') ∨
    (symbol.filePath.same current = false ∧ fs.exists? symbol.filePath = true ∧
      intent = .openAndJump symbol.filePath symbol.position ∧
      Jumped surface symbol.filePath symbol.position w w') := by
  cases hsame : symbol.filePath.same current with
  | true =>
    rcases h.within hsame with ⟨hok, hjumped⟩ | ⟨error, herror, -⟩
    · exact .inl ⟨rfl, Except.ok.inj hok, hjumped⟩
    · cases herror
  | false =>
    cases hexists : fs.exists? symbol.filePath with
    | true =>
      rcases h.elsewhere hsame hexists with ⟨hok, hjumped⟩ | ⟨error, herror, -⟩
      · exact .inr ⟨rfl, rfl, Except.ok.inj hok, hjumped⟩
      · cases herror
    | false => cases (h.missing hsame hexists).1

theorem led_of_applied {surface : Surface η Handle} {fs : FileSystem} {w : World σ η Handle}
    {current : Path} (hfocus : surface.current w.host = some current) (symbol : ResolvedSymbol) :
    Led surface fs current symbol w
      (Intent.applied surface.driven fs (.decide (some symbol) [] current) w).2
      (Intent.applied surface.driven fs (.decide (some symbol) [] current) w).1 := by
  cases hsame : symbol.filePath.same current with
  | true =>
    have hintent : Intent.decide (some symbol) [] current = .jumpWithinBuffer symbol.position := by
      rw [Intent.decide, if_pos hsame]
    rw [hintent]
    -- a jump within the buffer needs no file, only a buffer that has the focus
    refine ⟨fun _ => applied_of_target ?_, fun h => absurd (h.symm.trans hsame) Bool.false_ne_true,
      fun h => absurd (h.symm.trans hsame) Bool.false_ne_true⟩
    rw [hfocus]
    rfl
  | false =>
    have hintent : Intent.decide (some symbol) [] current =
        .openAndJump symbol.filePath symbol.position := by
      rw [Intent.decide, if_neg (by rw [hsame]; exact Bool.false_ne_true)]
    rw [hintent]
    refine ⟨fun h => absurd (hsame.symm.trans h) Bool.false_ne_true,
      fun _ hexists => applied_of_target ?_, fun _ hmissing => ?_⟩
    · rw [Intent.target, if_pos hexists]
    · have htarget : (Intent.openAndJump symbol.filePath symbol.position).target fs
          (surface.current w.host) = .error (.targetMissing symbol.filePath) := by
        rw [Intent.target, hmissing, if_neg Bool.false_ne_true]
      rw [applied_of_error htarget]
      exact ⟨rfl, rfl, rfl⟩

/-! ### Clicks -/

/-- Where a click on a place of the buffer that has the focus leads. -/
structure Clicked (digest : String → UInt64) (e : Engine (StateM σ)) (surface : Surface η Handle)
    (fs : FileSystem) (cache : Option Cache) (q : Query) (w w' : World σ η Handle)
    (result : Except NavigationError Intent) : Prop where
  /-- A jump within the buffer leads to another line. -/
  withinBuffer : ∀ p, result = .ok (.jumpWithinBuffer p) →
    p.line ≠ q.position.line ∧ Jumped surface q.path p w w'
  /-- A jump to a file leads out of the buffer. -/
  otherFile : ∀ file p, result = .ok (.openAndJump file p) →
    file.same q.path = false ∧ fs.exists? file = true ∧ Jumped surface file p w w'
  /-- A menu offers what the engine reported elsewhere, and only if no definition is known. -/
  menu : ∀ hits, result = .ok (.showReferenceMenu hits) →
    (ask digest e cache q .definition w.engine).1.1.symbol? = none ∧ hits ≠ [] ∧
      (∀ hit ∈ hits, ¬ (hit.filePath.same q.path = true ∧ hit.position.line = q.position.line)) ∧
      Reported digest e cache q hits ∧ Untouched w w'
  nothing : result = .ok .nothing → Untouched w w'
  /-- A definition that is known is gone to. -/
  resolved : ∀ symbol, (ask digest e cache q .definition w.engine).1.1.symbol? = some symbol →
    Led surface fs q.path symbol w w' result

section Clicks

variable {digest : String → UInt64} {e : Engine (StateM σ)} {surface : Surface η Handle}
  {fs : FileSystem} {cache : Option Cache} {source : String} {position : Position}
  {w : World σ η Handle} {current : Path}

theorem current_driven (hfocus : surface.current w.host = some current) :
    surface.driven.current w = (some current, w) :=
  congrArg (·, w) hfocus

/-- A click goes to the definition if one is known. -/
theorem click_of_some (hfocus : surface.current w.host = some current) {symbol : ResolvedSymbol}
    {answer : Answer} {cache' : Option Cache} {s : σ}
    (hask : ask digest e cache ⟨source, current, position⟩ .definition w.engine
      = ((answer, cache'), s))
    (hsymbol : answer.symbol? = some symbol) :
    click digest e.inWorld surface.driven fs cache source position w =
      (((Intent.applied surface.driven fs (.decide (some symbol) [] current)
          { w with engine := s }).1, cache'),
        (Intent.applied surface.driven fs (.decide (some symbol) [] current)
          { w with engine := s }).2) := by
  simp only [click, bind, StateT.bind, current_driven hfocus, ask_inWorld, World.engineDoes, hask,
    hsymbol]
  rfl

/-- A click asks for uses if no definition is known. -/
theorem click_of_none (hfocus : surface.current w.host = some current) {answer uses : Answer}
    {cache' cache'' : Option Cache} {s s' : σ}
    (hask : ask digest e cache ⟨source, current, position⟩ .definition w.engine
      = ((answer, cache'), s))
    (hsymbol : answer.symbol? = none)
    (huses : ask digest e cache' ⟨source, current, position⟩ .references s
      = ((uses, cache''), s')) :
    click digest e.inWorld surface.driven fs cache source position w =
      (((Intent.applied surface.driven fs (.decide none uses.hits current)
          { w with engine := s' }).1, cache''),
        (Intent.applied surface.driven fs (.decide none uses.hits current)
          { w with engine := s' }).2) := by
  simp only [click, bind, StateT.bind, current_driven hfocus, ask_inWorld, World.engineDoes, hask,
    hsymbol, huses]
  rfl

/-- An intent without a target is given back, and the editor is not called. -/
theorem applied_none (hits : List ReferenceHit) :
    Intent.applied surface.driven fs (.decide none hits current) w =
      (.ok (.decide none hits current), w) := by
  refine applied_of_none ?_
  unfold Intent.decide
  dsimp only
  split <;> rfl

theorem clicked_of_some (served : Served digest e cache)
    (hfocus : surface.current w.host = some current) {symbol : ResolvedSymbol} {answer : Answer}
    {cache' : Option Cache} {s : σ}
    (hask : ask digest e cache ⟨source, current, position⟩ .definition w.engine
      = ((answer, cache'), s))
    (hsymbol : answer.symbol? = some symbol) :
    let r := click digest e.inWorld surface.driven fs cache source position w
    Clicked digest e surface fs cache ⟨source, current, position⟩ w r.2 r.1.1 := by
  intro r
  have hresolved : (ask digest e cache ⟨source, current, position⟩ .definition w.engine).1.1.symbol?
      = some symbol := by
    rw [hask]
    exact hsymbol
  have hother := isSite_of_symbol? served hresolved
  have hled : Led surface fs current symbol w r.2 r.1.1 := by
    rw [show r = _ from click_of_some hfocus hask hsymbol]
    exact Led.of_engine (led_of_applied (w := { w with engine := s }) hfocus symbol)
  refine ⟨fun p hp => ?_, fun file p hp => ?_, fun hits hp => ?_, fun hp => ?_, fun symbol' h => ?_⟩
  · rw [hp] at hled
    rcases hled.of_ok with ⟨hsame, hintent, hjumped⟩ | ⟨-, -, hintent, -⟩
    · cases hintent
      refine ⟨fun hline => ?_, hjumped⟩
      -- the definition would be on the line that was clicked
      rw [Query.isSite, hsame, hline, beq_self_eq_true] at hother
      cases hother
    · cases hintent
  · rw [hp] at hled
    rcases hled.of_ok with ⟨-, hintent, -⟩ | ⟨hsame, hexists, hintent, hjumped⟩
    · cases hintent
    · cases hintent
      exact ⟨hsame, hexists, hjumped⟩
  · rw [hp] at hled
    rcases hled.of_ok with ⟨-, hintent, -⟩ | ⟨-, -, hintent, -⟩ <;> cases hintent
  · rw [hp] at hled
    rcases hled.of_ok with ⟨-, hintent, -⟩ | ⟨-, -, hintent, -⟩ <;> cases hintent
  · obtain rfl := Option.some.inj (hresolved.symm.trans h)
    exact hled

theorem clicked_of_none (served : Served digest e cache)
    (hfocus : surface.current w.host = some current) {answer uses : Answer}
    {cache' cache'' : Option Cache} {s s' : σ}
    (hask : ask digest e cache ⟨source, current, position⟩ .definition w.engine
      = ((answer, cache'), s))
    (hsymbol : answer.symbol? = none)
    (huses : ask digest e cache' ⟨source, current, position⟩ .references s
      = ((uses, cache''), s')) :
    let r := click digest e.inWorld surface.driven fs cache source position w
    Clicked digest e surface fs cache ⟨source, current, position⟩ w r.2 r.1.1 := by
  intro r
  have hresolved : (ask digest e cache ⟨source, current, position⟩ .definition w.engine).1.1.symbol?
      = none := by
    rw [hask]
    exact hsymbol
  have hr : r = ((.ok (.decide none uses.hits current), cache''), { w with engine := s' }) := by
    rw [show r = _ from click_of_none hfocus hask hsymbol huses, applied_none]
  rw [hr]
  unfold Intent.decide
  dsimp only
  have huntouched : Untouched w { w with engine := s' } := ⟨rfl, rfl⟩
  by_cases hempty : uses.hits.isEmpty = true
  · -- there is nothing to be shown
    rw [if_pos hempty]
    exact ⟨nofun, nofun, nofun, fun _ => huntouched, fun symbol h => nomatch hresolved.symm.trans h⟩
  · rw [if_neg hempty]
    refine ⟨nofun, nofun, fun hits hhits => ?_, nofun, fun symbol h => nomatch hresolved.symm.trans h⟩
    cases hhits
    -- the second question meets the cache that the first one left
    have hreported : Reported digest e cache ⟨source, current, position⟩ uses.hits := by
      have served' := served.ask ⟨source, current, position⟩ .definition w.engine
      rw [hask] at served'
      have hcache : cache = none → cache' = none := by
        rintro rfl
        have hkept := ask_none digest e ⟨source, current, position⟩ .definition w.engine
        rwa [hask] at hkept
      have hask' := reported_of_ask served' ⟨source, current, position⟩ s
      rw [huses] at hask'
      rcases hask' with ⟨q', s₀, ls, hkey, hsame, hfound, hhits⟩ | hnil
      · exact ⟨q', s₀, ls, hkey, fun hnone => hsame (hcache hnone), hfound, hhits⟩
      · exact absurd (List.isEmpty_iff.mpr hnil) hempty
    refine ⟨hresolved, fun hnil => hempty (List.isEmpty_iff.mpr hnil), ?_, hreported, huntouched⟩
    -- the line that was clicked on is left out
    obtain ⟨q', s₀, ls, -, -, -, hhits⟩ := hreported
    intro hit hhit hsite
    rw [hhits] at hhit
    have hoff := (List.mem_filter.mp hhit).2
    rw [isOnLine, hsite.1, hsite.2, beq_self_eq_true] at hoff
    cases hoff

end Clicks

/-- **A click leads elsewhere**, with a cache that comes from questions alone, which the click leaves
so, or without one, and a choice from the menu leads to the place that was chosen. -/
theorem click_leads_elsewhere (digest : String → UInt64) (e : Engine (StateM σ))
    {cache : Option Cache} (served : Served digest e cache) (surface : Surface η Handle)
    (fs : FileSystem) (source : String) (position : Position) (w : World σ η Handle)
    {current : Path} (hfocus : surface.current w.host = some current) :
    (let r := click digest e.inWorld surface.driven fs cache source position w
     Clicked digest e surface fs cache ⟨source, current, position⟩ w r.2 r.1.1 ∧
       Served digest e r.1.2) ∧
    ∀ hit : ReferenceHit,
      let r := select surface.driven fs hit w
      Led surface fs current hit.toSymbol w r.2 r.1 := by
  refine ⟨?_, fun hit => ?_⟩
  · intro r
    -- the definition is asked for first, and the uses only where it is not known
    have served' := served.ask ⟨source, current, position⟩ .definition w.engine
    rcases hask : ask digest e cache ⟨source, current, position⟩ .definition w.engine with
      ⟨⟨answer, cache'⟩, s⟩
    rw [hask] at served'
    cases hsymbol : answer.symbol? with
    | some symbol =>
      refine ⟨clicked_of_some served hfocus hask hsymbol, ?_⟩
      rw [show r = _ from click_of_some hfocus hask hsymbol]
      exact served'
    | none =>
      have served'' := served'.ask ⟨source, current, position⟩ .references s
      rcases huses : ask digest e cache' ⟨source, current, position⟩ .references s with
        ⟨⟨uses, cache''⟩, s'⟩
      rw [huses] at served''
      refine ⟨clicked_of_none served hfocus hask hsymbol huses, ?_⟩
      rw [show r = _ from click_of_none hfocus hask hsymbol huses]
      exact served''
  · -- a choice is decided on as a definition is
    have hselect : select surface.driven fs hit w =
        Intent.applied surface.driven fs (.decide (some hit.toSymbol) [] current) w := by
      simp only [select, bind, StateT.bind, current_driven hfocus]
    rw [hselect]
    exact led_of_applied hfocus hit.toSymbol

/-- An editor with a row of tabs, of which the first one has the focus. -/
def tabs : Surface (List Path) Path where
  current paths := paths.head?
  openAndFocus path paths := (.ok path, path :: paths)
  setCursor _ _ paths := paths

/-- A definition on another line is jumped to. -/
theorem click_leads_elsewhere_tabs :
    Served (·.length.toUInt64) countingEngine (some {}) ∧
      tabs.current [⟨"b.py"⟩] = some ⟨"b.py"⟩ ∧
      Jumped tabs ⟨"b.py"⟩ ⟨5, 2⟩ (⟨0, [⟨"b.py"⟩], []⟩ : World Nat (List Path) Path)
        (click (·.length.toUInt64) countingEngine.inWorld tabs.driven {} (some {}) "x = 1\n" ⟨1, 0⟩
          ⟨0, [⟨"b.py"⟩], []⟩).2 := by
  have hleads := click_leads_elsewhere (·.length.toUInt64) countingEngine .empty tabs {} "x = 1\n"
    ⟨1, 0⟩ ⟨0, [⟨"b.py"⟩], []⟩ rfl
  have hled := hleads.1.1.resolved ⟨⟨"b.py"⟩, ⟨5, 2⟩⟩ rfl
  refine ⟨.empty, rfl, ?_⟩
  rcases hled.within (by decide +kernel) with ⟨-, hjumped⟩ | ⟨error, -, hrefused⟩
  · exact hjumped
  · cases hrefused.1

end EditorInsight
