import EditorInsight.Config.Load

/-!
# Files that say nothing

A YAML file may be there and say nothing: it is blank, its lines are empty or comments, or it has a
document without any content. Then everything is at its default.

* `Yaml.SaysNothing` is a text of empty lines and comments. `Yaml.skipBetween_eq_nil`: the scan passes over
  all of it, and `Yaml.Stream.read?_of_saysNothing`: it holds no document.
* `Yaml.Document.fields?_of_isEmpty`: a document without content has none of the fields that are asked for.
* `Config.Settings.parseYaml?_eq_default` puts the three kinds of files together.
-/

namespace EditorInsight

namespace Yaml

/-! ### Texts without a document -/

/-- Whether a line is empty behind its spaces, or a comment. -/
def IsQuiet (line : List Char) : Prop := ∀ c ∈ (line.dropWhile (· == ' ')).head?, c = '#'

/-- Whether a text consists of empty lines and comments. -/
structure SaysNothing (text : String) : Prop where
  /-- It has only characters that may occur. -/
  printable : text.toList.all isPrintable = true
  /-- Its lines say nothing. -/
  quiet : ∀ line ∈ (normalizeBreaks text.toList).splitOnP isBreak, IsQuiet line

theorem isQuiet_cons_space {line : List Char} : IsQuiet (' ' :: line) ↔ IsQuiet line := by
  have hdrop : (' ' :: line).dropWhile (· == ' ') = line.dropWhile (· == ' ') := rfl
  rw [IsQuiet, hdrop, IsQuiet]

theorem IsQuiet.eq_of_cons {c : Char} {line : List Char} (h : IsQuiet (c :: line)) (hc : c ≠ ' ') :
    c = '#' := by
  rw [IsQuiet, List.dropWhile_cons_of_neg (by rwa [beq_iff_eq])] at h
  exact h c rfl

/-- The scan passes over a text of empty lines and comments. -/
theorem skipBetween_eq_nil {cs line : List Char} {lines : List (List Char)} {inComment : Bool}
    (hsplit : cs.splitOnP isBreak = line :: lines) (hline : inComment = true ∨ IsQuiet line)
    (hlines : ∀ l ∈ lines, IsQuiet l) (m : Mark) (keyAllowed : Bool) :
    (Scanner.skipBetween false cs m keyAllowed inComment).1 = [] := by
  -- by induction on the text, where the first line is only what is left of the present one
  induction cs generalizing line lines inComment m keyAllowed with
  | nil => rfl
  | cons c cs ih =>
    obtain ⟨next, rest, hnext⟩ := List.exists_cons_of_ne_nil (List.splitOnP_ne_nil isBreak cs)
    rw [List.splitOnP_cons_eq_if_modifyHead, hnext] at hsplit
    unfold Scanner.skipBetween
    by_cases hbreak : isBreak c = true
    · -- the line is over, and the next one begins
      rw [if_pos hbreak] at hsplit ⊢
      obtain ⟨rfl, rfl⟩ := List.cons.inj hsplit
      exact ih hnext (Or.inr (hlines next List.mem_cons_self))
        (fun l hl => hlines l (List.mem_cons_of_mem next hl)) _ _
    · rw [if_neg hbreak] at hsplit ⊢
      obtain ⟨rfl, rfl⟩ := List.cons.inj hsplit
      by_cases hcomment : inComment = true
      · rw [if_pos hcomment]
        exact ih hnext (Or.inl rfl) hlines _ _
      · rw [if_neg hcomment]
        have hquiet := hline.resolve_left hcomment
        by_cases hspace : c = ' '
        · subst hspace
          exact ih hnext (Or.inr (isQuiet_cons_space.mp hquiet)) hlines _ _
        · -- nothing but a comment may begin here
          obtain rfl := hquiet.eq_of_cons hspace
          exact ih hnext (Or.inl rfl) hlines _ _

/-- Outside all collections there is none to end. -/
theorem unrollIndent_eq_self {s : Scanner} (hindent : s.indent = -1) (hindents : s.indents = [])
    {column : Int} (hcolumn : -1 ≤ column) : s.unrollIndent column = s := by
  have hnot : ¬ (-1 : Int) > column := Int.not_lt.mpr hcolumn
  unfold Scanner.unrollIndent
  split
  · rfl
  · have hnone : decide ((-1 : Int) > column) = false := decide_eq_false hnot
    rw [hindent, hindents]
    simp only [List.takeWhile_cons, List.dropWhile_cons, hnone, Bool.false_eq_true, if_false,
      List.length_nil, List.replicate_zero, List.append_nil, List.headD_cons, List.tail_cons]
    rw [← hindent, ← hindents]

/-- Where nothing is left of a text without tokens, the scan comes to the end. -/
theorem fetch_of_skipped {cs : List Char}
    (h : (Scanner.skipBetween false cs ⟨0, 0, 0⟩ true false).1 = []) :
    ∃ s, Scanner.fetch { rest := cs } = some s ∧ s.tokens = [.streamEnd] := by
  obtain ⟨m, k, hskip⟩ : ∃ m k, Scanner.skipBetween false cs ⟨0, 0, 0⟩ true false = ([], m, k) :=
    ⟨_, _, Prod.ext h rfl⟩
  have hfetch : Scanner.fetch { rest := cs }
      = (Scanner.unrollIndent { rest := [], mark := m, keyAllowed := k } m.column).fetchToken := by
    have houtside : Scanner.inFlow { rest := cs } = false := rfl
    simp only [Scanner.fetch, houtside, hskip]
    rfl
  have hcolumn : (-1 : Int) ≤ m.column := by omega
  rw [hfetch, unrollIndent_eq_self rfl rfl hcolumn, Scanner.fetchToken, Scanner.fetchEnd]
  dsimp only
  rw [unrollIndent_eq_self rfl rfl (Int.le_refl _)]
  exact ⟨_, rfl, rfl⟩

theorem SaysNothing.scan_eq {text : String} (h : SaysNothing text) :
    Token.scan text.toList = some [.streamEnd] := by
  obtain ⟨line, lines, hsplit⟩ := List.exists_cons_of_ne_nil
    (List.splitOnP_ne_nil isBreak (normalizeBreaks text.toList))
  obtain ⟨hline, hlines⟩ := List.forall_mem_cons.mp (hsplit ▸ h.quiet)
  obtain ⟨s, hfetch, htokens⟩ :=
    fetch_of_skipped (skipBetween_eq_nil hsplit (Or.inr hline) hlines ⟨0, 0, 0⟩ true)
  rw [Token.scan, if_pos h.printable]
  dsimp only
  rw [Scanner.run, hfetch]
  simp only [Option.bind_eq_bind, Option.bind_some, htokens]
  rfl

/-- A text of empty lines and comments holds no document. -/
theorem Stream.read?_of_saysNothing {text : String} (h : SaysNothing text) :
    Stream.read? text = some .empty := by
  rw [read?, h.scan_eq]
  rfl

/-! ### Documents without content -/

theorem Document.fields?_of_isEmpty (d : Document) {n m : Node} (h : d.resolve? n = some m)
    (hempty : isEmptyScalar m = true ∨ m = .mapping []) (names : List String) :
    d.fields? names n = some (names.map fun _ => none) := by
  rw [fields?, h]
  rcases hempty with hscalar | rfl
  · cases m with
    | scalar => exact if_pos hscalar
    | _ => cases hscalar
  · -- no key, so none repeats and none is found
    simp

end Yaml

namespace Config

open Yaml

/-! ### Settings -/

/-- Where no field is there, every field is at its default. -/
theorem Settings.ofYaml?_of_absent {doc : Document} {n : Node}
    (h : doc.fields? fieldNames n = some [none, none, none]) : ofYaml? doc n = some {} := by
  rw [ofYaml?, h]
  rfl

/-- **A file that says nothing leaves everything at its default**: a blank one, one of empty lines and
comments, and one whose document is an empty scalar or an empty mapping. -/
theorem Settings.parseYaml?_eq_default {text : String}
    (h : Text.isBlankText text = true ∨ SaysNothing text ∨
      ∃ doc, Stream.read? text = some (.single doc) ∧
        (Document.isEmptyScalar doc.root = true ∨ doc.root = .mapping [])) :
    parseYaml? text = some {} := by
  unfold parseYaml?
  split
  · rfl
  · next hblank =>
    rcases h.resolve_left hblank with hnothing | ⟨doc, hread, hempty⟩
    · rw [Stream.read?_of_saysNothing hnothing]
    · rw [hread]
      have hroot : doc.resolve? doc.root = some doc.root := by
        cases hcase : doc.root with
        | scalar => rfl
        | sequence => rfl
        | mapping => rfl
        | _ =>
          -- what stands for another node is neither
          rw [hcase] at hempty
          rcases hempty with hscalar | hmapping
          · cases hscalar
          · cases hmapping
      exact ofYaml?_of_absent (doc.fields?_of_isEmpty hroot hempty fieldNames)

example : Settings.parseYaml? "# nothing yet\n\n  # still nothing" = some {} := by
  decide +kernel

end Config

end EditorInsight
