import EditorInsight.Proofs.Buffer
import EditorInsight.Proofs.Buffer.Completion
import EditorInsight.Proofs.Buffer.InPlace
import EditorInsight.Proofs.Character.Encoding

/-!
# Changes as splices

Each change of the text replaces one stretch of its bytes by another text and counts as one
generation, or it is refused and nothing has happened. What a buffer may be asked is any offset: past
the end, inside a character, or behind the end of the range. The checks refuse exactly these, so that
what is left of the bytes on both sides and the new text are together a text again.

* `Change.Replaces` says which stretch of a text a change replaces, and by what.
* `Change.OffsetsFit` says that the offsets of a change are in order and at valid positions.
* `Buffer.offsetsFit_of_apply` and `Buffer.exists_apply_eq_ok`: with offsets that fit a change is
  accepted, and with others it is not.
* `Buffer.SpliceOrNothing` is what a change comes to in place.
* `Buffer.follows_attemptAll` is a row of changes, and `Buffer.exists_delete_of_insert` an insertion
  that is taken back.
* `Buffer.edits_exact` is all of it.
-/

namespace EditorInsight

open Text

namespace Change

/-- Whether a change is one of the text. -/
def IsEdit : Change → Prop
  | .setText _ | .insert _ _ | .delete _ _ | .complete _ _ => True
  | .setPath _ | .nothing => False

/-- The stretch of a text that a change replaces, and the text that is put there. A completion
replaces the longest run of identifier characters that ends at the caret. -/
inductive Replaces (text : String) : Change → Nat → Nat → String → Prop
  | setText (new : String) : Replaces text (.setText new) 0 (byteLength text) new
  | insert (offset : Nat) (new : String) : Replaces text (.insert offset new) offset offset new
  | delete (start stop : Nat) : Replaces text (.delete start stop) start stop ""
  | complete {before word after : String} (label : String) (split : text = before ++ word ++ after)
      (word_within : Within isIdentifierChar word.toList)
      (before_endsOutside : EndsOutside isIdentifierChar before.toList) :
      Replaces text (.complete (byteLength (before ++ word)) label) (byteLength before)
        (byteLength (before ++ word)) label

/-- Whether the offsets of a change are in order and are valid positions of a text: not past its end
and not inside a character. -/
def OffsetsFit (text : String) : Change → Prop
  | .insert offset _ | .complete offset _ => (String.Pos.Raw.mk offset).IsValid text
  | .delete start stop => start ≤ stop ∧ (String.Pos.Raw.mk start).IsValid text ∧
      (String.Pos.Raw.mk stop).IsValid text
  | .setText _ | .setPath _ | .nothing => True

end Change

namespace Buffer

variable {b b' : Buffer} {change : Change} {caret : Option Nat} {before old after : String}

/-! ### The checks -/

theorem ensureWritable_of (h : b.isReadOnly = false) : b.ensureWritable = .ok () := by
  rw [ensureWritable, h]
  rfl

theorem isReadOnly_of_ensureWritable {u : Unit} (h : b.ensureWritable = .ok u) :
    b.isReadOnly = false := by
  rw [ensureWritable] at h
  split at h
  · cases h
  · next hnot => exact Bool.eq_false_iff.mpr hnot

theorem checkOffset_append (htext : b.text = before ++ after) :
    b.checkOffset (byteLength before) = .ok () :=
  if_pos (isBoundary_iff_exists_string.mpr ⟨before, after, htext, rfl⟩)

theorem isValid_of_checkOffset {offset : Nat} {u : Unit} (h : b.checkOffset offset = .ok u) :
    (String.Pos.Raw.mk offset).IsValid b.text := by
  rw [checkOffset] at h
  split at h
  · next hboundary => exact isBoundary_iff_isValid.mp hboundary
  · cases h

/-- A range that can be cut out does not stop before it starts. -/
theorem le_of_splice {start stop : Nat} {new : List Char} (h : b.splice start stop new = .ok b') :
    start ≤ stop := by
  refine Nat.le_of_not_lt fun hlt => ?_
  rw [splice, splice?_eq_none hlt] at h
  cases h

/-- **What has been accepted fits**: the checks let nothing else through. -/
theorem offsetsFit_of_apply (hedit : change.IsEdit) (h : b.apply change = .ok (b', caret)) :
    b.isReadOnly = false ∧ change.OffsetsFit b.text := by
  -- the order of a range is not checked before the cut, and there is no cut against it
  cases change with
  | setText new =>
    obtain ⟨_, hwritable, -⟩ := bind_eq_ok h
    exact ⟨isReadOnly_of_ensureWritable hwritable, trivial⟩
  | insert offset new =>
    obtain ⟨_, hwritable, h⟩ := bind_eq_ok h
    obtain ⟨_, hoffset, -⟩ := bind_eq_ok h
    exact ⟨isReadOnly_of_ensureWritable hwritable, isValid_of_checkOffset hoffset⟩
  | delete start stop =>
    obtain ⟨_, hwritable, h⟩ := bind_eq_ok h
    obtain ⟨_, hstart, h⟩ := bind_eq_ok h
    obtain ⟨_, hstop, h⟩ := bind_eq_ok h
    obtain ⟨_, hsplice, -⟩ := bind_eq_ok h
    exact ⟨isReadOnly_of_ensureWritable hwritable, le_of_splice hsplice,
      isValid_of_checkOffset hstart, isValid_of_checkOffset hstop⟩
  | complete offset label =>
    obtain ⟨_, hwritable, h⟩ := bind_eq_ok h
    obtain ⟨_, hoffset, -⟩ := bind_eq_ok h
    exact ⟨isReadOnly_of_ensureWritable hwritable, isValid_of_checkOffset hoffset⟩
  | setPath path => exact hedit.elim
  | nothing => exact hedit.elim

/-! ### The change -/

/-- Two valid positions in order are where a part of the text starts and stops. -/
theorem exists_part {text : String} {start stop : Nat} (hle : start ≤ stop)
    (hstart : (String.Pos.Raw.mk start).IsValid text) (hstop : (String.Pos.Raw.mk stop).IsValid text) :
    ∃ before old after : String, text = before ++ old ++ after ∧ byteLength before = start ∧
      byteLength (before ++ old) = stop := by
  obtain ⟨before, rest, rfl, rfl⟩ := isBoundary_iff_exists_string.mp
    (isBoundary_iff_isValid.mpr hstart)
  obtain ⟨upTo, after, hcut, rfl⟩ := isBoundary_iff_exists_string.mp
    (isBoundary_iff_isValid.mpr hstop)
  -- what is before the first position is the first part of what is before the second
  have hlists : before.toList ++ rest.toList = upTo.toList ++ after.toList := by
    rw [← String.toList_append, hcut, String.toList_append]
  obtain ⟨old, hupTo, -⟩ := exists_eq_append_of_width_le hlists hle
  obtain rfl : upTo = before ++ String.ofList old := by
    rw [← String.toList_inj, String.toList_append, String.toList_ofList]
    exact hupTo
  exact ⟨before, _, after, hcut, rfl, rfl⟩

theorem apply_insert (hwritable : b.isReadOnly = false) (htext : b.text = before ++ after)
    (new : String) : b.apply (.insert (byteLength before) new) = .ok
      ({ b with text := before ++ new ++ after, generation := b.generation + 1 }, none) := by
  have htext' : b.text = before ++ "" ++ after := by rw [String.append_empty, htext]
  have hsplice := splice_append htext' new
  rw [String.append_empty] at hsplice
  rw [apply, ensureWritable_of hwritable, checkOffset_append htext, hsplice]
  rfl

theorem apply_delete (hwritable : b.isReadOnly = false) (htext : b.text = before ++ old ++ after) :
    b.apply (.delete (byteLength before) (byteLength (before ++ old))) = .ok
      ({ b with text := before ++ after, generation := b.generation + 1 }, none) := by
  have htext' : b.text = before ++ (old ++ after) := by rw [htext, String.append_assoc]
  have hsplice := splice_append htext ""
  rw [String.toList_empty, String.append_empty] at hsplice
  rw [apply, ensureWritable_of hwritable, checkOffset_append htext', checkOffset_append htext,
    hsplice]
  rfl

/-- **What fits is accepted**, and puts another text in the place of a part of the text. -/
theorem exists_apply_eq_ok (hedit : change.IsEdit) (hwritable : b.isReadOnly = false)
    (hfit : change.OffsetsFit b.text) :
    ∃ before old after new caret, b.text = before ++ old ++ after ∧
      change.Replaces b.text (byteLength before) (byteLength (before ++ old)) new ∧
      b.apply change = .ok
        ({ b with text := before ++ new ++ after, generation := b.generation + 1 }, caret) := by
  cases change with
  | setText new =>
    -- the part is the whole text
    have htext : b.text = "" ++ b.text ++ "" := by simp
    refine ⟨"", b.text, "", new, none, htext, ?_, ?_⟩
    · rw [String.empty_append]
      exact .setText new
    · rw [apply, ensureWritable_of hwritable, withChars_toList, String.empty_append,
        String.append_empty]
      rfl
  | insert offset new =>
    obtain ⟨before, after, htext, rfl⟩ := isBoundary_iff_exists_string.mp
      (isBoundary_iff_isValid.mpr hfit)
    -- the part is empty
    refine ⟨before, "", after, new, none, ?_, ?_, apply_insert hwritable htext new⟩
    · rw [String.append_empty, htext]
    · rw [String.append_empty]
      exact .insert _ new
  | delete start stop =>
    obtain ⟨hle, hstart, hstop⟩ := hfit
    obtain ⟨before, old, after, htext, rfl, rfl⟩ := exists_part hle hstart hstop
    refine ⟨before, old, after, "", none, htext, .delete _ _, ?_⟩
    rw [apply_delete hwritable htext, String.append_empty]
  | complete offset label =>
    obtain ⟨before, word, after, htext, rfl, hword, hbefore⟩ := exists_partialWord
      (isBoundary_iff_isValid.mpr hfit)
    exact ⟨before, word, after, label, _, htext, .complete label htext hword hbefore,
      apply_complete hwritable htext hword hbefore label⟩
  | setPath path => exact hedit.elim
  | nothing => exact hedit.elim

/-- **What a change comes to**: one stretch of the text is replaced and nothing else, in place, or
nothing has happened. -/
structure SpliceOrNothing (b : Buffer) (change : Change) : Prop where
  /-- In place it comes out as on a copy. -/
  perform_eq : change.perform b = settle b (b.apply change)
  succeeds_iff : (∃ caret b', change.perform b = .ok caret b') ↔
    b.isReadOnly = false ∧ change.OffsetsFit b.text
  splice_of_ok {caret : Option Nat} {b' : Buffer} : change.perform b = .ok caret b' →
    b'.path = b.path ∧ b'.generation = b.generation + 1 ∧
      ∃ start stop new, change.Replaces b.text start stop new ∧ IsSplice b.text start stop new b'.text
  unchanged_of_error {error : EditError} {b' : Buffer} : change.perform b = .error error b' → b' = b

theorem spliceOrNothing (b : Buffer) (hedit : change.IsEdit) : SpliceOrNothing b change where
  perform_eq := change.perform_eq b
  succeeds_iff := by
    constructor
    · rintro ⟨caret, b', h⟩
      rw [change.perform_eq b] at h
      exact offsetsFit_of_apply hedit (settle_eq_ok h)
    · rintro ⟨hwritable, hfit⟩
      obtain ⟨_, _, _, _, caret, -, -, happly⟩ := exists_apply_eq_ok hedit hwritable hfit
      exact ⟨caret, _, by rw [change.perform_eq b, happly]; rfl⟩
  splice_of_ok {caret b'} h := by
    rw [change.perform_eq b] at h
    have happly := settle_eq_ok h
    obtain ⟨hwritable, hfit⟩ := offsetsFit_of_apply hedit happly
    obtain ⟨before, old, after, new, caret', htext, hreplaces, happly'⟩ :=
      exists_apply_eq_ok hedit hwritable hfit
    -- there is only one outcome
    obtain ⟨rfl, -⟩ := Prod.mk.inj (Except.ok.inj (happly.symm.trans happly'))
    refine ⟨rfl, rfl, _, _, new, hreplaces, ?_⟩
    rw [htext]
    exact isSplice_append before old after new
  unchanged_of_error {error b'} h := by
    rw [change.perform_eq b] at h
    exact (settle_eq_error h).1

/-! ### A row of changes -/

/-- What a change leaves, also when it is refused. -/
def attempt (b : Buffer) (change : Change) : Buffer :=
  match change.perform b with
  | .ok _ b' => b'
  | .error _ b' => b'

/-- What a row of changes leaves. -/
def attemptAll (b : Buffer) (changes : List Change) : Buffer := changes.foldl attempt b

theorem follows_attempt (b : Buffer) (change : Change) : Follows b (b.attempt change) := by
  unfold attempt
  split
  · next b' h =>
    rw [change.perform_eq b] at h
    exact follows_of_apply (settle_eq_ok h)
  · next b' h =>
    rw [change.perform_eq b] at h
    rw [(settle_eq_error h).1]
    exact Follows.refl b

theorem follows_attemptAll (b : Buffer) (changes : List Change) :
    Follows b (b.attemptAll changes) := by
  induction changes generalizing b with
  | nil => exact Follows.refl b
  | cons change changes ih => exact (b.follows_attempt change).trans (ih (b.attempt change))

/-- **What has just been inserted** can be deleted again, and then the text is as it was. -/
theorem exists_delete_of_insert {offset : Nat} {new : String} {caret : Option Nat}
    (h : (Change.insert offset new).perform b = .ok caret b') :
    ∃ caret' b'', (Change.delete offset (offset + byteLength new)).perform b' = .ok caret' b'' ∧
      b''.text = b.text := by
  rw [Change.perform_eq] at h
  have happly := settle_eq_ok h
  obtain ⟨hwritable, hfit⟩ := offsetsFit_of_apply (by trivial) happly
  obtain ⟨before, after, htext, rfl⟩ := isBoundary_iff_exists_string.mp
    (isBoundary_iff_isValid.mpr hfit)
  rw [apply_insert hwritable htext new] at happly
  obtain ⟨rfl, -⟩ := Prod.mk.inj (Except.ok.inj happly)
  -- what was inserted is a part of the text now
  have hdelete := apply_delete
    (b := { b with text := before ++ new ++ after, generation := b.generation + 1 }) hwritable rfl
  rw [byteLength_append] at hdelete
  rw [Change.perform_eq, hdelete]
  exact ⟨none, _, rfl, htext.symm⟩

/-! ### All of it -/

/-- **Every change of the text is an exact splice or nothing.** It is accepted if and only if the
buffer is writable and the offsets fit. Along any row of changes, equal generations mean equal texts,
and to delete what was just inserted restores the text. -/
theorem edits_exact (b : Buffer) :
    (∀ change : Change, change.IsEdit → SpliceOrNothing b change) ∧
    (∀ first later : List Change,
      ((b.attemptAll first).attemptAll later).generation = (b.attemptAll first).generation →
        ((b.attemptAll first).attemptAll later).text = (b.attemptAll first).text) ∧
    ∀ (offset : Nat) (new : String) (caret : Option Nat) (b' : Buffer),
      (Change.insert offset new).perform b = .ok caret b' →
        ∃ caret' b'', (Change.delete offset (offset + byteLength new)).perform b' = .ok caret' b'' ∧
          b''.text = b.text :=
  ⟨fun _ hedit => b.spliceOrNothing hedit,
    fun first later => ((b.attemptAll first).follows_attemptAll later).text_eq,
    fun _ _ _ _ => exists_delete_of_insert⟩

/-- A text of one character with two bytes: an insertion inside it and a range that stops before it
starts are refused, and a second character can be put behind it and taken away again. -/
theorem edits_exact_accented :
    let b : Buffer := { path := ⟨"a.py"⟩, text := "é" }
    ((Change.insert 1 "x").IsEdit ∧ ¬ ∃ caret b', (Change.insert 1 "x").perform b = .ok caret b') ∧
    ((Change.delete 2 0).IsEdit ∧ ¬ ∃ caret b', (Change.delete 2 0).perform b = .ok caret b') ∧
    ((b.attemptAll []).attemptAll [.insert 1 "x", .delete 2 0]).text = "é" ∧
    ∃ caret b', (Change.insert 2 "ü").perform b = .ok caret b' ∧ b'.generation = 1 ∧
      ∃ caret' b'', (Change.delete 2 4).perform b' = .ok caret' b'' ∧ b''.text = "é" := by
  intro b
  have hwritable : b.isReadOnly = false := by decide +kernel
  have hinside : ¬ (String.Pos.Raw.mk 1).IsValid b.text := fun h =>
    absurd (isBoundary_iff_isValid.mpr h) (by decide +kernel)
  have hend : (String.Pos.Raw.mk 2).IsValid b.text := isBoundary_iff_isValid.mp (by decide +kernel)
  obtain ⟨hedits, hruns, hundo⟩ := edits_exact b
  obtain ⟨caret, b', hinsert⟩ := (hedits (.insert 2 "ü") trivial).succeeds_iff.mpr ⟨hwritable, hend⟩
  have hcounted := ((hedits (.insert 2 "ü") trivial).splice_of_ok hinsert).2.1
  exact ⟨⟨trivial, fun h => hinside ((hedits (.insert 1 "x") trivial).succeeds_iff.mp h).2⟩,
    ⟨trivial, fun h => absurd ((hedits (.delete 2 0) trivial).succeeds_iff.mp h).2.1 (by decide)⟩,
    hruns [] [.insert 1 "x", .delete 2 0] (by decide +kernel),
    caret, b', hinsert, hcounted, hundo 2 "ü" caret b' hinsert⟩

end Buffer

end EditorInsight
