import EditorInsight.Buffer
import EditorInsight.Proofs.Except

/-!
# Generations of a buffer

A change either leaves the text and the generation as they are or raises the generation by one. So
along any history of one buffer the generation never falls, and two moments with the same generation
have the same text. A change of the path is none of the text.

* `Buffer.apply_eq_ok` lists what a change may do to a buffer.
* `Buffer.Follows` says so of two moments; `Buffer.follows_of_apply` is one change.
-/

namespace EditorInsight

/-- The file that a change points a buffer at, if it does. -/
def Change.path? : Change → Option Path
  | .setPath path => some path
  | _ => none

namespace Buffer

theorem splice_eq_ok {b b' : Buffer} {start stop : Nat} {new : List Char}
    (h : b.splice start stop new = .ok b') : ∃ cs, b' = b.withChars cs := by
  unfold splice at h
  split at h
  · next cs _ => exact ⟨cs, (Except.ok.inj h).symm⟩
  · cases h

/-- A change that is accepted gives another text one generation on, or another path, or nothing
new. -/
theorem apply_eq_ok {b b' : Buffer} {change : Change} {offset : Option Nat}
    (h : b.apply change = .ok (b', offset)) :
    (∃ cs, change.path? = none ∧ b' = b.withChars cs) ∨
      (∃ path, change.path? = some path ∧ b' = { b with path := path }) ∨
      (change.path? = none ∧ b' = b) := by
  -- each change of the text first checks whether it is allowed
  cases change with
  | setText text =>
    obtain ⟨-, -, h⟩ := bind_eq_ok h
    obtain ⟨rfl, -⟩ := Prod.mk.inj (Except.ok.inj h)
    exact Or.inl ⟨_, rfl, rfl⟩
  | insert at_ text =>
    obtain ⟨-, -, h⟩ := bind_eq_ok h
    obtain ⟨-, -, h⟩ := bind_eq_ok h
    obtain ⟨b₁, hb, h⟩ := bind_eq_ok h
    obtain ⟨rfl, -⟩ := Prod.mk.inj (Except.ok.inj h)
    obtain ⟨cs, hcs⟩ := splice_eq_ok hb
    exact Or.inl ⟨cs, rfl, hcs⟩
  | delete start stop =>
    obtain ⟨-, -, h⟩ := bind_eq_ok h
    obtain ⟨-, -, h⟩ := bind_eq_ok h
    obtain ⟨-, -, h⟩ := bind_eq_ok h
    obtain ⟨b₁, hb, h⟩ := bind_eq_ok h
    obtain ⟨rfl, -⟩ := Prod.mk.inj (Except.ok.inj h)
    obtain ⟨cs, hcs⟩ := splice_eq_ok hb
    exact Or.inl ⟨cs, rfl, hcs⟩
  | complete at_ label =>
    obtain ⟨-, -, h⟩ := bind_eq_ok h
    obtain ⟨-, -, h⟩ := bind_eq_ok h
    obtain ⟨b₁, hb, h⟩ := bind_eq_ok h
    obtain ⟨rfl, -⟩ := Prod.mk.inj (Except.ok.inj h)
    obtain ⟨cs, hcs⟩ := splice_eq_ok hb
    exact Or.inl ⟨cs, rfl, hcs⟩
  | setPath path =>
    obtain ⟨rfl, -⟩ := Prod.mk.inj (Except.ok.inj h)
    exact Or.inr (Or.inl ⟨path, rfl, rfl⟩)
  | nothing =>
    obtain ⟨rfl, -⟩ := Prod.mk.inj (Except.ok.inj h)
    exact Or.inr (Or.inr ⟨rfl, rfl⟩)

theorem path_of_apply {b b' : Buffer} {change : Change} {offset : Option Nat}
    (h : b.apply change = .ok (b', offset)) : b'.path = change.path?.getD b.path := by
  rcases apply_eq_ok h with ⟨cs, hpath, rfl⟩ | ⟨path, hpath, rfl⟩ | ⟨hpath, rfl⟩
  · rw [hpath]
    rfl
  · rw [hpath]
    rfl
  · rw [hpath]
    rfl

/-! ### Two moments of one buffer -/

/-- Whether the second may be a later moment of the first: the generation counts the changes of the
text. -/
structure Follows (b b' : Buffer) : Prop where
  generation_le : b.generation ≤ b'.generation
  text_eq : b'.generation = b.generation → b'.text = b.text

theorem Follows.refl (b : Buffer) : Follows b b := ⟨Nat.le_refl _, fun _ => rfl⟩

theorem Follows.trans {b b' b'' : Buffer} (h : Follows b b') (h' : Follows b' b'') :
    Follows b b'' := by
  have hle := h.generation_le
  have hle' := h'.generation_le
  refine ⟨Nat.le_trans hle hle', fun heq => ?_⟩
  -- the generation did not move in between either
  exact (h'.text_eq (by omega)).trans (h.text_eq (by omega))

theorem follows_of_apply {b b' : Buffer} {change : Change} {offset : Option Nat}
    (h : b.apply change = .ok (b', offset)) : Follows b b' := by
  rcases apply_eq_ok h with ⟨cs, -, rfl⟩ | ⟨path, -, rfl⟩ | ⟨-, rfl⟩
  · -- the generation moved, so nothing is claimed of the text
    exact ⟨Nat.le_succ _, fun heq => absurd heq (Nat.succ_ne_self _)⟩
  · exact ⟨Nat.le_refl _, fun _ => rfl⟩
  · exact Follows.refl b'

end Buffer

end EditorInsight
