import EditorInsight.Json.Number

/-!
# Arithmetic of machine words

Offsets and columns are machine words. A sum that is too large for a word, or a difference that is
negative, has no right result, and what happens then depends on how the program was built: with
checks it stops, without them it goes on with the result cut to a word.

* `Arithmetic` is the kind of build.
* `Arithmetic.add?` and `Arithmetic.sub?` are the two operations; `Arithmetic.add?_eq` and
  `Arithmetic.sub?_eq` say that a result that is a word is the right one in every build.
* `Arithmetic.Settled` says of a computation that the build decides about nothing but whether it stops.
  Every computation that is put together from the two operations is of this kind.
-/

namespace EditorInsight

open Json (wordSize)

/-- What a build does about a result that is no word. -/
inductive Arithmetic where
  /-- The program stops. -/
  | checked
  /-- The result is cut to a word. -/
  | wrapping
deriving DecidableEq, Repr

namespace Arithmetic

/-- The sum of two words; none if the program stops at it. -/
def add? (m : Arithmetic) (a b : Nat) : Option Nat :=
  if a + b < wordSize then some (a + b)
  else
    match m with
    | checked => none
    | wrapping => some (a + b - wordSize)

/-- The difference of two words; none if the program stops at it. -/
def sub? (m : Arithmetic) (a b : Nat) : Option Nat :=
  if b ≤ a then some (a - b)
  else
    match m with
    | checked => none
    | wrapping => some (a + wordSize - b)

variable {m : Arithmetic} {a b : Nat}

theorem add?_eq (h : a + b < wordSize) : m.add? a b = some (a + b) := if_pos h

theorem sub?_eq (h : b ≤ a) : m.sub? a b = some (a - b) := if_pos h

theorem checked_add?_eq_none (h : wordSize ≤ a + b) : checked.add? a b = none :=
  if_neg (Nat.not_lt.mpr h)

theorem wrapping_add?_eq (h : wordSize ≤ a + b) : wrapping.add? a b = some (a + b - wordSize) :=
  if_neg (Nat.not_lt.mpr h)

/-- What was added and is taken off again leaves no more than there was. -/
theorem le_of_add?_of_sub? {c d : Nat} (hadd : m.add? a b = some c) (hsub : m.sub? c b = some d) :
    d ≤ a := by
  have hsum : c = a + b ∨ c + wordSize = a + b := by
    unfold add? at hadd
    split at hadd
    · exact Or.inl (Option.some.inj hadd).symm
    · next hlarge =>
      cases m with
      | checked => cases hadd
      | wrapping =>
        have hcut := Option.some.inj hadd
        omega
  unfold sub? at hsub
  split at hsub
  · have hdifference := Option.some.inj hsub
    omega
  · cases m with
    | checked => cases hsub
    | wrapping =>
      -- the sum was cut, so the word that is lacking is the one that was cut off
      have hcut := Option.some.inj hsub
      omega

/-! ### Computations in any build -/

/-- Whether a computation has one outcome in all builds, except that the build with checks may stop. -/
structure Settled {α : Type} (f : Arithmetic → Option α) : Prop where
  /-- Without checks there is an outcome. -/
  isSome : (f wrapping).isSome = true
  /-- An outcome with checks is the outcome without them. -/
  agrees : ∀ x, f checked = some x → f wrapping = some x

namespace Settled

variable {α β : Type} {f : Arithmetic → Option α} {g : Arithmetic → α → Option β} {x : α}

theorem wrapping_eq (h : Settled f) (hx : f m = some x) : f wrapping = some x := by
  cases m with
  | checked => exact h.agrees x hx
  | wrapping => exact hx

theorem const (x : α) : Settled fun _ => some x := ⟨rfl, fun _ hx => hx⟩

theorem add (a b : Nat) : Settled (·.add? a b) where
  isSome := by
    unfold add?
    split <;> rfl
  agrees := by
    intro x hx
    unfold add? at hx ⊢
    split at hx
    · next hfits => rwa [if_pos hfits]
    · cases hx

theorem sub (a b : Nat) : Settled (·.sub? a b) where
  isSome := by
    unfold sub?
    split <;> rfl
  agrees := by
    intro x hx
    unfold sub? at hx ⊢
    split at hx
    · next hle => rwa [if_pos hle]
    · cases hx

/-- One computation after the other. -/
theorem bind (hf : Settled f) (hg : ∀ x, Settled (g · x)) : Settled fun m => f m >>= g m where
  isSome := by
    obtain ⟨x, hx⟩ := Option.isSome_iff_exists.mp hf.isSome
    rw [hx]
    exact (hg x).isSome
  agrees := by
    intro y hy
    obtain ⟨x, hx, hy⟩ := Option.bind_eq_some_iff.mp hy
    rw [hf.agrees x hx]
    exact (hg x).agrees y hy

theorem mapM {xs : List β} {g : Arithmetic → β → Option α} (hg : ∀ x, Settled (g · x)) :
    Settled fun m => xs.mapM (g m) := by
  induction xs with
  | nil => exact const []
  | cons x xs ih =>
    simp only [List.mapM_cons]
    exact (hg x).bind fun y => ih.bind fun ys => const (y :: ys)

theorem filterMapM {xs : List β} {g : Arithmetic → β → Option (Option α)}
    (hg : ∀ x, Settled (g · x)) : Settled fun m => xs.filterMapM (g m) := by
  induction xs with
  | nil => exact const []
  | cons x xs ih =>
    simp only [List.filterMapM_cons]
    refine (hg x).bind fun y? => ?_
    cases y? with
    | none => exact ih
    | some y => exact ih.bind fun ys => const (y :: ys)

end Settled

end Arithmetic

end EditorInsight
