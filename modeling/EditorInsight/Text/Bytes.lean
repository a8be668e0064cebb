/-!
# Byte offsets into a text

Offsets, columns and lengths are counted in the bytes of the UTF-8 form, while a text is a sequence
of characters. The two meet in one operation: cutting a sequence of characters at a byte offset,
which is possible exactly where a character starts or the text ends.

* `width` is the number of bytes; `width_append`.
* `cutAt?` cuts at an offset; `cutAt?_append` and `eq_append_of_cutAt?` say that the cuts are
  exactly the ways to write the text as two parts, found by the width of the first.
* `slice?` takes the characters between two offsets; `splice?` replaces them.
-/

namespace EditorInsight.Text

/-- The number of bytes of the UTF-8 form. -/
def width : List Char → Nat
  | [] => 0
  | c :: cs => c.utf8Size + width cs

@[simp] theorem width_nil : width [] = 0 := rfl

@[simp] theorem width_cons (c : Char) (cs : List Char) :
    width (c :: cs) = c.utf8Size + width cs := rfl

@[simp] theorem width_append (cs ds : List Char) : width (cs ++ ds) = width cs + width ds := by
  induction cs with
  | nil => simp
  | cons c cs ih => simp [ih]; omega

/-- The number of bytes of the UTF-8 form of a text. -/
def byteLength (s : String) : Nat := width s.toList

/-- Cuts at a byte offset: the characters before it and those from it on. There is no cut inside a
character or past the end. -/
def cutAt? : List Char → Nat → Option (List Char × List Char)
  | cs, 0 => some ([], cs)
  | [], _ + 1 => none
  | c :: cs, offset + 1 =>
    if c.utf8Size ≤ offset + 1 then
      (cutAt? cs (offset + 1 - c.utf8Size)).map fun (before, after) => (c :: before, after)
    else none

@[simp] theorem cutAt?_zero (cs : List Char) : cutAt? cs 0 = some ([], cs) := by
  cases cs <;> rfl

/-- Every way to write a text as two parts is the cut at the width of the first part. -/
theorem cutAt?_append (before after : List Char) :
    cutAt? (before ++ after) (width before) = some (before, after) := by
  induction before with
  | nil => simp
  | cons c cs ih =>
    have hc := c.utf8Size_pos
    obtain ⟨k, hk⟩ : ∃ k, width (c :: cs) = k + 1 := ⟨c.utf8Size + width cs - 1, by simp; omega⟩
    have hle : c.utf8Size ≤ k + 1 := by simp at hk; omega
    have hrest : k + 1 - c.utf8Size = width cs := by simp at hk; omega
    rw [hk, List.cons_append, cutAt?, if_pos hle, hrest, ih]
    rfl

/-- A cut at an offset writes the text as two parts, of which the first is as wide as the
offset. -/
theorem eq_append_of_cutAt? {cs before after : List Char} {offset : Nat}
    (h : cutAt? cs offset = some (before, after)) :
    cs = before ++ after ∧ width before = offset := by
  fun_induction cutAt? cs offset generalizing before after with
  | case1 cs =>
    obtain ⟨rfl, rfl⟩ := Prod.mk.inj (Option.some.inj h)
    exact ⟨rfl, rfl⟩
  | case2 => cases h
  | case3 c cs offset hle ih =>
    -- the first character is before the cut
    obtain ⟨⟨b, a⟩, hcut, heq⟩ := Option.map_eq_some_iff.mp h
    obtain ⟨hcs, hw⟩ := ih hcut
    obtain ⟨rfl, rfl⟩ := Prod.mk.inj heq
    refine ⟨by simp [hcs], ?_⟩
    simp [hw]
    omega
  | case4 => cases h

/-- Whether an offset is a character boundary of a text: a character starts there, or it is the
end. -/
def isBoundary (cs : List Char) (offset : Nat) : Bool :=
  (cutAt? cs offset).isSome

/-- The characters between two offsets, if these are boundaries in order. -/
def slice? (cs : List Char) (start stop : Nat) : Option (List Char) := do
  let (upTo, _) ← cutAt? cs stop
  let (_, between) ← cutAt? upTo start
  return between

/-- Replaces the characters between two offsets, if these are boundaries in order. -/
def splice? (cs : List Char) (start stop : Nat) (new : List Char) : Option (List Char) := do
  let (upTo, after) ← cutAt? cs stop
  let (before, _) ← cutAt? upTo start
  return before ++ new ++ after

end EditorInsight.Text
