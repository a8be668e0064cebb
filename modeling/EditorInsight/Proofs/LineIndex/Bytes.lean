import EditorInsight.LineIndex

/-!
# Lines in the UTF-8 form

A line index is built from the characters of a text. What is found there can be read off the bytes of
the text as well, since a newline is the one byte 10 and this byte is in the form of no other
character: the lines are the parts between these bytes.

* `LineIndex.ofBytes` is the index of a row of bytes, which need not be a text.
* `LineIndex.ofText_eq_ofBytes`: the index of a text is that of its bytes.
* `LineIndex.lineCount_ofBytes` and `LineIndex.lineSpan_ofBytes` say how many lines there are, and
  where a line starts and ends, by splitting the bytes.
-/

namespace EditorInsight

/-- The byte of a newline. -/
def newlineByte : UInt8 := 10

/-- The offsets behind each newline byte, for bytes that begin at the given offset. -/
def offsetsBehindNewlineBytes : Nat → List UInt8 → List Nat
  | _, [] => []
  | offset, b :: bs =>
    if b = newlineByte then (offset + 1) :: offsetsBehindNewlineBytes (offset + 1) bs
    else offsetsBehindNewlineBytes (offset + 1) bs

/-- The bytes of the UTF-8 form of a text. -/
def Text.bytes (text : String) : List UInt8 := text.toUTF8.data.toList

/-! ### The bytes of a character -/

theorem utf8EncodeChar_newline : String.utf8EncodeChar '\n' = [newlineByte] := by decide

theorem eq_newline_of_mem_utf8EncodeChar {c : Char} (h : newlineByte ∈ String.utf8EncodeChar c) :
    c = '\n' := by
  -- the bytes of a longer form are all at least 128
  have hlarge : ∀ n k : Nat, n < 64 → 128 ≤ k → n + k < 256 →
      newlineByte ≠ UInt8.ofNat (n + k) := by
    intro n k hn hk hlt heq
    have hnat : newlineByte.toNat = (UInt8.ofNat (n + k)).toNat := congrArg UInt8.toNat heq
    rw [UInt8.toNat_ofNat', Nat.mod_eq_of_lt hlt] at hnat
    have hten : newlineByte.toNat = 10 := rfl
    omega
  unfold String.utf8EncodeChar at h
  simp only at h
  split at h
  · next hshort =>
    have hbyte : newlineByte = UInt8.ofNat c.val.toNat := List.mem_singleton.mp h
    have hnat : newlineByte.toNat = (UInt8.ofNat c.val.toNat).toNat := congrArg UInt8.toNat hbyte
    rw [UInt8.toNat_ofNat', Nat.mod_eq_of_lt (by omega)] at hnat
    refine Char.ext (UInt32.toNat_inj.mp ?_)
    exact hnat.symm
  · exfalso
    split at h
    · simp only [List.mem_cons, List.not_mem_nil, or_false] at h
      rcases h with h | h <;> exact hlarge _ _ (by omega) (by omega) (by omega) h
    · split at h
      · simp only [List.mem_cons, List.not_mem_nil, or_false] at h
        rcases h with h | h | h <;> exact hlarge _ _ (by omega) (by omega) (by omega) h
      · simp only [List.mem_cons, List.not_mem_nil, or_false] at h
        rcases h with h | h | h | h <;> exact hlarge _ _ (by omega) (by omega) (by omega) h

/-! ### From characters to bytes -/

theorem offsetsBehindNewlineBytes_append {bs : List UInt8} (h : newlineByte ∉ bs) (k : Nat)
    (rest : List UInt8) : offsetsBehindNewlineBytes k (bs ++ rest)
      = offsetsBehindNewlineBytes (k + bs.length) rest := by
  induction bs generalizing k with
  | nil => rfl
  | cons b bs ih =>
    rw [List.mem_cons, not_or] at h
    rw [List.cons_append, offsetsBehindNewlineBytes, if_neg (Ne.symm h.1), ih h.2, List.length_cons,
      Nat.add_assoc, Nat.add_comm 1]

theorem offsetsBehindNewlines_eq (k : Nat) (cs : List Char) :
    offsetsBehindNewlines k cs
      = offsetsBehindNewlineBytes k (cs.flatMap String.utf8EncodeChar) := by
  induction cs generalizing k with
  | nil => rfl
  | cons c cs ih =>
    rw [offsetsBehindNewlines, List.flatMap_cons]
    by_cases hc : c = '\n'
    · subst hc
      rw [if_pos rfl, ih, utf8EncodeChar_newline, List.singleton_append, offsetsBehindNewlineBytes,
        if_pos rfl]
      rfl
    · have hnot : newlineByte ∉ String.utf8EncodeChar c :=
        fun h => hc (eq_newline_of_mem_utf8EncodeChar h)
      rw [if_neg hc, ih, offsetsBehindNewlineBytes_append hnot, String.length_utf8EncodeChar]

theorem width_eq_length (cs : List Char) :
    Text.width cs = (cs.flatMap String.utf8EncodeChar).length := by
  induction cs with
  | nil => rfl
  | cons c cs ih =>
    rw [Text.width_cons, List.flatMap_cons, List.length_append, String.length_utf8EncodeChar, ih]

theorem Text.bytes_eq (text : String) :
    Text.bytes text = text.toList.flatMap String.utf8EncodeChar := by
  have h : text.toList.utf8Encode = text.toByteArray := String.utf8Encode_toList
  have hbytes : text.toByteArray = (text.toList.flatMap String.utf8EncodeChar).toByteArray :=
    h.symm
  rw [Text.bytes]
  change text.toByteArray.data.toList = _
  rw [hbytes, List.toList_data_toByteArray]

namespace LineIndex

/-- The index of a row of bytes. -/
def ofBytes (bs : List UInt8) : LineIndex := ⟨0 :: offsetsBehindNewlineBytes 0 bs, bs.length⟩

/-- **The index of a text is that of its bytes.** -/
theorem ofText_eq_ofBytes (text : String) : ofText text = ofBytes (Text.bytes text) := by
  rw [ofText, ofChars, ofBytes, Text.bytes_eq, offsetsBehindNewlines_eq, width_eq_length]

/-! ### Lines as parts of the bytes -/

theorem length_offsetsBehindNewlineBytes (k : Nat) (bs : List UInt8) :
    (offsetsBehindNewlineBytes k bs).length = bs.count newlineByte := by
  induction bs generalizing k with
  | nil => rfl
  | cons b bs ih =>
    rw [offsetsBehindNewlineBytes, List.count_cons]
    by_cases hb : b = newlineByte
    · rw [if_pos hb, if_pos (beq_iff_eq.mpr hb), List.length_cons, ih]
    · rw [if_neg hb, if_neg (by simpa using hb), ih, Nat.add_zero]

/-- There is one line more than there are newlines. -/
theorem lineCount_ofBytes (bs : List UInt8) :
    (ofBytes bs).lineCount = 1 + bs.count newlineByte := by
  rw [lineCount, ofBytes, List.length_cons, length_offsetsBehindNewlineBytes, Nat.add_comm]

/-- The parts between newlines, and where they start and end if the bytes begin at the given
offset. -/
theorem span_splitOn (k : Nat) (bs : List UInt8) {i : Nat} {part : List UInt8}
    (h : (bs.splitOn newlineByte)[i]? = some part) :
    ∃ start, (k :: offsetsBehindNewlineBytes k bs)[i]? = some start ∧
      ((k :: offsetsBehindNewlineBytes k bs)[i + 1]?.map (· - 1)).getD (k + bs.length)
        = start + part.length := by
  -- by induction on the bytes, where the offset moves on with each of them
  induction bs generalizing k i part with
  | nil =>
    -- no bytes are one part without any, at the offset
    rw [List.splitOn_nil] at h
    obtain ⟨rfl, rfl⟩ : i = 0 ∧ part = [] := by
      cases i with
      | zero => exact ⟨rfl, (Option.some.inj h).symm⟩
      | succ i => cases h
    exact ⟨k, rfl, rfl⟩
  | cons b bs ih =>
    rw [List.splitOn_cons_eq_if_modifyHead] at h
    have hlength : k + (b :: bs).length = k + 1 + bs.length := by
      rw [List.length_cons]
      omega
    rw [offsetsBehindNewlineBytes, hlength]
    by_cases hb : b = newlineByte
    · -- the first part is empty, and the others are those of the rest
      rw [if_pos (beq_iff_eq.mpr hb)] at h
      rw [if_pos hb]
      cases i with
      | zero =>
        obtain rfl := Option.some.inj h
        exact ⟨k, rfl, rfl⟩
      | succ i => exact ih (k + 1) h
    · -- the first part is one byte longer than that of the rest
      rw [if_neg (by simpa using hb)] at h
      rw [if_neg hb]
      obtain ⟨first, parts, hparts⟩ :=
        List.exists_cons_of_ne_nil (List.splitOn_ne_nil newlineByte bs)
      rw [hparts, List.modifyHead_cons] at h
      cases i with
      | zero =>
        -- it starts one byte earlier and stops in the same place
        obtain rfl := Option.some.inj h
        have hfirst : (bs.splitOn newlineByte)[0]? = some first := by rw [hparts]; rfl
        obtain ⟨start, hstart, hend⟩ := ih (k + 1) hfirst
        obtain rfl : k + 1 = start := Option.some.inj hstart
        refine ⟨k, rfl, hend.trans ?_⟩
        rw [List.length_cons]
        omega
      | succ i =>
        -- the other parts are those of the rest
        have hpart : (bs.splitOn newlineByte)[i + 1]? = some part := by
          rw [hparts]
          exact h
        exact ih (k + 1) hpart

/-- **Where a line is.** The parts between the newline bytes are the lines: a line ends its length
behind its start. -/
theorem lineSpan_ofBytes {bs : List UInt8} {i : Nat} {part : List UInt8}
    (h : (bs.splitOn newlineByte)[i]? = some part) :
    ∃ start, (ofBytes bs).lineStart? (i + 1) = some start ∧
      (ofBytes bs).lineEnd (i + 1) = start + part.length := by
  obtain ⟨start, hstart, hend⟩ := span_splitOn 0 bs h
  refine ⟨start, ?_, ?_⟩
  · rw [lineStart?, if_neg (Nat.succ_ne_zero i)]
    exact hstart
  · have hline : (ofBytes bs).lineEnd (i + 1)
        = ((ofBytes bs).starts[i + 1]?.map (· - 1)).getD bs.length := by
      unfold lineEnd
      cases (ofBytes bs).starts[i + 1]? <;> rfl
    rw [hline, ← hend, Nat.zero_add]
    rfl

end LineIndex

end EditorInsight
