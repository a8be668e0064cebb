import EditorInsight.Proofs.Json.Parse
import EditorInsight.Proofs.Json.Print
import EditorInsight.Proofs.Json.Record
import Mathlib.Data.List.Forall2

/-!
# Writing and reading as one

A type of documents has a writer and a reader, which are defined apart from each other. A codec puts
the two together with all the forms that the reader takes for a value, and with the laws that tie
them: whatever has one of these forms is read as the value, and what was read can be written.

* `Codec` has the laws. `Codec.decode?_encode` and `Codec.decode?_of_isText` carry them over to texts.
* `Codec.word`, `Codec.text`, `Codec.bool`, `Codec.list` and `Codec.choice` are those of plain values.
* `Codec.IsObject` is for values that are written as objects. `Codec.Says`, `Codec.SaysOptional` and
  `Codec.SaysOr` are the three conventions for the member that an object has for a field, with what is
  read of it and what can be read of any field at all.
-/

namespace EditorInsight.Json

/-! ### Members by name -/

namespace Value

/-- The values of the members of a name, in their order. -/
def valuesOf (name : String) (ms : List (String × Value)) : List Value :=
  (ms.filter (·.1 == name)).map (·.2)

/-- What an object that does not repeat the name has for a field. -/
def found (name : String) (ms : List (String × Value)) : Field :=
  match valuesOf name ms with
  | [] => .missing
  | v :: _ => .present v

@[simp] theorem valuesOf_nil (name : String) : valuesOf name [] = [] := rfl

@[simp] theorem valuesOf_cons (name k : String) (v : Value) (ms : List (String × Value)) :
    valuesOf name ((k, v) :: ms) = if k = name then v :: valuesOf name ms else valuesOf name ms := by
  unfold valuesOf
  by_cases hk : k = name <;> simp [hk]

@[simp] theorem valuesOf_append (name : String) (ms ns : List (String × Value)) :
    valuesOf name (ms ++ ns) = valuesOf name ms ++ valuesOf name ns := by
  unfold valuesOf
  rw [List.filter_append, List.map_append]

theorem found_eq (name : String) (ms : List (String × Value)) :
    found name ms = (member? name ms).elim .missing .present := by
  induction ms with
  | nil => rfl
  | cons m ms ih =>
    obtain ⟨k, v⟩ := m
    unfold found member? at ih ⊢
    rw [valuesOf_cons]
    by_cases hk : k = name
    · simp [hk]
    · rw [if_neg hk, ih, List.find?_cons_of_neg (by simpa using hk)]

/-- The order of the members and the members of other names do not matter. -/
theorem fields?_object {names : List String} {ms : List (String × Value)}
    (h : ∀ name ∈ names, (valuesOf name ms).length ≤ 1) :
    fields? names (.object ms) = some (names.map (found · ms)) := by
  have honce : names.any (isRepeated · ms) = false := by
    refine List.any_eq_false.mpr fun name hname => ?_
    have hlength := h name hname
    rw [valuesOf, List.length_map] at hlength
    simpa [isRepeated] using hlength
  rw [fields?, honce, if_neg Bool.false_ne_true]
  exact congrArg some (List.map_congr_left fun name _ => (found_eq name ms).symm)

@[simp] theorem isWritable_string (s : String) : (string s).isWritable = true := rfl

theorem isWritable_object {ms : List (String × Value)} :
    (object ms).isWritable = true ↔ ∀ m ∈ ms, m.2.isWritable = true := by
  rw [isWritable]
  induction ms with
  | nil => exact iff_of_true rfl fun m hm => absurd hm List.not_mem_nil
  | cons m ms ih => rw [membersWritable, Bool.and_eq_true, ih, List.forall_mem_cons]

theorem isWritable_option {α : Type} {write : α → Value} {a : Option α}
    (h : ∀ x ∈ a, (write x).isWritable = true) : (option write a).isWritable = true := by
  cases a with
  | none => rfl
  | some x => exact h x rfl

end Value

/-! ### Codecs -/

/-- A writer and a reader, with the laws that tie them. -/
structure Codec (α : Type) where
  /-- The written form. -/
  toJson : α → Value
  /-- Reads a value. -/
  ofJson? : Value → Option α
  /-- Whether the numbers in it are those of the type: each fits a machine word. -/
  Fits : α → Prop
  /-- What a value may be written as. -/
  Writes : α → Value → Prop
  writes_toJson (a : α) : Writes a (toJson a)
  isWritable_toJson {a : α} : Fits a → (toJson a).isWritable = true
  ofJson?_of_writes {a : α} {v : Value} : Fits a → Writes a v → ofJson? v = some a
  fits_of_ofJson? {a : α} {v : Value} : ofJson? v = some a → Fits a
  /-- What stands for a missing value stands for nothing else. -/
  ofJson?_null : ofJson? .null = none

namespace Codec

variable {α : Type} (c : Codec α)

/-! ### Texts -/

/-- The text written for a value. -/
def encode (a : α) : String := render (c.toJson a)

/-- Reads a text. -/
def decode? (text : String) : Option α := (parse? text).bind c.ofJson?

variable {c}

theorem decode?_of_isText {a : α} {v : Value} {text : String} (hfits : c.Fits a)
    (hv : c.Writes a v) (htext : IsText text v) : c.decode? text = some a := by
  rw [decode?, parse?_eq_some_iff.mpr htext]
  exact c.ofJson?_of_writes hfits hv

/-- The text that is written is one of the texts that may be. -/
theorem decode?_encode {a : α} (hfits : c.Fits a) : c.decode? (c.encode a) = some a :=
  decode?_of_isText hfits (c.writes_toJson a) (isText_render (c.isWritable_toJson hfits))

theorem fits_of_decode? {a : α} {text : String} (h : c.decode? text = some a) : c.Fits a := by
  obtain ⟨v, -, hv⟩ := Option.bind_eq_some_iff.mp h
  exact c.fits_of_ofJson? hv

/-! ### Plain values -/

/-- Numbers of a machine word. -/
def word : Codec Nat where
  toJson := .nat
  ofJson? := Value.word?
  Fits n := n < wordSize
  Writes n v := v = .nat n
  writes_toJson _ := rfl
  isWritable_toJson h := Value.isWritable_nat h
  ofJson?_of_writes hfits hv := Value.word?_eq_some_iff.mpr ⟨hv, hfits⟩
  fits_of_ofJson? h := (Value.word?_eq_some_iff.mp h).2
  ofJson?_null := rfl

/-- Strings. -/
def text : Codec String where
  toJson := .string
  ofJson? := Value.text?
  Fits _ := True
  Writes s v := v = .string s
  writes_toJson _ := rfl
  isWritable_toJson _ := rfl
  ofJson?_of_writes _ hv := Value.text?_eq_some_iff.mpr hv
  fits_of_ofJson? _ := trivial
  ofJson?_null := rfl

/-- Truth values. -/
def bool : Codec Bool where
  toJson := .bool
  ofJson? := Value.bool?
  Fits _ := True
  Writes b v := v = .bool b
  writes_toJson _ := rfl
  isWritable_toJson _ := rfl
  ofJson?_of_writes _ hv := hv ▸ rfl
  fits_of_ofJson? _ := trivial
  ofJson?_null := rfl

@[simp] theorem word_toJson : word.toJson = .nat := rfl

@[simp] theorem text_toJson : text.toJson = .string := rfl

@[simp] theorem bool_toJson : bool.toJson = .bool := rfl

theorem mapM_of_forall₂ {as : List α} {vs : List Value} (hfits : ∀ a ∈ as, c.Fits a)
    (h : List.Forall₂ c.Writes as vs) : vs.mapM c.ofJson? = some as := by
  induction h with
  | nil => rfl
  | cons hv _ ih =>
    obtain ⟨ha, has⟩ := List.forall_mem_cons.mp hfits
    rw [List.mapM_cons, c.ofJson?_of_writes ha hv, ih has]
    rfl

theorem fits_of_mapM {as : List α} {vs : List Value} (h : vs.mapM c.ofJson? = some as) :
    ∀ a ∈ as, c.Fits a := by
  induction vs generalizing as with
  | nil =>
    cases h
    exact fun a ha => nomatch ha
  | cons v vs ih =>
    -- the first item is read, and then the others
    rw [List.mapM_cons] at h
    obtain ⟨a, ha, h⟩ := Option.bind_eq_some_iff.mp h
    obtain ⟨as, has, h⟩ := Option.bind_eq_some_iff.mp h
    cases h
    exact List.forall_mem_cons.mpr ⟨c.fits_of_ofJson? ha, ih has⟩

/-- Lists, item by item. -/
def list (c : Codec α) : Codec (List α) where
  toJson as := .array (as.map c.toJson)
  ofJson? := Value.list? c.ofJson?
  Fits as := ∀ a ∈ as, c.Fits a
  Writes as v := ∃ vs, v = .array vs ∧ List.Forall₂ c.Writes as vs
  writes_toJson as := by
    refine ⟨_, rfl, List.forall₂_map_right_iff.mpr ?_⟩
    exact List.forall₂_same.mpr fun a _ => c.writes_toJson a
  isWritable_toJson hfits := by
    refine Value.allWritable_iff.mpr (List.forall_mem_map.mpr fun a ha => ?_)
    exact c.isWritable_toJson (hfits a ha)
  ofJson?_of_writes := by
    rintro as v hfits ⟨vs, rfl, hvs⟩
    exact mapM_of_forall₂ hfits hvs
  fits_of_ofJson? {as v} h := by
    cases v with
    | array vs => exact fits_of_mapM h
    | _ => cases h
  ofJson?_null := rfl

@[simp] theorem list_toJson (as : List α) : c.list.toJson as = .array (as.map c.toJson) := rfl

/-- One of finitely many names, as a string or as the only member of an object. -/
def choice (names : List (String × α)) (name : α → String)
    (hnames : ∀ a, names.lookup (name a) = some a) : Codec α where
  toJson a := .string (name a)
  ofJson? v := v.choice? names
  Fits _ := True
  Writes a v := v = .string (name a) ∨ v = .object [(name a, .null)]
  writes_toJson _ := Or.inl rfl
  isWritable_toJson _ := rfl
  ofJson?_of_writes {a v} _ hv := by
    rcases hv with rfl | rfl
    · exact hnames a
    · exact hnames a
  fits_of_ofJson? _ := trivial
  ofJson?_null := rfl

/-! ### Objects -/

/-- Values that are written as an object, by what their members have to be. -/
def IsObject (Members : α → List (String × Value) → Prop) (a : α) (v : Value) : Prop :=
  ∃ ms, v = .object ms ∧ Members a ms

theorem IsObject.read {Members : α → List (String × Value) → Prop} {read : Value → Option α} {a : α}
    {v : Value} (h : IsObject Members a v)
    (hread : ∀ ms, Members a ms → read (.object ms) = some a) : read v = some a := by
  obtain ⟨ms, rfl, hms⟩ := h
  exact hread ms hms

/-! ### Members

Three conventions for the member of a field: it has to be there; it may be missing or `null` for a
missing value; it may be missing for the default. -/

variable (c)

/-- The object has one member of the name, and it holds the value. -/
def Says (name : String) (ms : List (String × Value)) (a : α) : Prop :=
  ∃ v, Value.valuesOf name ms = [v] ∧ c.Writes a v

/-- A value that may be missing, and then the member is left out or `null`. -/
def SaysOptional (name : String) (ms : List (String × Value)) : Option α → Prop
  | none => Value.valuesOf name ms = [] ∨ Value.valuesOf name ms = [.null]
  | some a => c.Says name ms a

/-- A value whose member may be left out if it is the default. -/
def SaysOr (default : α) (name : String) (ms : List (String × Value)) (a : α) : Prop :=
  c.Says name ms a ∨ (a = default ∧ Value.valuesOf name ms = [])

section Members

variable {c} {name : String} {ms : List (String × Value)}

/-- A member that is written says the value. -/
theorem says_of_valuesOf {a : α} (h : Value.valuesOf name ms = [c.toJson a]) : c.Says name ms a :=
  ⟨_, h, c.writes_toJson a⟩

/-- So does a missing value that is written as `null`, -/
theorem saysOptional_of_valuesOf {a : Option α}
    (h : Value.valuesOf name ms = [Value.option c.toJson a]) : c.SaysOptional name ms a := by
  cases a with
  | none => exact Or.inr h
  | some a => exact says_of_valuesOf h

/-- and one that is left out. -/
theorem saysOptional_of_omitted {a : Option α}
    (h : Value.valuesOf name ms = (a.map c.toJson).toList) : c.SaysOptional name ms a := by
  cases a with
  | none => exact Or.inl h
  | some a => exact says_of_valuesOf h

theorem Says.once {a : α} (h : c.Says name ms a) : (Value.valuesOf name ms).length ≤ 1 := by
  obtain ⟨v, hvalues, -⟩ := h
  rw [hvalues]
  exact Nat.le_refl 1

theorem SaysOptional.once {a : Option α} (h : c.SaysOptional name ms a) :
    (Value.valuesOf name ms).length ≤ 1 := by
  cases a with
  | some a => exact Says.once h
  | none =>
    rcases h with hvalues | hvalues
    · rw [hvalues]
      exact Nat.zero_le 1
    · rw [hvalues]
      exact Nat.le_refl 1

theorem SaysOr.once {default a : α} (h : c.SaysOr default name ms a) :
    (Value.valuesOf name ms).length ≤ 1 := by
  rcases h with h | ⟨-, hvalues⟩
  · exact h.once
  · rw [hvalues]
    exact Nat.zero_le 1

theorem nullable?_of_writes {a : α} {v : Value} (hfits : c.Fits a) (hv : c.Writes a v) :
    v.nullable? c.ofJson? = some (some a) := by
  have hread := c.ofJson?_of_writes hfits hv
  cases v with
  | null =>
    -- `null` is no value of the type, so it cannot have been written for one
    rw [c.ofJson?_null] at hread
    cases hread
  | _ => exact congrArg (Option.map some) hread

theorem Says.required {a : α} (h : c.Says name ms a) (hfits : c.Fits a) :
    (Value.found name ms).required c.ofJson? = some a := by
  obtain ⟨v, hvalues, hv⟩ := h
  rw [Value.found, hvalues]
  exact c.ofJson?_of_writes hfits hv

theorem SaysOptional.optional {a : Option α} (h : c.SaysOptional name ms a)
    (hfits : ∀ x ∈ a, c.Fits x) : (Value.found name ms).optional c.ofJson? = some a := by
  cases a with
  | some a =>
    obtain ⟨v, hvalues, hv⟩ := h
    rw [Value.found, hvalues]
    exact nullable?_of_writes (hfits a rfl) hv
  | none =>
    rcases h with hvalues | hvalues
    · rw [Value.found, hvalues]
      rfl
    · rw [Value.found, hvalues]
      rfl

/-- An object does not tell the two readings of an optional field apart. -/
theorem SaysOptional.withDefault {a : Option α} (h : c.SaysOptional name ms a)
    (hfits : ∀ x ∈ a, c.Fits x) :
    (Value.found name ms).withDefault none (Value.nullable? c.ofJson?) = some a := by
  rw [← h.optional hfits]
  unfold Value.found
  cases Value.valuesOf name ms <;> rfl

theorem SaysOr.withDefault {default a : α} (h : c.SaysOr default name ms a) (hfits : c.Fits a) :
    (Value.found name ms).withDefault default c.ofJson? = some a := by
  rcases h with ⟨v, hvalues, hv⟩ | ⟨rfl, hvalues⟩
  · rw [Value.found, hvalues]
    exact c.ofJson?_of_writes hfits hv
  · rw [Value.found, hvalues]
    rfl

end Members

/-! ### Fields of any form

What was read fits, from whichever form of a record. -/

section Fields

variable {c} {f : Field}

theorem fits_of_required {a : α} (h : f.required c.ofJson? = some a) : c.Fits a := by
  cases f with
  | present v => exact c.fits_of_ofJson? h
  | _ => cases h

theorem fits_of_nullable? {a : Option α} {v : Value} (h : v.nullable? c.ofJson? = some a) :
    ∀ x ∈ a, c.Fits x := by
  rintro x rfl
  exact c.fits_of_ofJson? (Value.read_of_nullable? h)

theorem fits_of_optional {a : Option α} (h : f.optional c.ofJson? = some a) :
    ∀ x ∈ a, c.Fits x := by
  cases f with
  | present v => exact fits_of_nullable? h
  | missing =>
    cases h
    exact fun x hx => nomatch hx
  | cutOff => cases h

theorem fits_of_withDefault {default a : α} (hdefault : c.Fits default)
    (h : f.withDefault default c.ofJson? = some a) : c.Fits a := by
  cases f with
  | present v => exact c.fits_of_ofJson? h
  | _ =>
    cases h
    exact hdefault

end Fields

end Codec

end EditorInsight.Json
