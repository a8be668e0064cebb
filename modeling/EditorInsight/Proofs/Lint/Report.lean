import EditorInsight.Lint.Report
import EditorInsight.Proofs.Json.Parse
import EditorInsight.Proofs.Json.Print
import EditorInsight.Proofs.Json.Record

/-!
# What a report is read as

The linter writes one record for each finding. Reading the report gives the findings back, in order,
whatever else stands between the records, as long as the report can be taken apart into records at
all.

* `Message.ReadFrom` says what is read of a record, field by field, and `Message.Malformed` which
  values are skipped: `isSkipped_iff`.
* `Recorded` says how a finding is written down, and `Report` what may stand between the records.
* `parseReport_eq_ok_iff` says which reports can be read. It takes more than a JSON array, since one
  record with a number that is too large for a double, half of a surrogate pair or too many brackets
  spoils the whole report: `parseReport_oddReport`.
* `inWords_of_parseReport`: what is read stays in machine words.
* `parseReport_of_report`: the findings that were written down are read again.
-/

namespace EditorInsight.Lint

open Json

/-! ### Reports -/

theorem depthItems_lt_iff {vs : List Value} {n : Nat} (hn : 0 < n) :
    Value.depthItems vs < n ↔ ∀ v ∈ vs, v.depth < n := by
  induction vs with
  | nil => exact iff_of_true hn fun v hv => nomatch hv
  | cons v vs ih => rw [Value.depthItems, Nat.max_lt, ih, List.forall_mem_cons]

/-- An array has a bracket, so its text is not blank. -/
theorem isBlankText_of_isText {text : String} {vs : List Value} (h : IsText text (.array vs)) :
    Text.isBlankText text = false := by
  have hbracket : '[' ∈ text.toList := by
    have hopening {a : List Char} (ha : Token.openArray.Padded a) : '[' ∈ a := by
      obtain ⟨before, lexeme, after, -, hlexeme, -, rfl⟩ := ha
      cases hlexeme
      simp
    unfold IsText at h
    generalize text.toList = cs at h ⊢
    generalize hv : Value.array vs = v at h
    -- no other phrase denotes an array
    cases h with
    | emptyArray opening => exact List.mem_append_left _ (hopening opening)
    | array opening =>
      exact List.mem_append_left _ (List.mem_append_left _ (hopening opening))
    | number => split at hv <;> cases hv
    | @string s => cases s <;> cases hv
    | @object ms =>
      rcases objectOf_cases ms with ⟨ns, -, hobject⟩ | ⟨-, hobject⟩
      · rw [hobject] at hv
        cases hv
      · rw [hobject] at hv
        cases hv
    | _ => cases hv
  refine Bool.eq_false_iff.mpr fun hblank => ?_
  have hbracketBlank := List.all_eq_true.mp hblank '[' hbracket
  cases hbracketBlank

/-- The limits on an array are limits on its items. -/
theorem parseStrict?_eq_array_iff {text : String} {vs : List Value} :
    parseStrict? text = some (.array vs) ↔
      IsText text (.array vs) ∧ ∀ v ∈ vs, v.isReadable = true ∧ v.depth < maxDepth := by
  rw [parseStrict?_eq_some_iff, isValuedText_iff, and_assoc, Value.isReadable, allReadable_iff,
    Value.depth, Nat.add_one_le_iff, depthItems_lt_iff (by decide)]
  refine and_congr_right fun _ => ?_
  constructor
  · rintro ⟨hreadable, hdepth⟩ v hv
    exact ⟨hreadable v hv, hdepth v hv⟩
  · intro h
    exact ⟨fun v hv => (h v hv).1, fun v hv => (h v hv).2⟩

/-- A report within the limits is read record by record. -/
theorem parseReport_array {text : String} {vs : List Value} (htext : IsText text (.array vs))
    (hlimits : ∀ v ∈ vs, v.isReadable = true ∧ v.depth < maxDepth) :
    parseReport text = .ok (findings vs) := by
  rw [parseReport, isBlankText_of_isText htext, if_neg Bool.false_ne_true,
    parseStrict?_eq_array_iff.mpr ⟨htext, hlimits⟩]

/-- **Which reports can be read.** A report that is an array is read if and only if all of its
records are within the limits of the reader. -/
theorem parseReport_eq_ok_iff {text : String} {ds : List Diagnostic} :
    parseReport text = .ok ds ↔
      (Text.isBlankText text = true ∧ ds = []) ∨
        ∃ vs, IsText text (.array vs) ∧ (∀ v ∈ vs, v.isReadable = true ∧ v.depth < maxDepth) ∧
          ds = findings vs := by
  constructor
  · intro h
    unfold parseReport at h
    split at h
    · next hblank =>
      cases h
      exact .inl ⟨hblank, rfl⟩
    · split at h
      · next vs hvs =>
        cases h
        obtain ⟨htext, hlimits⟩ := parseStrict?_eq_array_iff.mp hvs
        exact .inr ⟨vs, htext, hlimits, rfl⟩
      · cases h
  · rintro (⟨hblank, rfl⟩ | ⟨vs, htext, hlimits, rfl⟩)
    · rw [parseReport, if_pos hblank]
    · exact parseReport_array htext hlimits

/-- The record of a finding, and one with a number that is too large for a double. -/
def oddRecords : List Value :=
  [.object [("type", .string "error"), ("line", .nat 1), ("column", .nat 0),
      ("message-id", .string "E0602"), ("message", .string "boom")],
    .object [("column", .unreadable)]]

/-- The text of `oddRecords`. -/
def oddReport : String :=
  "[\x7b\"type\":\"error\",\"line\":1,\"column\":0,\"message-id\":\"E0602\"," ++
    "\"message\":\"boom\"\x7d,\x7b\"column\":1e999\x7d]"

/-- The tokens of a report as `oddReport`, with any three numbers. -/
def oddTokens (line column odd : Number) : List Token :=
  [.openArray, .openObject, .string "type", .colon, .string "error", .comma, .string "line", .colon,
    .number line, .comma, .string "column", .colon, .number column, .comma, .string "message-id",
    .colon, .string "E0602", .comma, .string "message", .colon, .string "boom", .closeObject, .comma,
    .openObject, .string "column", .colon, .number odd, .closeObject, .closeArray]

/-- One odd record hides the others. -/
theorem parseReport_oddReport :
    IsText oddReport (.array oddRecords) ∧ parseReport oddReport = .error .notAnArray := by
  have hscan : Token.scan oddReport.toList =
      some (oddTokens (.ofNat 1) (.ofNat 0) ⟨false, 1, [], some 999⟩) := by decide +kernel
  have hread (line column odd : Number) : Value.ofTokens? (oddTokens line column odd) =
      some (.array
        [.object [("type", .string "error"),
            ("line", if line.isFinite then .number line else .unreadable),
            ("column", if column.isFinite then .number column else .unreadable),
            ("message-id", .string "E0602"), ("message", .string "boom")],
          .object [("column", if odd.isFinite then .number odd else .unreadable)]]) := rfl
  -- one number is too large to be read, and it makes the value around it unreadable
  have hodd : ¬ (⟨false, 1, [], some 999⟩ : Number).isFinite = true := by decide +kernel
  have htext := isText_of_scan hscan (hread _ _ _)
  rw [if_pos (Number.isFinite_ofNat (by decide)), if_pos (Number.isFinite_ofNat (by decide)),
    if_neg hodd] at htext
  refine ⟨htext, ?_⟩
  rw [parseReport, isBlankText_of_isText htext, if_neg Bool.false_ne_true, parseStrict?,
    parse?_eq_some_iff.mpr htext]
  rfl

/-! ### Records -/

/-- What a field of a record has to be. -/
inductive FieldType where
  | text
  | word

/-- Whether a value is of a type. -/
def FieldType.Holds : FieldType → Value → Prop
  | text, v => ∃ s, v = .string s
  | word, v => ∃ n, v = .nat n ∧ n < wordSize

/-- What the format says of a field. -/
structure FieldRule where
  /-- The name of the field. -/
  name : String
  /-- The type of the field. -/
  type : FieldType
  /-- Whether the field may be left out, or be `null`. -/
  mayLack : Bool

/-- Whether what a record has for a field is as the format says. -/
def FieldRule.Fits (r : FieldRule) : Option Value → Prop
  | some v => r.type.Holds v ∨ (r.mayLack = true ∧ v = .null)
  | none => r.mayLack = true

namespace Message

/-- The fields of a record, in their fixed order. -/
def fieldRules : List FieldRule :=
  [⟨"type", .text, false⟩, ⟨"line", .word, false⟩, ⟨"column", .word, false⟩,
    ⟨"endLine", .word, true⟩, ⟨"endColumn", .word, true⟩, ⟨"message-id", .text, false⟩,
    ⟨"message", .text, false⟩, ⟨"symbol", .text, true⟩]

/-- A value that is no record: a field of it is not as the format says, or it is an array of more
items than there are fields. The array of the fields in their fixed order is a record. -/
def Malformed (v : Value) : Prop :=
  (∃ items, v = .array items ∧ fieldRules.length < items.length) ∨
    ∃ (i : Nat) (r : FieldRule), fieldRules[i]? = some r ∧ ¬ r.Fits (v.held? r.name i)

/-- What is read of a record. -/
structure ReadFrom (v : Value) (m : Message) : Prop where
  form : v.HasForm fieldNames.length
  kind : (v.held? "type" 0).bind Value.text? = some m.kind
  line : (v.held? "line" 1).bind Value.word? = some m.line
  column : (v.held? "column" 2).bind Value.word? = some m.column
  endLine : (v.held? "endLine" 3).elim (some none) (Value.nullable? Value.word?) = some m.endLine
  endColumn :
    (v.held? "endColumn" 4).elim (some none) (Value.nullable? Value.word?) = some m.endColumn
  messageId : (v.held? "message-id" 5).bind Value.text? = some m.messageId
  message : (v.held? "message" 6).bind Value.text? = some m.message
  symbol : (v.held? "symbol" 7).elim (some none) (Value.nullable? Value.text?) = some m.symbol

theorem ofJson?_lastWins_eq_some_iff {v : Value} {m : Message} :
    ofJson? v.lastWins = some m ↔ ReadFrom v m := by
  unfold ofJson?
  by_cases hform : v.HasForm fieldNames.length
  · -- every field is read from what is held for it, or from nothing if it may be left out
    have hfields : fieldNames.mapIdx (fun i name => v.field name i) =
        [v.field "type" 0, v.field "line" 1, v.field "column" 2, v.field "endLine" 3,
          v.field "endColumn" 4, v.field "message-id" 5, v.field "message" 6,
          v.field "symbol" 7] := rfl
    rw [Value.fields?_lastWins hform, hfields]
    simp only [bind, pure, Option.bind_some, Option.bind_eq_some_iff]
    simp only [Value.required_field Value.text?_lastWins, Value.required_field Value.word?_lastWins,
      Value.withDefault_field (Value.nullable?_lastWins Value.text?_lastWins),
      Value.withDefault_field (Value.nullable?_lastWins Value.word?_lastWins)]
    constructor
    · rintro ⟨kind, h₀, line, h₁, column, h₂, endLine, h₃, endColumn, h₄, code, h₅, message, h₆,
        symbol, h₇, heq⟩
      cases heq
      exact ⟨hform, h₀, h₁, h₂, h₃, h₄, h₅, h₆, h₇⟩
    · intro h
      exact ⟨_, h.kind, _, h.line, _, h.column, _, h.endLine, _, h.endColumn, _, h.messageId, _,
        h.message, _, h.symbol, rfl⟩
  · rw [Value.fields?_lastWins_of_not_hasForm hform]
    exact iff_of_false nofun fun h => hform h.form

end Message

section Rules

variable {α : Type} {type : FieldType} {read : Value → Option α} {name : String}

theorem fits_required (hread : ∀ v, type.Holds v ↔ ∃ a, read v = some a) (held : Option Value) :
    FieldRule.Fits ⟨name, type, false⟩ held ↔ ∃ a, held.bind read = some a := by
  cases held with
  | none => exact iff_of_false Bool.false_ne_true nofun
  | some v =>
    change type.Holds v ∨ (false = true ∧ v = .null) ↔ ∃ a, read v = some a
    rw [← hread v]
    exact or_iff_left fun h => Bool.false_ne_true h.1

theorem fits_optional (hread : ∀ v, type.Holds v ↔ ∃ a, read v = some a) (held : Option Value) :
    FieldRule.Fits ⟨name, type, true⟩ held ↔
      ∃ a, held.elim (some none) (Value.nullable? read) = some a := by
  cases held with
  | none => exact iff_of_true rfl ⟨none, rfl⟩
  | some v =>
    change type.Holds v ∨ (true = true ∧ v = .null) ↔ ∃ a, v.nullable? read = some a
    -- a null is as good as nothing, whatever the type is
    cases v with
    | null => exact iff_of_true (.inr ⟨rfl, rfl⟩) ⟨none, rfl⟩
    | _ =>
      rw [hread, or_iff_left nofun]
      constructor
      · rintro ⟨a, ha⟩
        exact ⟨some a, congrArg (Option.map some) ha⟩
      · rintro ⟨o, ho⟩
        obtain ⟨a, ha, -⟩ := Option.map_eq_some_iff.mp ho
        exact ⟨a, ha⟩

theorem holds_text (v : Value) : FieldType.text.Holds v ↔ ∃ s, v.text? = some s :=
  exists_congr fun _ => Value.text?_eq_some_iff.symm

theorem holds_word (v : Value) : FieldType.word.Holds v ↔ ∃ n, v.word? = some n :=
  exists_congr fun _ => Value.word?_eq_some_iff.symm

end Rules

namespace Message

theorem fits_of_readFrom {v : Value} {m : Message} (h : ReadFrom v m) {i : Nat} {r : FieldRule}
    (hr : fieldRules[i]? = some r) : r.Fits (v.held? r.name i) := by
  match i, hr with
  | 0, rfl => exact (fits_required holds_text _).mpr ⟨_, h.kind⟩
  | 1, rfl => exact (fits_required holds_word _).mpr ⟨_, h.line⟩
  | 2, rfl => exact (fits_required holds_word _).mpr ⟨_, h.column⟩
  | 3, rfl => exact (fits_optional holds_word _).mpr ⟨_, h.endLine⟩
  | 4, rfl => exact (fits_optional holds_word _).mpr ⟨_, h.endColumn⟩
  | 5, rfl => exact (fits_required holds_text _).mpr ⟨_, h.messageId⟩
  | 6, rfl => exact (fits_required holds_text _).mpr ⟨_, h.message⟩
  | 7, rfl => exact (fits_optional holds_text _).mpr ⟨_, h.symbol⟩

/-- **Malformed values are skipped**, and nothing else is. -/
theorem isSkipped_iff {v : Value} : ofJson? v.lastWins = none ↔ Malformed v := by
  constructor
  · intro hnone
    -- if every field fits its rule, every field is read, and so is the record
    refine Classical.byContradiction fun hv => ?_
    obtain ⟨hshort, hfit⟩ := not_or.mp hv
    have fits {i : Nat} {r : FieldRule} (hr : fieldRules[i]? = some r) :
        r.Fits (v.held? r.name i) :=
      Classical.byContradiction fun hnot => hfit ⟨i, r, hr, hnot⟩
    obtain ⟨kind, h₀⟩ := (fits_required holds_text _).mp (fits (i := 0) rfl)
    obtain ⟨line, h₁⟩ := (fits_required holds_word _).mp (fits (i := 1) rfl)
    obtain ⟨column, h₂⟩ := (fits_required holds_word _).mp (fits (i := 2) rfl)
    obtain ⟨endLine, h₃⟩ := (fits_optional holds_word _).mp (fits (i := 3) rfl)
    obtain ⟨endColumn, h₄⟩ := (fits_optional holds_word _).mp (fits (i := 4) rfl)
    obtain ⟨code, h₅⟩ := (fits_required holds_text _).mp (fits (i := 5) rfl)
    obtain ⟨message, h₆⟩ := (fits_required holds_text _).mp (fits (i := 6) rfl)
    obtain ⟨symbol, h₇⟩ := (fits_optional holds_text _).mp (fits (i := 7) rfl)
    have hform : v.HasForm fieldNames.length := by
      cases v with
      | object ms => exact trivial
      | array items => exact Nat.not_lt.mp fun hlong => hshort ⟨items, rfl, hlong⟩
      | _ => cases h₀
    have hread : ReadFrom v ⟨kind, line, column, endLine, endColumn, code, message, symbol⟩ :=
      ⟨hform, h₀, h₁, h₂, h₃, h₄, h₅, h₆, h₇⟩
    rw [ofJson?_lastWins_eq_some_iff.mpr hread] at hnone
    cases hnone
  · -- what is read of a record fits the rules
    intro hv
    refine Option.eq_none_iff_forall_ne_some.mpr fun m hm => ?_
    have hread := ofJson?_lastWins_eq_some_iff.mp hm
    rcases hv with ⟨items, rfl, hlong⟩ | ⟨i, r, hr, hnot⟩
    · exact Nat.not_lt.mpr hread.form hlong
    · exact hnot (fits_of_readFrom hread hr)

end Message

/-! ### Findings written down -/

/-- Whether a record has nothing for a field. -/
def Lacks (ms : List (String × Value)) (name : String) : Prop :=
  Value.lastMember? name ms = none ∨ Value.lastMember? name ms = some .null

/-- Whether a record has a text for a field. -/
def HasText (ms : List (String × Value)) (name text : String) : Prop :=
  Value.lastMember? name ms = some (.string text)

/-- Whether a record has a machine word for a field. -/
def HasWord (ms : List (String × Value)) (name : String) (n : Nat) : Prop :=
  Value.lastMember? name ms = some (.nat n) ∧ n < wordSize

/-- How the end of a finding is written down. The line may be left out if it is the one of the start,
and stands for nothing without a column. -/
def StopRecorded (ms : List (String × Value)) (startLine : Nat) : Option Position → Prop
  | some p => HasWord ms "endColumn" p.column ∧
      (HasWord ms "endLine" p.line ∨ (Lacks ms "endLine" ∧ p.line = startLine))
  | none => Lacks ms "endColumn" ∧ (Lacks ms "endLine" ∨ ∃ n, HasWord ms "endLine" n)

/-- Whether an object records a finding. It may have any other members, in any order, and earlier
members of the same names. -/
structure Recorded (d : Diagnostic) (ms : List (String × Value)) : Prop where
  severity : HasText ms "type" d.severity.name
  line : HasWord ms "line" d.range.start.line
  column : HasWord ms "column" d.range.start.column
  stop : StopRecorded ms d.range.start.line d.range.stop
  code : HasText ms "message-id" d.code
  message : HasText ms "message" d.message
  symbol : match d.symbol with
    | some s => HasText ms "symbol" s
    | none => Lacks ms "symbol"

/-- The records of findings, in order, with malformed values anywhere between them. -/
inductive Report : List Diagnostic → List Value → Prop where
  | nil : Report [] []
  | record {d : Diagnostic} {ds : List Diagnostic} {ms : List (String × Value)} {vs : List Value}
      (recorded : Recorded d ms) (rest : Report ds vs) : Report (d :: ds) (.object ms :: vs)
  | malformed {v : Value} {ds : List Diagnostic} {vs : List Value} (malformed : Message.Malformed v)
      (rest : Report ds vs) : Report ds (v :: vs)

section Fields

variable {ms : List (String × Value)} {name : String}

theorem HasText.read {text : String} (h : HasText ms name text) (i : Nat) :
    ((Value.object ms).held? name i).bind Value.text? = some text := by
  rw [Value.held?, h]
  rfl

theorem HasWord.read {n : Nat} (h : HasWord ms name n) (i : Nat) :
    ((Value.object ms).held? name i).bind Value.word? = some n := by
  rw [Value.held?, h.1]
  exact Value.word?_eq_some_iff.mpr ⟨rfl, h.2⟩

theorem HasText.readOptional {text : String} (h : HasText ms name text) (i : Nat) :
    ((Value.object ms).held? name i).elim (some none) (Value.nullable? Value.text?)
      = some (some text) := by
  rw [Value.held?, h]
  rfl

theorem HasWord.readOptional {n : Nat} (h : HasWord ms name n) (i : Nat) :
    ((Value.object ms).held? name i).elim (some none) (Value.nullable? Value.word?)
      = some (some n) := by
  rw [Value.held?, h.1]
  exact congrArg (Option.map some) (Value.word?_eq_some_iff.mpr ⟨rfl, h.2⟩)

theorem Lacks.readOptional {α : Type} (h : Lacks ms name) (read : Value → Option α) (i : Nat) :
    ((Value.object ms).held? name i).elim (some none) (Value.nullable? read) = some none := by
  rw [Value.held?]
  rcases h with h | h <;> rw [h] <;> rfl

end Fields

theorem severity_ofName (m : Message) (s : Severity) (h : m.kind = s.name) : m.severity = s := by
  unfold Message.severity
  rw [h]
  cases s <;> rfl

/-- A recorded finding is read again. -/
theorem Recorded.read {d : Diagnostic} {ms : List (String × Value)} (h : Recorded d ms) :
    ∃ m, Message.ReadFrom (.object ms) m ∧ m.toDiagnostic = d := by
  obtain ⟨severity, ⟨⟨line, column⟩, stop⟩, code, message, symbol⟩ := d
  obtain ⟨hseverity, hline, hcolumn, hstop, hcode, hmessage, hsymbol⟩ := h
  -- the symbol and the end are read as they stand
  have hsymbol' : ((Value.object ms).held? "symbol" 7).elim (some none)
      (Value.nullable? Value.text?) = some symbol := by
    cases symbol with
    | some s => exact hsymbol.readOptional 7
    | none => exact Lacks.readOptional hsymbol _ 7
  obtain ⟨endLine, endColumn, hendLine, hendColumn, hrange⟩ : ∃ endLine endColumn,
      ((Value.object ms).held? "endLine" 3).elim (some none) (Value.nullable? Value.word?)
        = some endLine ∧
      ((Value.object ms).held? "endColumn" 4).elim (some none) (Value.nullable? Value.word?)
        = some endColumn ∧
      endColumn.map (fun column => (⟨endLine.getD line, column⟩ : Position)) = stop := by
    cases stop with
    | some p =>
      obtain ⟨hcolumn, hline | ⟨hlacks, hsame⟩⟩ := hstop
      · exact ⟨_, _, hline.readOptional 3, hcolumn.readOptional 4, rfl⟩
      · refine ⟨_, _, hlacks.readOptional _ 3, hcolumn.readOptional 4, ?_⟩
        exact congrArg (fun line => some (⟨line, p.column⟩ : Position)) hsame.symm
    | none =>
      obtain ⟨hlacks, hlacks' | ⟨n, hword⟩⟩ := hstop
      · exact ⟨_, _, hlacks'.readOptional _ 3, hlacks.readOptional _ 4, rfl⟩
      · exact ⟨_, _, hword.readOptional 3, hlacks.readOptional _ 4, rfl⟩
  refine ⟨⟨severity.name, line, column, endLine, endColumn, code, message, symbol⟩, ?_, ?_⟩
  · exact ⟨trivial, hseverity.read 0, hline.read 1, hcolumn.read 2, hendLine, hendColumn,
      hcode.read 5, hmessage.read 6, hsymbol'⟩
  · rw [Message.toDiagnostic, Message.range, hrange, severity_ofName _ severity rfl]

theorem Report.findings_eq {ds : List Diagnostic} {vs : List Value} (h : Report ds vs) :
    findings vs = ds := by
  induction h with
  | nil => rfl
  | @record d ds ms vs recorded _ ih =>
    obtain ⟨m, hread, rfl⟩ := recorded.read
    have hm := Message.ofJson?_lastWins_eq_some_iff.mpr hread
    rw [findings, List.filterMap_cons, hm]
    exact congrArg (_ :: ·) ih
  | malformed malformed _ ih =>
    rw [findings, List.filterMap_cons, Message.isSkipped_iff.mpr malformed]
    exact ih

/-! ### The linter's own records -/

/-- The members of a finding's record, with `null` for what it does not have. -/
def record (d : Diagnostic) : List (String × Value) :=
  [("type", .string d.severity.name), ("line", .nat d.range.start.line),
    ("column", .nat d.range.start.column), ("endLine", .option .nat (d.range.stop.map (·.line))),
    ("endColumn", .option .nat (d.range.stop.map (·.column))),
    ("symbol", .option .string d.symbol), ("message", .string d.message),
    ("message-id", .string d.code)]

/-- Whether all lines and columns of a finding are machine words. -/
structure InWords (d : Diagnostic) : Prop where
  line : d.range.start.line < wordSize
  column : d.range.start.column < wordSize
  stop : ∀ p ∈ d.range.stop, p.line < wordSize ∧ p.column < wordSize

theorem recorded_record {d : Diagnostic} (h : InWords d) (others : List (String × Value))
    (hothers : ∀ m ∈ others, m.1 ∉ Message.fieldNames) : Recorded d (record d ++ others) := by
  -- the other members hide none of the fields
  have hlast {name : String} (hname : name ∈ Message.fieldNames) :
      Value.lastMember? name (record d ++ others) = Value.lastMember? name (record d) := by
    have hnone : Value.lastMember? name others = none := by
      rw [Value.lastMember?_eq_none_iff, List.any_eq_false]
      intro m hm heq
      exact hothers m hm (beq_iff_eq.mp heq ▸ hname)
    rw [Value.lastMember?_append, hnone, Option.none_or]
  obtain ⟨severity, ⟨⟨line, column⟩, stop⟩, code, message, symbol⟩ := d
  refine ⟨?_, ⟨?_, h.line⟩, ⟨?_, h.column⟩, ?_, ?_, ?_, ?_⟩
  · exact hlast (by decide)
  · exact hlast (by decide)
  · exact hlast (by decide)
  · cases stop with
    | some p =>
      obtain ⟨hline, hcolumn⟩ := h.stop p rfl
      exact ⟨⟨hlast (by decide), hcolumn⟩, .inl ⟨hlast (by decide), hline⟩⟩
    | none => exact ⟨.inr (hlast (by decide)), .inl (.inr (hlast (by decide)))⟩
  · exact hlast (by decide)
  · exact hlast (by decide)
  · cases symbol with
    | some s => exact hlast (by decide)
    | none => exact .inr (hlast (by decide))

theorem isWritable_record {d : Diagnostic} (h : InWords d) :
    (Value.object (record d)).isWritable = true := by
  obtain ⟨severity, ⟨⟨line, column⟩, stop⟩, code, message, symbol⟩ := d
  have hsymbol : (Value.option Value.string symbol).isWritable = true := by
    cases symbol <;> rfl
  have hstop (part : Position → Nat) (hpart : ∀ p ∈ stop, part p < wordSize) :
      (Value.option Value.nat (stop.map part)).isWritable = true := by
    cases stop with
    | some p => exact Value.isWritable_nat (hpart p rfl)
    | none => rfl
  have hline := hstop (·.line) fun p hp => (h.stop p hp).1
  have hcolumn := hstop (·.column) fun p hp => (h.stop p hp).2
  simp only [record, Value.isWritable, Value.membersWritable, Value.isWritable_nat h.line,
    Value.isWritable_nat h.column, hline, hcolumn, hsymbol, Bool.and_self]

theorem depth_record (d : Diagnostic) : (Value.object (record d)).depth = 1 := by
  obtain ⟨severity, ⟨⟨line, column⟩, stop⟩, code, message, symbol⟩ := d
  cases stop <;> cases symbol <;> rfl

/-- **Reading undoes writing.** -/
theorem parseReport_render {ds : List Diagnostic} (h : ∀ d ∈ ds, InWords d) :
    parseReport (render (.array (ds.map fun d => .object (record d)))) = .ok ds := by
  have hwritable : (Value.array (ds.map fun d => .object (record d))).isWritable = true := by
    refine Value.allWritable_iff.mpr fun v hv => ?_
    obtain ⟨d, hd, rfl⟩ := List.mem_map.mp hv
    exact isWritable_record (h d hd)
  have hlimits : ∀ v ∈ ds.map fun d => Value.object (record d),
      v.isReadable = true ∧ v.depth < maxDepth := by
    intro v hv
    obtain ⟨d, hd, rfl⟩ := List.mem_map.mp hv
    refine ⟨Value.isReadable_of_isWritable _ (isWritable_record (h d hd)), ?_⟩
    rw [depth_record]
    decide
  -- what is written for findings is a report of them, so it is read as any report is
  have hreport : Report ds (ds.map fun d => .object (record d)) := by
    clear hwritable hlimits
    induction ds with
    | nil => exact .nil
    | cons d ds ih =>
      obtain ⟨hd, hds⟩ := List.forall_mem_cons.mp h
      have hrecorded := recorded_record hd [] nofun
      rw [List.append_nil] at hrecorded
      exact .record hrecorded (ih hds)
  rw [parseReport_array (isText_render hwritable) hlimits, hreport.findings_eq]

/-! ### What is read stays in words -/

theorem lt_of_required_word {held : Option Value} {n : Nat}
    (h : held.bind Value.word? = some n) : n < wordSize := by
  obtain ⟨v, -, hv⟩ := Option.bind_eq_some_iff.mp h
  exact (Value.word?_eq_some_iff.mp hv).2

theorem lt_of_optional_word {held : Option Value} {n : Nat}
    (h : held.elim (some none) (Value.nullable? Value.word?) = some (some n)) : n < wordSize := by
  cases held with
  | none => cases h
  | some v => exact (Value.word?_eq_some_iff.mp (Value.read_of_nullable? h)).2

theorem Message.inWords_of_readFrom {v : Value} {m : Message} (h : ReadFrom v m) :
    InWords m.toDiagnostic := by
  have hline : m.line < wordSize := lt_of_required_word h.line
  refine ⟨hline, lt_of_required_word h.column, fun p hp => ?_⟩
  obtain ⟨column, hcolumn, rfl⟩ := Option.map_eq_some_iff.mp hp
  have hend := h.endColumn
  rw [hcolumn] at hend
  refine ⟨?_, lt_of_optional_word hend⟩
  -- an end without a line is on the line of the start
  cases hendLine : m.endLine with
  | none => exact hline
  | some line =>
    have hread := h.endLine
    rw [hendLine] at hread
    exact lt_of_optional_word hread

/-- **Every number of a finding that is read is a machine word.** -/
theorem inWords_of_parseReport {text : String} {ds : List Diagnostic}
    (h : parseReport text = .ok ds) : ∀ d ∈ ds, InWords d := by
  unfold parseReport at h
  split at h
  · cases h
    exact nofun
  · split at h
    · next records _ =>
      cases h
      intro d hd
      obtain ⟨v, -, hv⟩ := List.mem_filterMap.mp hd
      obtain ⟨m, hm, rfl⟩ := Option.map_eq_some_iff.mp hv
      exact Message.inWords_of_readFrom (Message.ofJson?_lastWins_eq_some_iff.mp hm)
    · cases h

/-! ### Reports with other values in them -/

/-- **The findings that were written down are read again**, whatever else stands in the report. -/
theorem parseReport_of_report {text : String} {ds : List Diagnostic} {vs : List Value}
    (htext : IsText text (.array vs))
    (hlimits : ∀ v ∈ vs, v.isReadable = true ∧ v.depth < maxDepth) (hreport : Report ds vs) :
    parseReport text = .ok ds := by
  rw [parseReport_array htext hlimits, hreport.findings_eq]

/-- A finding on the first line. -/
def boom : Diagnostic := ⟨.error, ⟨⟨1, 0⟩, none⟩, "E0602", "boom", none⟩

/-- A report of `boom` among other values: nothing, an array that ends too soon, and a record whose
line is no number. -/
def mixedReport : List Value :=
  [.null, .object (record boom ++ [("module", .string "demo")]), .array [.string "error"],
    .object [("type", .string "warning"), ("line", .string "oops")]]

theorem parseReport_of_report_mixed :
    IsText (render (.array mixedReport)) (.array mixedReport) ∧
      (∀ v ∈ mixedReport, v.isReadable = true ∧ v.depth < maxDepth) ∧
      Report [boom] mixedReport ∧ parseReport (render (.array mixedReport)) = .ok [boom] := by
  have htext := isText_render (v := .array mixedReport) (by decide +kernel)
  have hlimits : ∀ v ∈ mixedReport, v.isReadable = true ∧ v.depth < maxDepth := by decide
  have hnull : Message.Malformed .null := .inr ⟨0, _, rfl, nofun⟩
  have hshort : Message.Malformed (.array [.string "error"]) := .inr ⟨1, _, rfl, nofun⟩
  have hoops : Message.Malformed (.object [("type", .string "warning"), ("line", .string "oops")]) := by
    refine .inr ⟨1, _, rfl, ?_⟩
    rintro (⟨n, hn, -⟩ | ⟨hlack, -⟩)
    · cases hn
    · cases hlack
  have hwords : InWords boom := ⟨by decide, by decide, nofun⟩
  have hboom : Recorded boom (record boom ++ [("module", .string "demo")]) :=
    recorded_record hwords _ (by decide)
  have hreport : Report [boom] mixedReport :=
    .malformed hnull (.record hboom (.malformed hshort (.malformed hoops .nil)))
  exact ⟨htext, hlimits, hreport, parseReport_of_report htext hlimits hreport⟩

/-- The fields of a record of `boom` in their fixed order, without their names. -/
def boomFields : Value :=
  .array [.string "error", .nat 1, .nat 0, .null, .null, .string "E0602", .string "boom", .null]

/-- A record need not be an object. -/
theorem parseReport_boomFields : (∀ ms, boomFields ≠ .object ms) ∧ boomFields.isReadable = true ∧
    boomFields.depth < maxDepth ∧ IsText (render (.array [boomFields])) (.array [boomFields]) ∧
    parseReport (render (.array [boomFields])) = .ok [boom] := by
  have htext := isText_render (v := .array [boomFields]) (by decide +kernel)
  refine ⟨nofun, rfl, by decide, htext, ?_⟩
  rw [parseReport_array htext (by decide)]
  rfl

end EditorInsight.Lint
