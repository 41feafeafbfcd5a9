import PyDBLog.Bytes.Hex
import PyDBLog.Model.DBLog

/-! # A state that is written down

`RunState` as pydantic dumps it and validates it again. How pydantic writes strings, numbers,
datetimes, lists and models is a parameter (`Mode`: the objects of `model_dump()`, or the text of
`model_dump_json()`), of which only that it loses nothing is assumed (`Mode.Lossless`). The
hexadecimal digits of the position and the time zone of the inspection are the program's own. A
state reads back as it was (`saved_state_reads_back`). -/

namespace PyDBLog.Model.Saved

open PyDBLog.Model.Python PyDBLog.Model.Types PyDBLog.Model.Connector PyDBLog.Model.DBLog

/-! ### pydantic -/

/-- How values of one type are written as `W`, and what is read as one. -/
structure Codec (W α : Type) where
  write : α → W
  read : W → Except PyError α

variable {W α : Type}

/-- Whatever is written reads back. -/
def Codec.Lossless (codec : Codec W α) : Prop := ∀ a, codec.read (codec.write a) = .ok a

/-- A `datetime`, with a time zone or without one. -/
inductive AnyDatetime
  | naive (time : Datetime)
  | aware (time : AwareDatetime)
  deriving DecidableEq

/-- A mode of pydantic: its own types, `None`, and a model as its fields by name. `isStr` is what
`isinstance(value, str)` finds before validation, and `bytes` what is accepted as bytes that no
validator has touched. -/
structure Mode (W : Type) where
  str : Codec W String
  int : Codec W ℤ
  bool : Codec W Bool
  datetime : Codec W AnyDatetime
  list : Codec W (List W)
  null : W
  isNull : W → Bool
  isStr : W → Option String
  bytes : W → Except PyError Bytes
  model : List (String × W) → W
  field : W → String → Except PyError (Option W)

/-- **What is assumed of pydantic**: its types are written without loss, None is told from strings
and integers, and a model holds the fields it was written with. -/
structure Mode.Lossless (mode : Mode W) : Prop where
  str : mode.str.Lossless
  int : mode.int.Lossless
  bool : mode.bool.Lossless
  datetime : mode.datetime.Lossless
  list : mode.list.Lossless
  isNull_null : mode.isNull mode.null = true
  isNull_str : ∀ s, mode.isNull (mode.str.write s) = false
  isNull_int : ∀ n, mode.isNull (mode.int.write n) = false
  isStr_str : ∀ s, mode.isStr (mode.str.write s) = some s
  field_model : ∀ fields, (fields.map Prod.fst).Nodup → ∀ name,
    mode.field (mode.model fields) name = .ok (fields.lookup name)

namespace Mode

variable (mode : Mode W)

/-- `X | None`. -/
def optional (codec : Codec W α) : Codec W (Option α) where
  write
    | none => mode.null
    | some a => codec.write a
  read w := if mode.isNull w then .ok none else some <$> codec.read w

/-- `list[X]`. -/
def listOf (codec : Codec W α) : Codec W (List α) where
  write as := mode.list.write (as.map codec.write)
  read w := do (← mode.list.read w).mapM codec.read

/-- A field that has to be there. -/
def required (codec : Codec W α) (w : W) (name : String) : Except PyError α := do
  match ← mode.field w name with
  | some value => codec.read value
  | none => .error (.valueError s!"{name}: Field required")

/-- A field with a default. -/
def defaulted (codec : Codec W α) (default : α) (w : W) (name : String) : Except PyError α := do
  match ← mode.field w name with
  | some value => codec.read value
  | none => .ok default

end Mode

/-! ### The models -/

section models

variable (mode : Mode W)

def column : Codec W ColumnSpec where
  write column := mode.model
    [("name", mode.str.write column.name), ("type_name", mode.str.write column.typeName),
      ("precision", mode.int.write column.precision), ("scale", mode.int.write column.scale),
      ("computed_definition", (mode.optional mode.str).write column.computedDefinition)]
  read w := do
    return { name := ← mode.required mode.str w "name"
             typeName := ← mode.required mode.str w "type_name"
             precision := ← mode.required mode.int w "precision"
             scale := ← mode.required mode.int w "scale"
             computedDefinition :=
               ← mode.defaulted (mode.optional mode.str) none w "computed_definition" }

def spec : Codec W TableSpec where
  write spec := mode.model
    [("source_schema", mode.str.write spec.sourceSchema), ("source_table", mode.str.write spec.sourceTable),
      ("pk_columns", (mode.listOf mode.str).write spec.pkColumns),
      ("columns", (mode.listOf (column mode)).write spec.columns),
      ("captured_columns", (mode.listOf (column mode)).write spec.capturedColumns),
      ("capture_instance", (mode.optional mode.str).write spec.captureInstance)]
  read w := do
    return { sourceSchema := ← mode.required mode.str w "source_schema"
             sourceTable := ← mode.required mode.str w "source_table"
             pkColumns := ← mode.required (mode.listOf mode.str) w "pk_columns"
             columns := ← mode.required (mode.listOf (column mode)) w "columns"
             capturedColumns := ← mode.required (mode.listOf (column mode)) w "captured_columns"
             captureInstance := ← mode.defaulted (mode.optional mode.str) none w "capture_instance" }

/-- `bytes.fromhex`, whose error names the place of the fault, too. -/
def fromHex (text : String) : Except PyError Bytes :=
  match Bytes.Hex.decode text.toList with
  | some bytes => .ok bytes
  | none => .error (.valueError "non-hexadecimal number found in fromhex() arg")

/-- `_lsn_to_hex` and `_lsn_from_hex`: digits on the way out; a string on the way in is digits, and
what is none goes on as it is. -/
def lsn : Codec W LSN where
  write value := mode.str.write (hex value)
  read value :=
    match mode.isStr value with
    | some text => fromHex text
    | none => mode.bytes value

/-- `_aware`: a naive time is read as UTC. -/
def aware : AnyDatetime → AwareDatetime
  | .aware time => time
  | .naive time => .utc time

def inspection : Codec W AwareDatetime where
  write time := mode.datetime.write (.aware time)
  read w := aware <$> mode.datetime.read w

/-- `model_dump` and `model_validate` of a state. -/
def runState : Codec W RunState where
  write state := mode.model
    [("spec", (spec mode).write state.spec), ("last_lsn", (lsn mode).write state.lastLsn),
      ("last_inspect", (inspection mode).write state.lastInspect),
      ("chunk_key", (mode.optional mode.int).write state.chunkKey),
      ("dump_done", mode.bool.write state.dumpDone)]
  read w := do
    return { spec := ← mode.required (spec mode) w "spec"
             lastLsn := ← mode.required (lsn mode) w "last_lsn"
             lastInspect := ← mode.required (inspection mode) w "last_inspect"
             chunkKey := ← mode.defaulted (mode.optional mode.int) none w "chunk_key"
             dumpDone := ← mode.defaulted mode.bool false w "dump_done" }

end models

/-! ### Positions -/

theorem hexDigit_value (n : ℕ) (h : n < 16) : Bytes.Hex.digitValue (hexDigit n) = some n := by
  interval_cases n <;> decide

theorem fromHex_ok {text : String} {bytes : Bytes} :
    fromHex text = .ok bytes ↔ Bytes.Hex.Spells text.toList bytes := by
  rw [← Bytes.Hex.decode_eq_some, fromHex]
  cases Bytes.Hex.decode text.toList <;> simp

/-- The digits of a position are read as the position. -/
theorem fromHex_hex (bytes : Bytes) : fromHex (hex bytes) = .ok bytes := by
  rw [fromHex_ok, hex, String.toList_ofList]
  exact Bytes.Hex.spells_pairs hexDigit_value bytes

/-! ### Reading a model is reading its fields -/

section fields

variable {mode : Mode W} {w : W}

theorem column_read {c : ColumnSpec} : (column mode).read w = .ok c ↔
    mode.required mode.str w "name" = .ok c.name ∧ mode.required mode.str w "type_name" = .ok c.typeName ∧
      mode.required mode.int w "precision" = .ok c.precision ∧
      mode.required mode.int w "scale" = .ok c.scale ∧
      mode.defaulted (mode.optional mode.str) none w "computed_definition" = .ok c.computedDefinition := by
  simp only [column, except_bind_ok]
  constructor
  · rintro ⟨_, hname, _, htype, _, hprecision, _, hscale, _, hdefinition, h⟩
    obtain rfl := Except.ok.inj h
    exact ⟨hname, htype, hprecision, hscale, hdefinition⟩
  · rintro ⟨hname, htype, hprecision, hscale, hdefinition⟩
    exact ⟨_, hname, _, htype, _, hprecision, _, hscale, _, hdefinition, rfl⟩

theorem spec_read {s : TableSpec} : (spec mode).read w = .ok s ↔
    mode.required mode.str w "source_schema" = .ok s.sourceSchema ∧
      mode.required mode.str w "source_table" = .ok s.sourceTable ∧
      mode.required (mode.listOf mode.str) w "pk_columns" = .ok s.pkColumns ∧
      mode.required (mode.listOf (column mode)) w "columns" = .ok s.columns ∧
      mode.required (mode.listOf (column mode)) w "captured_columns" = .ok s.capturedColumns ∧
      mode.defaulted (mode.optional mode.str) none w "capture_instance" = .ok s.captureInstance := by
  simp only [spec, except_bind_ok]
  constructor
  · rintro ⟨_, hschema, _, htable, _, hkeys, _, hcolumns, _, hcaptured, _, hinstance, h⟩
    obtain rfl := Except.ok.inj h
    exact ⟨hschema, htable, hkeys, hcolumns, hcaptured, hinstance⟩
  · rintro ⟨hschema, htable, hkeys, hcolumns, hcaptured, hinstance⟩
    exact ⟨_, hschema, _, htable, _, hkeys, _, hcolumns, _, hcaptured, _, hinstance, rfl⟩

theorem runState_read {state : RunState} : (runState mode).read w = .ok state ↔
    mode.required (spec mode) w "spec" = .ok state.spec ∧
      mode.required (lsn mode) w "last_lsn" = .ok state.lastLsn ∧
      mode.required (inspection mode) w "last_inspect" = .ok state.lastInspect ∧
      mode.defaulted (mode.optional mode.int) none w "chunk_key" = .ok state.chunkKey ∧
      mode.defaulted mode.bool false w "dump_done" = .ok state.dumpDone := by
  simp only [runState, except_bind_ok]
  constructor
  · rintro ⟨_, hspec, _, hlsn, _, hinspect, _, hkey, _, hdone, h⟩
    obtain rfl := Except.ok.inj h
    exact ⟨hspec, hlsn, hinspect, hkey, hdone⟩
  · rintro ⟨hspec, hlsn, hinspect, hkey, hdone⟩
    exact ⟨_, hspec, _, hlsn, _, hinspect, _, hkey, _, hdone, rfl⟩

/-- A position that is a string is what its digits spell. -/
theorem lsn_read {text : String} {value : LSN} (h : mode.isStr w = some text) :
    (lsn mode).read w = .ok value ↔ Bytes.Hex.Spells text.toList value := by
  show (match mode.isStr w with | some text => fromHex text | none => mode.bytes w) = _ ↔ _
  rw [h]
  exact fromHex_ok

theorem inspection_read {time : AwareDatetime} : (inspection mode).read w = .ok time ↔
    ∃ read, mode.datetime.read w = .ok read ∧ aware read = time := by
  show aware <$> mode.datetime.read w = _ ↔ _
  cases mode.datetime.read w <;> simp

theorem required_ok {codec : Codec W α} {name : String} {a : α} :
    mode.required codec w name = .ok a ↔
      ∃ value, mode.field w name = .ok (some value) ∧ codec.read value = .ok a := by
  simp only [Mode.required, except_bind_ok]
  constructor
  · rintro ⟨_ | value, hfield, h⟩
    · cases h
    · exact ⟨value, hfield, h⟩
  · rintro ⟨value, hfield, h⟩
    exact ⟨some value, hfield, h⟩

end fields

/-! ### Nothing is lost -/

namespace Mode.Lossless

variable {mode : Mode W} (h : mode.Lossless)

include h

theorem optional {codec : Codec W α} (hcodec : codec.Lossless)
    (hnull : ∀ a, mode.isNull (codec.write a) = false) : (mode.optional codec).Lossless := by
  intro a
  cases a with
  | none => exact if_pos h.isNull_null
  | some a =>
    show (if mode.isNull (codec.write a) = true then _ else some <$> codec.read (codec.write a)) = _
    rw [hnull a, hcodec a]
    rfl

theorem listOf {codec : Codec W α} (hcodec : codec.Lossless) : (mode.listOf codec).Lossless := by
  intro as
  have hread : (as.map codec.write).mapM codec.read = .ok as := by
    rw [mapM_ok, List.forall₂_map_left_iff, List.forall₂_same]
    exact fun a _ => hcodec a
  show (mode.list.read (mode.list.write _) >>= fun ws => ws.mapM codec.read) = _
  rw [h.list]
  exact hread

/-- A field is read from the model it was written in. -/
theorem required {codec : Codec W α} (hcodec : codec.Lossless) {fields : List (String × W)} {name : String}
    {a : α} (hnames : (fields.map Prod.fst).Nodup) (hfield : fields.lookup name = some (codec.write a)) :
    mode.required codec (mode.model fields) name = .ok a := by
  rw [Mode.required, h.field_model fields hnames, hfield]
  exact hcodec a

theorem defaulted {codec : Codec W α} (hcodec : codec.Lossless) {fields : List (String × W)} {name : String}
    {a default : α} (hnames : (fields.map Prod.fst).Nodup)
    (hfield : fields.lookup name = some (codec.write a)) :
    mode.defaulted codec default (mode.model fields) name = .ok a := by
  rw [Mode.defaulted, h.field_model fields hnames, hfield]
  exact hcodec a

theorem column : (column mode).Lossless := fun _ => column_read.mpr
  ⟨h.required h.str (by simp) rfl, h.required h.str (by simp) rfl, h.required h.int (by simp) rfl,
    h.required h.int (by simp) rfl, h.defaulted (h.optional h.str h.isNull_str) (by simp) rfl⟩

theorem spec : (spec mode).Lossless := fun _ => spec_read.mpr
  ⟨h.required h.str (by simp) rfl, h.required h.str (by simp) rfl,
    h.required (h.listOf h.str) (by simp) rfl, h.required (h.listOf h.column) (by simp) rfl,
    h.required (h.listOf h.column) (by simp) rfl,
    h.defaulted (h.optional h.str h.isNull_str) (by simp) rfl⟩

end Mode.Lossless

section lossless

variable {mode : Mode W} (h : mode.Lossless)

include h

theorem lsn_lossless : (lsn mode).Lossless := by
  intro bytes
  show (match mode.isStr (mode.str.write (hex bytes)) with | some text => _ | none => _) = _
  rw [h.isStr_str]
  exact fromHex_hex bytes

theorem inspection_lossless : (inspection mode).Lossless := by
  intro time
  show aware <$> mode.datetime.read (mode.datetime.write (.aware time)) = _
  rw [h.datetime]
  rfl

/-- **A state is read as it was written**, field by field. -/
theorem runState_lossless : (runState mode).Lossless := fun _ => runState_read.mpr
  ⟨h.required h.spec (by simp) rfl, h.required (lsn_lossless h) (by simp) rfl,
    h.required (inspection_lossless h) (by simp) rfl,
    h.defaulted (h.optional h.int h.isNull_int) (by simp) rfl, h.defaulted h.bool (by simp) rfl⟩

end lossless

/-! ### Saving and restoring -/

/-- `model_dump`, or `model_dump_json`. -/
def modelDump (mode : Mode W) (state : RunState) : W := (runState mode).write state

/-- `model_validate`, or `model_validate_json`. -/
def modelValidate (mode : Mode W) (saved : W) : Except PyError RunState := (runState mode).read saved

/-- **A saved state reads back as the same state**, and a call from it is the same call. What else
is accepted as a state is read as the position its digits spell, of either case and with blanks
between, and as the time in UTC where none is given; dumped again it is bytes in hexadecimal and a
time with its zone, and reads back as what it was read as. -/
theorem saved_state_reads_back {mode : Mode W} (h : mode.Lossless) :
    (∀ state, modelValidate mode (modelDump mode state) = .ok state) ∧
    (∀ state restored, modelValidate mode (modelDump mode state) = .ok restored →
      ∀ {σ : Type} (connector : SourceConnector σ) (now : ℤ) (schema table : String) (chunkSize : ℤ)
        (inspectEvery : Option Timedelta),
        dblog connector now schema table (some restored) chunkSize inspectEvery =
          dblog connector now schema table (some state) chunkSize inspectEvery) ∧
    ∀ saved state, modelValidate mode saved = .ok state →
      (∀ value text, mode.field saved "last_lsn" = .ok (some value) → mode.isStr value = some text →
        Bytes.Hex.Spells text.toList state.lastLsn) ∧
      (∀ value time, mode.field saved "last_inspect" = .ok (some value) →
        mode.datetime.read value = .ok (.naive time) → state.lastInspect = .utc time) ∧
      mode.field (modelDump mode state) "last_lsn" = .ok (some (mode.str.write (hex state.lastLsn))) ∧
      mode.field (modelDump mode state) "last_inspect" =
        .ok (some (mode.datetime.write (.aware state.lastInspect))) ∧
      modelValidate mode (modelDump mode state) = .ok state := by
  have hback : ∀ state, modelValidate mode (modelDump mode state) = .ok state := runState_lossless h
  refine ⟨hback, fun state restored hrestored => ?_, fun saved state hsaved => ?_⟩
  · rw [hback, Except.ok.injEq] at hrestored
    rw [hrestored]
    exact fun _ _ _ _ _ _ => rfl
  obtain ⟨-, hlsn, hinspect, -, -⟩ := runState_read.mp hsaved
  refine ⟨fun value text hvalue htext => ?_, fun value time hvalue htime => ?_, ?_, ?_, hback state⟩
  · obtain ⟨read, hread, hlsn⟩ := required_ok.mp hlsn
    rw [hvalue] at hread
    obtain rfl := Option.some.inj (Except.ok.inj hread)
    exact (lsn_read htext).mp hlsn
  · obtain ⟨read, hread, hinspect⟩ := required_ok.mp hinspect
    rw [hvalue] at hread
    obtain rfl := Option.some.inj (Except.ok.inj hread)
    obtain ⟨datetime, hdatetime, haware⟩ := inspection_read.mp hinspect
    rw [htime] at hdatetime
    obtain rfl := Except.ok.inj hdatetime
    exact haware.symm
  · exact h.field_model _ (by simp) _
  · exact h.field_model _ (by simp) _

/-! ### Objects of Python -/

/-- What `model_dump()` gives, and its bytes where a caller puts them in. -/
inductive Data
  | none
  | bool (b : Bool)
  | int (n : ℤ)
  | str (s : String)
  | bytes (b : Bytes)
  | datetime (time : AnyDatetime)
  | list (items : List Data)
  | dict (fields : List (String × Data))

/-- What validation raises where an object is of another type. -/
def invalid (type : String) : Except PyError α := .error (.valueError s!"Input should be a valid {type}")

/-- Objects of exactly the types that are declared. -/
def python : Mode Data where
  str := ⟨.str, fun | .str s => .ok s | _ => invalid "string"⟩
  int := ⟨.int, fun | .int n => .ok n | _ => invalid "integer"⟩
  bool := ⟨.bool, fun | .bool b => .ok b | _ => invalid "boolean"⟩
  datetime := ⟨.datetime, fun | .datetime time => .ok time | _ => invalid "datetime"⟩
  list := ⟨.list, fun | .list items => .ok items | _ => invalid "list"⟩
  null := .none
  isNull | .none => true | _ => false
  isStr | .str s => some s | _ => none
  bytes | .bytes b => .ok b | _ => invalid "bytes"
  model := .dict
  field | .dict fields, name => .ok (fields.lookup name) | _, _ => invalid "dictionary"

theorem python_lossless : python.Lossless where
  str _ := rfl
  int _ := rfl
  bool _ := rfl
  datetime _ := rfl
  list _ := rfl
  isNull_null := rfl
  isNull_str _ := rfl
  isNull_int _ := rfl
  isStr_str _ := rfl
  field_model _ _ _ := rfl

/-- A state of a table with a computed column, before the first chunk. -/
def sales : RunState where
  spec :=
    { sourceSchema := "dbo", sourceTable := "sales", pkColumns := ["id"], columns := [],
      capturedColumns := [⟨"id", "int", 10, 0, none⟩, ⟨"total", "int", 10, 0, some "([n]*(2))"⟩],
      captureInstance := some "dbo_sales" }
  lastLsn := [0, 10, 255]
  lastInspect := .utc 1786797000000000
  chunkKey := none
  dumpDone := false

/-- The same state by another hand: upper case, blanks, no zone, and what has a default left out. -/
def salesByHand : Data := .dict
  [("spec", (spec python).write sales.spec), ("last_lsn", .str "00 0A  FF"),
    ("last_inspect", .datetime (.naive 1786797000000000))]

theorem saved_state_reads_back_sales :
    modelValidate python (modelDump python sales) = .ok sales ∧
      Bytes.Hex.Spells "00 0A  FF".toList sales.lastLsn ∧ sales.lastInspect = .utc 1786797000000000 ∧
      python.field (modelDump python sales) "last_lsn" = .ok (some (.str "000aff")) := by
  obtain ⟨hback, -, haccepted⟩ := saved_state_reads_back python_lossless
  have hsaved : modelValidate python salesByHand = .ok sales := rfl
  obtain ⟨hlsn, hinspect, hdigits, -, -⟩ := haccepted salesByHand sales hsaved
  exact ⟨hback sales, hlsn _ _ rfl rfl, hinspect _ _ rfl rfl, hdigits⟩

end PyDBLog.Model.Saved
