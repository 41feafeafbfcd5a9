import PyDBLog.Model.Types

/-! # The schema every frame read out of SQL Server is pinned to

The map from SQL Server's types to Arrow's, the check that a spec can produce one schema for both of
its read paths, and the cast of a result set to the schema it is supposed to have. What Arrow and
polars do with a column is taken from them (`Libraries`). -/

namespace PyDBLog.Mssql.Schema

open PyDBLog.Model.Python PyDBLog.Model.Frame PyDBLog.Model.Types

/-! ### Arrow -/

/-- An Arrow type. The ones the map produces are listed, any other is `other`. -/
inductive ArrowType
  | int64
  | int32
  | int16
  | uint8
  | bool
  | float64
  | float32
  | date32
  | largeString
  | largeBinary
  | decimal128 (precision scale : ℤ)
  | timestamp (unit : TimeUnit) (tz : Option String)
  | time64 (unit : TimeUnit)
  | other (name : String)
  deriving DecidableEq

/-- `str` of a time unit. -/
def unitName : TimeUnit → String
  | .us => "us"
  | .ns => "ns"

/-- `str` of an Arrow type. -/
def ArrowType.str : ArrowType → String
  | .int64 => "int64"
  | .int32 => "int32"
  | .int16 => "int16"
  | .uint8 => "uint8"
  | .bool => "bool"
  | .float64 => "double"
  | .float32 => "float"
  | .date32 => "date32[day]"
  | .largeString => "large_string"
  | .largeBinary => "large_binary"
  | .decimal128 precision scale => s!"decimal128({precision}, {scale})"
  | .timestamp unit none => s!"timestamp[{unitName unit}]"
  | .timestamp unit (some tz) => s!"timestamp[{unitName unit}, tz={tz}]"
  | .time64 unit => s!"time64[{unitName unit}]"
  | .other name => name

/-- A field of an Arrow schema: a name and a type. -/
abbrev ArrowField := String × ArrowType

/-- One column of a result set. -/
structure ArrowColumn where
  name : String
  type : ArrowType
  cells : List Cell

/-- A result set as Arrow columns of one length. -/
structure ArrowTable where
  numRows : ℕ
  columns : List ArrowColumn
  length_cells : ∀ column ∈ columns, column.cells.length = numRows

/-- What pyarrow, polars and pydantic do, as far as the program relies on it: a cast fails or keeps
the number of cells, an Arrow type is read as one dtype, the dtype of the log's own columns being
the one dump rows are stamped with, and a `str` or an `int` field of a model takes a string or an
integer as it is. -/
structure Libraries where
  cast : ArrowType → ArrowType → List Cell → Option (List Cell)
  length_cast : ∀ {source target cells cast'}, cast source target cells = some cast' →
    cast'.length = cells.length
  dtype : ArrowType → DType
  dtype_largeBinary : dtype .largeBinary = .binary
  dtype_int32 : dtype .int32 = .int32
  dtype_timestamp : dtype (.timestamp .us none) = .datetime .us
  strField : Cell → Option String
  intField : Cell → Option ℤ
  strField_str : ∀ s, strField (.str s) = some s
  intField_int : ∀ n, intField (.int n) = some n

namespace Libraries

variable (lib : Libraries)

/-- A `str` field of a model: pydantic's `ValidationError` is a `ValueError`, its text is left
out. -/
def str (model : String) (cell : Cell) : Except PyError String :=
  match lib.strField cell with
  | some s => .ok s
  | none => .error (.valueError s!"validation error for {model}")

/-- An `int` field. -/
def int (model : String) (cell : Cell) : Except PyError ℤ :=
  match lib.intField cell with
  | some n => .ok n
  | none => .error (.valueError s!"validation error for {model}")

/-- A `str | None` field. -/
def optionalStr (model : String) (cell : Cell) : Except PyError (Option String) :=
  if cell = .null then .ok none
  else do return some (← lib.str model cell)

variable {lib}

@[simp] theorem str_str (model s : String) : lib.str model (.str s) = .ok s := by
  rw [str, lib.strField_str]

@[simp] theorem int_int (model : String) (n : ℤ) : lib.int model (.int n) = .ok n := by
  rw [int, lib.intField_int]

@[simp] theorem optionalStr_null (model : String) : lib.optionalStr model .null = .ok none := if_pos rfl

@[simp] theorem optionalStr_str (model s : String) : lib.optionalStr model (.str s) = .ok (some s) := by
  rw [optionalStr, if_neg (by simp), str_str]
  rfl

theorem optionalStr_ok {model : String} {cell : Cell} {value : Option String} :
    lib.optionalStr model cell = .ok value ↔ cell = .null ∧ value = none ∨
      cell ≠ .null ∧ ∃ s, lib.str model cell = .ok s ∧ value = some s := by
  unfold optionalStr
  split_ifs with hnull
  · simp [hnull, eq_comm]
  · rw [except_bind_ok]
    simp [hnull, pure, Except.pure, eq_comm]

end Libraries

/-! ### The type map -/

/-- The change log's own columns, ahead of the table's in every event frame. -/
def metadataFields : List ArrowField :=
  [("start_lsn", .largeBinary), ("seqval", .largeBinary), ("operation", .int32),
    ("update_mask", .largeBinary), ("commit_timestamp", .timestamp .us none)]

def metadataColumns : List String := metadataFields.map Prod.fst

/-- The types whose name settles the Arrow type on its own. -/
def fixed : List (String × ArrowType) :=
  [("bigint", .int64), ("int", .int32), ("smallint", .int16), ("tinyint", .uint8), ("bit", .bool),
    ("float", .float64), ("real", .float32), ("date", .date32), ("char", .largeString),
    ("varchar", .largeString), ("nchar", .largeString), ("nvarchar", .largeString),
    ("text", .largeString), ("ntext", .largeString), ("xml", .largeString),
    ("sysname", .largeString), ("uniqueidentifier", .largeString), ("binary", .largeBinary),
    ("varbinary", .largeBinary), ("image", .largeBinary), ("timestamp", .largeBinary),
    ("rowversion", .largeBinary)]

def decimals : List String := ["decimal", "numeric", "money", "smallmoney"]

def timestamps : List String := ["datetime", "smalldatetime", "datetime2"]

/-- The Arrow time unit that holds `scale` fractional digits. -/
def timeUnit (scale : ℤ) : TimeUnit := if scale ≥ 7 then .ns else .us

/-- `pa.decimal128`, which refuses a precision outside 1 to 38. -/
def decimal128 (precision scale : ℤ) : Except PyError ArrowType :=
  if ¬ (1 ≤ precision ∧ precision ≤ 38) then
    .error (.valueError "precision should be between 1 and 38")
  else .ok (.decimal128 precision scale)

/-- Map a SQL Server column to the Arrow type it is read as. -/
def arrowType (column : ColumnSpec) : Except PyError ArrowType :=
  let typeName := lower column.typeName
  match fixed.lookup typeName with
  | some type => .ok type
  | none =>
    if typeName ∈ decimals then decimal128 column.precision column.scale
    else if typeName ∈ timestamps then .ok (.timestamp (timeUnit column.scale) none)
    else if typeName = "datetimeoffset" then .ok (.timestamp (timeUnit column.scale) (some "UTC"))
    else if typeName = "time" then .ok (.time64 (timeUnit column.scale))
    else .error (.valueError
      (s!"column {pyRepr column.name} has type {pyRepr column.typeName}, which has no Arrow " ++
        "equivalent; it cannot be read into a frame with a stable schema"))

/-! ### Validation -/

/-- A column's type as the error messages name it. -/
def describe (column : ColumnSpec) : String :=
  let (typeName, precision, scale) := column.signature
  s!"{typeName}({precision},{scale})"

/-- `source.get(name)`: the dictionary keeps the last column of a name. -/
def sourceColumn (columns : List ColumnSpec) (name : String) : Option ColumnSpec :=
  columns.reverse.find? fun column => column.name == name

/-- One captured column against the source column of its name. -/
def validateCaptured (spec : TableSpec) (captured : ColumnSpec) : Except PyError Unit :=
  match sourceColumn spec.columns captured.name with
  | none => .error (.valueError
      (s!"captured column {pyRepr captured.name} is no longer in {spec.qualifiedName}: " ++
        "the change log carries a column the table read cannot project"))
  | some origin => do
    let was ← arrowType origin
    let isNow ← arrowType captured
    if was ≠ isNow then
      .error (.valueError
        (s!"captured column {pyRepr captured.name} has drifted: the change log " ++
          s!"records it as {describe captured} and {spec.qualifiedName} now " ++
          s!"has {describe origin}, which do not read back as the same type. " ++
          "CDC keeps the type it captured, so the two reads would return " ++
          "different schemas for the same column."))
    else .ok ()

/-- One primary key column: captured, and not computed. -/
def validateKey (spec : TableSpec) (key : String) : Except PyError Unit :=
  if key ∉ spec.businessColumns then
    .error (.valueError
      (s!"primary key column {pyRepr key} of {spec.qualifiedName} is not captured: " ++
        "chunk rows are matched against log events on the whole key, and an " ++
        "uncaptured one leaves nothing to match on"))
  else if ∃ column ∈ spec.capturedColumns, column.isComputed ∧ column.name = key then
    .error (.valueError
      (s!"primary key column {pyRepr key} of {spec.qualifiedName} is computed, so " ++
        "it reads back null: there would be no key to page the table by and " ++
        "nothing to match a chunk row against an event with"))
  else .ok ()

/-- One business column: not named like one of the log's own. -/
def validateName (spec : TableSpec) (name : String) : Except PyError Unit :=
  if name ∈ metadataColumns then
    .error (.valueError
      (s!"business column {pyRepr name} of {spec.qualifiedName} is named after one " ++
        "of the change log's own columns; both would land in the same frame " ++
        "and polars would reject it without saying why"))
  else .ok ()

/-- Check that a spec can produce one schema for both of its read paths. -/
def validate (spec : TableSpec) : Except PyError Unit := do
  spec.capturedColumns.forM (validateCaptured spec)
  spec.pkColumns.forM (validateKey spec)
  spec.businessColumns.forM (validateName spec)
  spec.capturedColumns.forM fun column => do let _ ← arrowType column

/-! ### The schemas -/

/-- The Arrow fields of the columns. -/
def fields (columns : List ColumnSpec) : Except PyError (List ArrowField) :=
  columns.mapM fun column => do return (column.name, ← arrowType column)

/-- The schema a table read conforms to. -/
def rowSchema (spec : TableSpec) : Except PyError (List ArrowField) := fields spec.capturedColumns

/-- The schema a change log read conforms to, and dump rows are stamped into. -/
def eventSchema (spec : TableSpec) : Except PyError (List ArrowField) := do
  return metadataFields ++ (← fields spec.capturedColumns)

theorem eventSchema_ok {spec : TableSpec} {schema : List ArrowField} : eventSchema spec = .ok schema ↔
    ∃ fs, fields spec.capturedColumns = .ok fs ∧ schema = metadataFields ++ fs := by
  rw [eventSchema, except_bind_ok]
  refine exists_congr fun fs => and_congr_right fun _ => ?_
  exact ⟨fun h => (Except.ok.inj h).symm, fun h => congrArg Except.ok h.symm⟩

/-! ### Conforming a result set -/

/-- `f"{names}"` of a list of strings. -/
def pyReprList (names : List String) : String :=
  "[" ++ commaJoin (names.map pyRepr) ++ "]"

/-- `ordered.column(name)`. -/
def lookupColumn (columns : List ArrowColumn) (name : String) : Except PyError ArrowColumn :=
  match columns.find? fun column => column.name == name with
  | none => .error (.keyError name)
  | some column => .ok column

/-- Cast one column, naming it if the cast fails. -/
def castColumn (lib : Libraries) (columns : List ArrowColumn) (context : String)
    (field : ArrowField) : Except PyError ArrowColumn := do
  let column ← lookupColumn columns field.1
  match lib.cast column.type field.2 column.cells with
  | some cells => .ok ⟨field.1, field.2, cells⟩
  | none => .error (.valueError
      (s!"{context}: column {pyRepr field.1} came back as {column.type.str} and does not " ++
        s!"cast to the declared {field.2.str}"))

/-- Reorder and cast a result set to the schema it is supposed to have. -/
def conform (lib : Libraries) (table : ArrowTable) (schema : List ArrowField) (context : String) :
    Except PyError (List ArrowColumn) :=
  let names := table.columns.map ArrowColumn.name
  let declared := schema.map Prod.fst
  let repeated := (names.dedup.filter fun name => names.count name > 1).mergeSort (· ≤ ·)
  let missing := declared.filter (· ∉ names)
  let unexpected := names.filter (· ∉ declared)
  if ¬ names.Nodup then
    .error (.valueError s!"{context}: column name repeats in the result set: {pyReprList repeated}")
  else if ¬ (missing = [] ∧ unexpected = []) then
    .error (.valueError
      (s!"{context}: result set does not match the declared schema" ++
        String.join (missing.map fun name => s!"; missing column {pyRepr name}") ++
        String.join (unexpected.map fun name => s!"; unexpected column {pyRepr name}")))
  -- a declared name that repeats cannot be asked for by name
  else if ¬ declared.Nodup then .error (.keyError context)
  else schema.mapM (castColumn lib table.columns context)

/-- The polars frame of Arrow columns with a number of rows. -/
def frameOf (lib : Libraries) (numRows : ℕ) (columns : List ArrowColumn) : DataFrame where
  schema := columns.map fun column => (column.name, lib.dtype column.type)
  rows := (List.range numRows).map fun i => columns.map fun column => column.cells.getD i .null

end PyDBLog.Mssql.Schema
