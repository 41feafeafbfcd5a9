import PyDBLog.Mssql.Schema
import PyDBLog.Model.Connector

/-! # The SQL Server source

`MSSQLConnector` over a driver: what a text with its parameters answers when it is executed. The
texts are built as the methods build them. Opening and closing connections and cursors is left out
here (a connection that fails is a driver that raises) and stands in `Mssql.Handles`; log lines are
left out. -/

namespace PyDBLog.Mssql.Connector

open PyDBLog.Model.Python PyDBLog.Model.Frame PyDBLog.Model.Types PyDBLog.Model.Connector
open PyDBLog.Mssql.Schema

def opDump : ℤ := 0
def opDelete : ℤ := 1
def opInsert : ℤ := 2
def opUpdateBefore : ℤ := 3
def opUpdateAfter : ℤ := 4

/-- An LSN is a big-endian binary(10). -/
def lsnWidth : ℕ := 10

def watermarkTimeoutSeconds : ℤ := 120
def watermarkPollSeconds : ℤ := 1

/-- `bytes(width)`. -/
def zeroBytes (width : ℕ) : Bytes := List.replicate width 0

/-- What the driver holds after a text was executed: its rows, and the same as Arrow columns. -/
structure ResultSet where
  rows : List Row
  arrow : ArrowTable

/-- How a page is limited: `OFFSET .. FETCH` or `TOP`. -/
inductive Pagination
  | fetch
  | top
  deriving DecidableEq

/-- The constructor's check of its `pagination` argument. -/
def Pagination.parse (pagination : String) : Except PyError Pagination :=
  if pagination = "fetch" then .ok .fetch
  else if pagination = "top" then .ok .top
  else .error (.valueError s!"pagination must be 'fetch' or 'top', got {pyRepr pagination}")

/-- The connector: the driver and the process clock it runs on, and its settings. Times are
microseconds; `isoformat` and `seconds` are how Python prints a datetime and a number of seconds.
`maxPolls` bounds how often the loop of `awaitWatermark` can run before `monotonic` reaches the
deadline. -/
structure MSSQLConnector (σ : Type) where
  execute : String → List Cell → Call σ ResultSet
  monotonic : Call σ ℤ
  sleep : ℤ → Call σ Unit
  lib : Libraries
  pagination : Pagination
  watermarkTimeout : ℤ
  watermarkPoll : ℤ
  maxPolls : ℕ
  isoformat : Datetime → String
  seconds : ℤ → String

/-! ### Identifiers -/

/-- `[A-Za-z0-9_]+`, in full. -/
def isIdentifier (name : String) : Bool :=
  !name.toList.isEmpty && name.toList.all fun c => c.isAlphanum || c = '_'

/-- Check that a name can be interpolated into SQL without injection risk. -/
def validateIdentifier (name kind : String) : Except PyError String :=
  if ¬ isIdentifier name then .error (.valueError s!"Invalid {kind} name: {pyRepr name}")
  else .ok name

/-- Validate an identifier and wrap it in T-SQL brackets. -/
def quoteIdentifier (name kind : String) : Except PyError String := do
  let name ← validateIdentifier name kind
  return "[" ++ name ++ "]"

/-! ### Cells a method expects -/

def asBytes : Cell → Except PyError Bytes
  | .bytes b => .ok b
  | cell => .error (.typeError cell.typeName)

def asStr : Cell → Except PyError String
  | .str s => .ok s
  | cell => .error (.typeError cell.typeName)

/-- `row[0]` of `fetchone()`, None where there is no row. -/
def firstCell (result : ResultSet) : Cell :=
  match result.rows.head? with
  | none => .null
  | some row => row.headD .null

variable {σ : Type}

namespace MSSQLConnector

variable (conn : MSSQLConnector σ)

/-! ### Positions -/

/-- Fetch the oldest LSN CDC still retains for a capture instance. -/
def getMinLsn (captureInstance : String) : Call σ LSN := do
  let result ← conn.execute "SELECT sys.fn_cdc_get_min_lsn(?) as min_lsn" [.str captureInstance]
  let cell := firstCell result
  -- zero is what an unknown or unauthorized capture instance answers, and everything is above it
  if cell = .null ∨ cell = .bytes (zeroBytes lsnWidth) then
    throw (.valueError
      (s!"CDC returned no minimum LSN for capture instance {pyRepr captureInstance}; " ++
        "is CDC enabled on that table, and does this login have SELECT on its captured columns?"))
  else ofExcept (asBytes cell)

/-- Fetch the highest LSN the CDC capture job has processed. -/
def getMaxLsn : Call σ LSN := do
  let result ← conn.execute "SELECT sys.fn_cdc_get_max_lsn() as max_lsn" []
  let cell := firstCell result
  if cell = .null then
    throw (.valueError
      ("CDC returned no maximum LSN; is CDC enabled on this database and the " ++
        "SQL Server Agent running?"))
  else ofExcept (asBytes cell)

/-- Return the next LSN after `lsn`, of the same width. -/
def incrementLsn (lsn : LSN) : Except PyError LSN :=
  if lsn.length ≠ lsnWidth then
    .error (.valueError s!"LSN must be {lsnWidth} bytes, got {lsn.length}: {pyReprBytes lsn}")
  else match Bytes.BigEndian.succ lsnWidth lsn with
    | some next => .ok next
    | none => .error (.valueError s!"cannot increment the maximum LSN {hex lsn}")

theorem incrementLsn_ok {lsn next : LSN} : incrementLsn lsn = .ok next ↔
    lsn.length = lsnWidth ∧ Bytes.BigEndian.succ lsnWidth lsn = some next := by
  simp only [incrementLsn, except_guard_ok, ne_eq, not_not]
  refine and_congr_right fun _ => ?_
  cases Bytes.BigEndian.succ lsnWidth lsn <;> simp

/-! ### Inspecting a table -/

/-- Read a table's primary key columns in key order, as the driver hands them over. -/
def readPkColumns (objectName : String) : Call σ (List Cell) := do
  let result ← conn.execute
    ("SELECT c.name FROM sys.indexes i " ++
      "JOIN sys.index_columns ic ON ic.object_id = i.object_id " ++
      "AND ic.index_id = i.index_id " ++
      "JOIN sys.columns c ON c.object_id = ic.object_id " ++
      "AND c.column_id = ic.column_id " ++
      "WHERE i.is_primary_key = 1 AND i.object_id = OBJECT_ID(?) " ++
      "ORDER BY ic.key_ordinal") [.str objectName]
  let pkColumns := result.rows.map fun row => row.headD .null
  if pkColumns.isEmpty then throw (.valueError s!"{objectName} does not have primary key")
  else return pkColumns

/-- One row of the column query. -/
def columnOfRow (lib : Libraries) : Row → Except PyError ColumnSpec
  | [name, typeName, precision, scale, definition] => do
    return { name := ← lib.str "ColumnSpec" name
             typeName := ← lib.str "ColumnSpec" typeName
             precision := ← lib.int "ColumnSpec" precision
             scale := ← lib.int "ColumnSpec" scale
             computedDefinition := ← lib.optionalStr "ColumnSpec" definition }
  | _ => .error (.valueError "wrong number of values to unpack")

/-- Read an object's columns, with the type metadata, in ordinal order. -/
def readColumns (objectName : String) : Call σ (List ColumnSpec) := do
  let result ← conn.execute
    ("SELECT c.name, t.name AS type_name, c.precision, c.scale, cc.definition " ++
      "FROM sys.columns c " ++
      "JOIN sys.types t ON t.user_type_id = c.user_type_id " ++
      "LEFT JOIN sys.computed_columns cc " ++
      "ON cc.object_id = c.object_id AND cc.column_id = c.column_id " ++
      "WHERE c.object_id = OBJECT_ID(?) " ++
      "ORDER BY c.column_id") [.str objectName]
  ofExcept (result.rows.mapM (columnOfRow conn.lib))

/-- Read the capture instance CDC keeps for a table, or None if there is none. -/
def readCaptureInstance (objectName captureSchema : String) : Call σ Cell := do
  let result ← conn.execute
    ("SELECT ct.capture_instance " ++ s!"FROM {captureSchema}.change_tables ct " ++
      "WHERE ct.source_object_id = OBJECT_ID(?)") [.str objectName]
  return firstCell result

/-- `re.fullmatch` takes strings alone. -/
def validateInstance (captureInstance : Cell) : Except PyError String := do
  validateIdentifier (← asStr captureInstance) "capture instance"

/-- Read the business columns of a capture instance's change table. -/
def readCapturedColumns (captureInstance : Cell) (captureSchema : String) : Call σ (List ColumnSpec) := do
  let name ← ofExcept (validateInstance captureInstance)
  let changeTable := s!"{captureSchema}.{name}_CT"
  let columns ← conn.readColumns changeTable
  return columns.filter fun column => ¬ "__$".toList.isPrefixOf column.name.toList

/-- Carry each computed column's formula over from the source table. -/
def markComputed (captured source : List ColumnSpec) : List ColumnSpec :=
  captured.map fun column =>
    match sourceColumn (source.filter ColumnSpec.isComputed) column.name with
    | some origin => { column with computedDefinition := origin.computedDefinition }
    | none => column

/-- What `inspect()` reads of the catalogue, on its one cursor. -/
structure CatalogueRead where
  pkColumns : List Cell
  captureInstance : Cell
  columns : List ColumnSpec
  capturedColumns : List ColumnSpec

/-- The columns, once the key and the capture instance are read. -/
def readRest (pkColumns : List Cell) (captureInstance : Cell) (objectName captureSchema : String) :
    Call σ CatalogueRead := do
  let columns ← conn.readColumns objectName
  if captureInstance = .null then
    return { pkColumns, captureInstance, columns, capturedColumns := columns }
  else do
    let captured ← conn.readCapturedColumns captureInstance captureSchema
    return { pkColumns, captureInstance, columns, capturedColumns := markComputed captured columns }

/-- The queries of `inspect()`. -/
def readCatalogue (objectName captureSchema : String) : Call σ CatalogueRead := do
  let pkColumns ← conn.readPkColumns objectName
  let captureInstance ← conn.readCaptureInstance objectName captureSchema
  conn.readRest pkColumns captureInstance objectName captureSchema

/-- What `inspect()` makes of what it has read: the key is seen to be of strings as the spec is
built. -/
def describeTable (lib : Libraries) (schema table : String) (read : CatalogueRead) :
    Except PyError TableSpec := do
  let spec : TableSpec :=
    { sourceSchema := schema
      sourceTable := table
      pkColumns := ← read.pkColumns.mapM (lib.str "TableSpec")
      columns := read.columns
      capturedColumns := read.capturedColumns
      captureInstance := ← lib.optionalStr "TableSpec" read.captureInstance }
  if read.captureInstance = .null then return spec
  else do
    validate spec
    return spec

/-- Read the metadata every read of a table is driven from. -/
def inspect (schema table captureSchema : String) : Call σ TableSpec := do
  let read ← conn.readCatalogue s!"{schema}.{table}" captureSchema
  ofExcept (describeTable conn.lib schema table read)

/-- A table that is described, field by field. -/
theorem describeTable_ok {lib : Libraries} {schema table : String} {read : CatalogueRead}
    {spec : TableSpec} : describeTable lib schema table read = .ok spec ↔
      spec.sourceSchema = schema ∧ spec.sourceTable = table ∧
      read.pkColumns.mapM (lib.str "TableSpec") = .ok spec.pkColumns ∧ spec.columns = read.columns ∧
      spec.capturedColumns = read.capturedColumns ∧
      lib.optionalStr "TableSpec" read.captureInstance = .ok spec.captureInstance ∧
      (read.captureInstance ≠ .null → validate spec = .ok ()) := by
  obtain ⟨sourceSchema, sourceTable, pk, columns, captured, ci⟩ := spec
  simp only [describeTable, except_bind_ok]
  constructor
  · rintro ⟨pk', hpk, ci', hci, h⟩
    split_ifs at h with hnull
    · cases h
      exact ⟨rfl, rfl, hpk, rfl, rfl, hci, fun hno => absurd hnull hno⟩
    · obtain ⟨_, hvalid, h⟩ := except_bind_ok.mp h
      cases h
      exact ⟨rfl, rfl, hpk, rfl, rfl, hci, fun _ => hvalid⟩
  · rintro ⟨rfl, rfl, hpk, rfl, rfl, hci, hvalid⟩
    refine ⟨pk, hpk, ci, hci, ?_⟩
    split_ifs with hnull
    · rfl
    · exact except_bind_ok.mpr ⟨(), hvalid hnull, rfl⟩

/-- A spec is of the table it was asked for, and was validated if the table is captured. -/
theorem inspect_ok {conn : MSSQLConnector σ} {schema table captureSchema : String} {spec : TableSpec}
    {w w' : σ} (h : conn.inspect schema table captureSchema w = .ok spec w') :
    spec.sourceSchema = schema ∧ spec.sourceTable = table ∧
      ∀ captureInstance, spec.captureInstance = some captureInstance → validate spec = .ok () := by
  simp only [inspect, bind_ok, ofExcept_ok] at h
  obtain ⟨read, w₁, -, h, -⟩ := h
  obtain ⟨hschema, htable, -, -, -, hci, hvalid⟩ := describeTable_ok.mp h
  refine ⟨hschema, htable, fun captureInstance hsome => hvalid ?_⟩
  rcases Libraries.optionalStr_ok.mp hci with ⟨-, hnone⟩ | ⟨hne, -⟩
  · rw [hsome] at hnone
    cases hnone
  · exact hne

/-! ### Reading the log -/

/-- The text `readEventLog` executes. -/
def eventLogQuery (spec : TableSpec) (captureInstance : String) : Except PyError String := do
  let captureInstance ← validateIdentifier captureInstance "capture instance"
  let business ← spec.businessColumns.mapM fun col => quoteIdentifier col "business column"
  let columns :=
    ["__$start_lsn AS start_lsn", "__$seqval AS seqval", "__$operation AS operation",
      "__$update_mask AS update_mask",
      "sys.fn_cdc_map_lsn_to_time(__$start_lsn) AS commit_timestamp"] ++ business
  return s!"SELECT {commaJoin columns} " ++
    s!"FROM cdc.fn_cdc_get_all_changes_{captureInstance}(?, ?, N'all') " ++
    "ORDER BY __$start_lsn, __$seqval"

/-- Read the events of an inclusive LSN range, None when there is none. -/
def readEventLog (spec : TableSpec) (fromLsn toLsn : LSN) : Call σ (Option DataFrame) :=
  match spec.captureInstance with
  | none => throw (.valueError
      s!"{spec.qualifiedName} does not have a CDC capture instance; call inspect() first")
  | some captureInstance => do
    let query ← ofExcept (eventLogQuery spec captureInstance)
    let result ← conn.execute query [.bytes fromLsn, .bytes toLsn]
    if result.arrow.numRows = 0 then return none
    else do
      let schema ← ofExcept (eventSchema spec)
      let columns ← ofExcept (conform conn.lib result.arrow schema s!"{captureInstance} events")
      return some (frameOf conn.lib result.arrow.numRows columns)

/-- What a read that returns has seen: no row, or a conformed frame of at least one. -/
theorem readEventLog_ok {conn : MSSQLConnector σ} {spec : TableSpec} {fromLsn toLsn : LSN}
    {window : Option DataFrame} {w w' : σ}
    (h : conn.readEventLog spec fromLsn toLsn w = .ok window w') :
    ∃ captureInstance query result, spec.captureInstance = some captureInstance ∧
      conn.execute query [.bytes fromLsn, .bytes toLsn] w = .ok result w' ∧
      ((result.arrow.numRows = 0 ∧ window = none) ∨ result.arrow.numRows ≠ 0 ∧
        ∃ schema columns, eventSchema spec = .ok schema ∧
          conform conn.lib result.arrow schema s!"{captureInstance} events" = .ok columns ∧
          window = some (frameOf conn.lib result.arrow.numRows columns)) := by
  unfold readEventLog at h
  cases hci : spec.captureInstance with
  | none => rw [hci] at h; exact absurd h (by simp [throw_ok])
  | some captureInstance =>
    rw [hci] at h
    simp only [bind_ok, ofExcept_ok] at h
    obtain ⟨query, _, ⟨hq, rfl⟩, result, w₁, hx, h⟩ := h
    split_ifs at h with hz
    · obtain ⟨rfl, rfl⟩ := pure_ok.mp h
      exact ⟨captureInstance, query, result, rfl, hx, Or.inl ⟨hz, rfl⟩⟩
    · simp only [bind_ok, ofExcept_ok, pure_ok] at h
      obtain ⟨schema, _, ⟨hs, rfl⟩, columns, _, ⟨hcf, rfl⟩, rfl, rfl⟩ := h
      exact ⟨captureInstance, query, result, rfl, hx, Or.inr ⟨hz, schema, columns, hs, hcf, rfl⟩⟩

/-- A window of the log is None rather than empty. -/
theorem readEventLog_nonempty {conn : MSSQLConnector σ} {spec : TableSpec} {fromLsn toLsn : LSN}
    {df : DataFrame} {w w' : σ} (h : conn.readEventLog spec fromLsn toLsn w = .ok (some df) w') :
    df.rows ≠ [] := by
  obtain ⟨-, -, result, -, -, ⟨-, hnone⟩ | ⟨hne, schema, columns, -, -, hdf⟩⟩ := readEventLog_ok h
  · cases hnone
  · obtain rfl := Option.some.inj hdf
    intro hnil
    have := congrArg List.length hnil
    simp [frameOf] at this
    exact hne this

/-- Bytes in a change table's update mask: one bit per captured column. -/
def maskWidth (spec : TableSpec) : ℕ := (spec.businessColumns.length + 7) / 8

/-- The constant cells a dump row is stamped with. -/
def dumpLiterals (spec : TableSpec) (commitTimestamp : Option Datetime) :
    List (String × DType × Cell) :=
  [("start_lsn", .binary, .bytes (zeroBytes lsnWidth)), ("seqval", .binary, .bytes (zeroBytes lsnWidth)),
    ("operation", .int32, .int opDump), ("update_mask", .binary, .bytes (zeroBytes (maskWidth spec))),
    ("commit_timestamp", .datetime .us, commitTimestamp.elim .null .datetime)]

/-- Stamp a chunk of table rows with the log's own columns. -/
def toEvents (rows : DataFrame) (spec : TableSpec) (commitTimestamp : Option Datetime) :
    Except PyError DataFrame :=
  rows.selectLiteralsAndAll (dumpLiterals spec commitTimestamp)

/-! ### Watermarks -/

/-- Take a watermark from the source's own clock. -/
def watermark : Call σ Datetime := do
  let result ← conn.execute "SELECT SYSDATETIME()" []
  match firstCell result with
  | .null => throw (.runtimeError "the source returned no time for a watermark")
  | .datetime t => return t
  | cell => throw (.typeError cell.typeName)

/-- The text `capturePassed` executes. -/
def capturePassedQuery : String :=
  "SELECT TOP 1 CASE WHEN start_time > ? " ++
    "    OR (empty_scan_count > 0 AND end_time > ?) THEN 1 ELSE 0 END " ++
    "FROM sys.dm_cdc_log_scan_sessions " ++
    "WHERE session_id > 0 " ++
    "ORDER BY end_time DESC"

/-- Whether the capture job has processed everything committed by `mark`. -/
def capturePassed (mark : Datetime) : Call σ Bool := do
  let result ← conn.execute capturePassedQuery [.datetime mark, .datetime mark]
  return (firstCell result).truthy

/-- The polling loop, at most `polls` times round. -/
def awaitLoop (mark : Datetime) (deadline : ℤ) : ℕ → Call σ Bool
  | 0 => return false
  | polls + 1 => do
    let time ← conn.monotonic
    if time < deadline then do
      let passed ← conn.capturePassed mark
      if passed then return true
      else do
        conn.sleep conn.watermarkPoll
        awaitLoop mark deadline polls
    else return false

/-- Block until the capture job has processed everything committed by `mark`. -/
def awaitWatermark (mark : Datetime) : Call σ Unit := do
  let started ← conn.monotonic
  let passed ← conn.awaitLoop mark (started + conn.watermarkTimeout) conn.maxPolls
  if passed then return ()
  else throw (.timeoutError
    (s!"the capture job did not pass the watermark {conn.isoformat mark} within " ++
      s!"{conn.seconds conn.watermarkTimeout}s; is the SQL Server Agent running and the " ++
      "capture job started?"))

/-- The commit time of a position, None where the log maps it to none. -/
def mapLsnToTimestamp (lsn : LSN) : Call σ Cell := do
  let result ← conn.execute "SELECT sys.fn_cdc_map_lsn_to_time(?)" [.bytes lsn]
  return firstCell result

/-! ### Reading the table -/

/-- Check a spec can be read from at all. -/
def validateReadSpec (spec : TableSpec) : Except PyError Unit :=
  if spec.pkColumns.isEmpty then
    .error (.valueError
      (s!"{spec.qualifiedName} has no primary key columns; " ++
        "read_table needs them for a deterministic ORDER BY"))
  else if spec.businessColumns.isEmpty then
    .error (.valueError s!"{spec.qualifiedName} has no business columns to read")
  else .ok ()

/-- How a column is named in a table read's SELECT list: a computed one is projected as NULL. -/
def project (column : ColumnSpec) : Except PyError String := do
  let quoted ← quoteIdentifier column.name "business column"
  return if column.isComputed then s!"NULL AS {quoted}" else quoted

/-- Build the T-SQL for a keyset range read, with its parameters. -/
def buildReadTableQuery (pagination : Pagination) (spec : TableSpec) (startPk endPk : Option ℤ)
    (limit : ℤ) : Except PyError (String × List ℤ) := do
  validateReadSpec spec
  if limit < 0 then .error (.valueError s!"limit must be >= 0, got {limit}")
  else match startPk, endPk with
    | some start, some stop =>
      if start ≥ stop then
        .error (.valueError
          s!"start_pk must be < end_pk for a non-empty range, got {start} >= {stop}")
      else build
    | _, _ => build
where
  build : Except PyError (String × List ℤ) := do
    let schema ← quoteIdentifier spec.sourceSchema "schema"
    let table ← quoteIdentifier spec.sourceTable "table"
    let columns ← spec.capturedColumns.mapM project
    let orderBy ← spec.pkColumns.mapM fun col => quoteIdentifier col "primary key column"
    let leading := orderBy.headD ""
    let top : Bool := limit > 0 ∧ pagination = .top
    let fetch : Bool := limit > 0 ∧ pagination = .fetch
    let select := if top then s!"SELECT TOP (?) {commaJoin columns}"
      else s!"SELECT {commaJoin columns}"
    let predicates := (if startPk.isSome then [s!"{leading} >= ?"] else []) ++
      (if endPk.isSome then [s!"{leading} < ?"] else [])
    let clauses := [select, s!"FROM {schema}.{table}"] ++
      (if predicates.isEmpty then [] else ["WHERE " ++ String.intercalate " AND " predicates]) ++
      [s!"ORDER BY {commaJoin orderBy}"] ++
      (if fetch then ["OFFSET 0 ROWS FETCH NEXT ? ROWS ONLY"] else [])
    let params := (if top then [limit] else []) ++ startPk.toList ++ endPk.toList ++
      (if fetch then [limit] else [])
    return (String.intercalate " " clauses, params)

/-- Read a half-open key range from the table. -/
def readTable (spec : TableSpec) (startPk endPk : Option ℤ) (limit : ℤ) : Call σ DataFrame := do
  let (query, params) ← ofExcept (buildReadTableQuery conn.pagination spec startPk endPk limit)
  let result ← conn.execute query (params.map .int)
  let schema ← ofExcept (rowSchema spec)
  let columns ← ofExcept (conform conn.lib result.arrow schema s!"{spec.qualifiedName} rows")
  return frameOf conn.lib result.arrow.numRows columns

/-- Build the T-SQL that reads the leading key's bounds. -/
def buildPkRangeQuery (spec : TableSpec) : Except PyError String := do
  validateReadSpec spec
  let schema ← quoteIdentifier spec.sourceSchema "schema"
  let table ← quoteIdentifier spec.sourceTable "table"
  let leading ← quoteIdentifier (spec.pkColumns.headD "") "primary key column"
  return s!"SELECT MIN({leading}), MAX({leading}) FROM {schema}.{table}"

/-- `isinstance(cell, int)`, which a bool is, too. -/
def intInstance : Cell → Option ℤ
  | .int n => some n
  | .bool b => some (if b then 1 else 0)
  | _ => none

/-- Read the lowest and highest value of the leading primary key column, None for an empty table. -/
def readPkRange (spec : TableSpec) : Call σ (Option (ℤ × ℤ)) := do
  let query ← ofExcept (buildPkRangeQuery spec)
  let result ← conn.execute query []
  if firstCell result = .null then return none
  else
    let leading := spec.pkColumns.headD ""
    let row := result.rows.headD []
    let minimum := row.headD .null
    match row.drop 1 with
    | [] => throw (.indexError "list index out of range")
    | maximum :: _ =>
      match intInstance minimum, intInstance maximum with
      | some low, some high => return some (low, high)
      | _, _ => throw (.valueError
          (s!"{spec.qualifiedName} has a non-integer leading primary key column " ++
            s!"{pyRepr leading} (got {minimum.typeName}); range chunking " ++
            "needs an integer key"))

/-- The connector as the source `dblog()` is given. -/
def source : SourceConnector σ where
  getMaxLsn := conn.getMaxLsn
  getMinLsn := conn.getMinLsn
  watermark := conn.watermark
  awaitWatermark := conn.awaitWatermark
  inspect schema table := conn.inspect schema table "cdc"
  readEventLog := conn.readEventLog
  toEvents rows spec commitTimestamp := ofExcept (toEvents rows spec commitTimestamp)
  readTable := conn.readTable
  incrementLsn lsn := ofExcept (incrementLsn lsn)

end MSSQLConnector

/-! ### Servers that answer from memory -/

/-- Casts that always succeed, dtypes that name the Arrow type, and fields that take nothing
else. -/
def plainLibraries : Libraries where
  cast _ _ cells := some cells
  length_cast h := by cases h; rfl
  dtype
    | .largeBinary => .binary
    | .int32 => .int32
    | .timestamp unit none => .datetime unit
    | type => .other type.str
  dtype_largeBinary := rfl
  dtype_int32 := rfl
  dtype_timestamp := rfl
  strField
    | .str s => some s
    | _ => none
  intField
    | .int n => some n
    | _ => none
  strField_str _ := rfl
  intField_int _ := rfl

/-- A server whose answers come from `execute` alone. -/
def serverOf (execute : String → List Cell → Call σ ResultSet) : MSSQLConnector σ where
  execute := execute
  monotonic := return 0
  sleep _ := return ()
  lib := plainLibraries
  pagination := .fetch
  watermarkTimeout := watermarkTimeoutSeconds * 1000000
  watermarkPoll := watermarkPollSeconds * 1000000
  maxPolls := 120
  isoformat _ := ""
  seconds _ := ""

/-- A result set of rows alone. -/
def answer (rows : List Row) : ResultSet := ⟨rows, ⟨0, [], by simp⟩⟩

/-- A server that answers a script, whatever it is asked. -/
def scripted : MSSQLConnector (List ResultSet) := serverOf fun query _ script =>
  match script with
  | result :: rest => .ok result rest
  | [] => .error (.driverError query) []

end PyDBLog.Mssql.Connector
