import PyDBLog.Mssql.Identifiers

/-! # What `inspect()` makes of the catalogue

The catalogue describes a table by its key, its columns, the capture instance if there is one, and
the columns of that instance's change table (`TableCatalogue`). `inspect()` asks for them one after
the other (`inspect_ok_iff`), drops the log's own columns from the change table and carries the
formulas of computed columns over, and returns the spec that says so exactly where the table has a
key and the spec of a captured table can be read both ways (`inspect_reads_catalogue`). -/

namespace PyDBLog.Mssql.Catalogue

open PyDBLog.Model.Python PyDBLog.Model.Frame PyDBLog.Model.Types
open PyDBLog.Mssql.Schema PyDBLog.Mssql.Connector PyDBLog.Mssql.Connector.MSSQLConnector
open PyDBLog.Mssql.ReadTable PyDBLog.Mssql.Texts PyDBLog.Mssql.Identifiers

variable {σ : Type} {conn : MSSQLConnector σ} {schema table captureSchema : String} {w w' : σ}
  {spec : TableSpec}

/-! ### The rows of the catalogue -/

/-- The row of the column query for a column. -/
def columnRow (column : ColumnSpec) : Row :=
  [.str column.name, .str column.typeName, .int column.precision, .int column.scale,
    column.computedDefinition.elim .null .str]

/-- The cell of a name that may be missing. -/
def nameCell (name : Option String) : Cell := name.elim .null .str

theorem columnOfRow_columnRow (lib : Libraries) (column : ColumnSpec) :
    columnOfRow lib (columnRow column) = .ok column := by
  obtain ⟨name, typeName, precision, scale, definition⟩ := column
  cases definition <;> simp [columnOfRow, columnRow, bind, Except.bind, pure, Except.pure]

theorem mapM_columnRow (lib : Libraries) (columns : List ColumnSpec) :
    (columns.map columnRow).mapM (columnOfRow lib) = .ok columns := by
  rw [mapM_ok, List.forall₂_map_left_iff]
  exact List.forall₂_same.mpr fun column _ => columnOfRow_columnRow lib column

theorem mapM_str (lib : Libraries) (names : List String) :
    (names.map Cell.str).mapM (lib.str "TableSpec") = .ok names := by
  rw [mapM_ok, List.forall₂_map_left_iff]
  exact List.forall₂_same.mpr fun name _ => Libraries.str_str "TableSpec" name

/-- The columns of a change table that are not the log's own. -/
def businessOf (columns : List ColumnSpec) : List ColumnSpec :=
  columns.filter fun column => ¬ "__$".toList.isPrefixOf column.name.toList

/-! ### The formulas -/

theorem sourceColumn_some {columns : List ColumnSpec} {name : String} {origin : ColumnSpec}
    (h : sourceColumn columns name = some origin) : origin ∈ columns ∧ origin.name = name :=
  ⟨List.mem_reverse.mp (List.mem_of_find?_eq_some h), by simpa using List.find?_some h⟩

theorem sourceColumn_none {columns : List ColumnSpec} {name : String}
    (h : sourceColumn columns name = none) :
    ∀ column ∈ columns, column.name ≠ name := by
  intro column hcolumn hname
  rw [sourceColumn, List.find?_eq_none] at h
  exact h column (List.mem_reverse.mpr hcolumn) (by simpa using hname)

theorem markComputed_names (captured source : List ColumnSpec) :
    (markComputed captured source).map ColumnSpec.name = captured.map ColumnSpec.name := by
  rw [markComputed, List.map_map]
  refine List.map_congr_left fun column _ => ?_
  dsimp only [Function.comp]
  split <;> rfl

/-- **A captured column is computed where the source derives the column of its name**, the change
table itself holding a plain one. -/
theorem markComputed_isComputed {captured source : List ColumnSpec}
    (plain : ∀ column ∈ captured, column.computedDefinition = none) {column : ColumnSpec}
    (h : column ∈ markComputed captured source) : column.isComputed = true ↔
      ∃ origin ∈ source, origin.name = column.name ∧ origin.isComputed = true := by
  obtain ⟨raw, hraw, rfl⟩ := List.mem_map.mp h
  cases hfind : sourceColumn (source.filter ColumnSpec.isComputed) raw.name with
  | some origin =>
    obtain ⟨hmem, hname⟩ := sourceColumn_some hfind
    obtain ⟨hsource, hcomputed⟩ := List.mem_filter.mp hmem
    exact iff_of_true hcomputed ⟨origin, hsource, hname, hcomputed⟩
  | none =>
    refine iff_of_false ?_ ?_
    · simp [ColumnSpec.isComputed, plain raw hraw]
    · rintro ⟨origin, hsource, hname, hcomputed⟩
      exact sourceColumn_none hfind origin (List.mem_filter.mpr ⟨hsource, hcomputed⟩) hname

/-! ### One inspection -/

theorem readCaptureInstance_ok {objectName : String} {cell : Cell} :
    conn.readCaptureInstance objectName captureSchema w = .ok cell w' ↔
      ∃ result, conn.execute (captureInstanceQuery captureSchema) [.str objectName] w = .ok result w' ∧
        cell = firstCell result := by
  simp only [readCaptureInstance_eq, bind_ok, pure_ok]
  constructor
  · rintro ⟨result, w₁, hx, rfl, rfl⟩
    exact ⟨result, hx, rfl⟩
  · rintro ⟨result, hx, rfl⟩
    exact ⟨result, w', hx, rfl, rfl⟩

theorem readPkColumns_ok {objectName : String} {cells : List Cell} :
    conn.readPkColumns objectName w = .ok cells w' ↔
      ∃ result, conn.execute pkColumnsQuery [.str objectName] w = .ok result w' ∧
        cells = result.rows.map (fun row => row.headD .null) ∧ cells ≠ [] := by
  simp only [readPkColumns, bind_ok, guard_ok, pure_ok, List.isEmpty_iff]
  constructor
  · rintro ⟨result, w₁, hx, hne, rfl, rfl⟩
    exact ⟨result, hx, rfl, hne⟩
  · rintro ⟨result, hx, rfl, hne⟩
    exact ⟨result, w', hx, hne, rfl, rfl⟩

theorem columns_ok {objectName : String} {columns : List ColumnSpec} :
    conn.readColumns objectName w = .ok columns w' ↔
      ∃ result, conn.execute columnsQuery [.str objectName] w = .ok result w' ∧
        result.rows.mapM (columnOfRow conn.lib) = .ok columns := by
  simp only [readColumns, bind_ok, ofExcept_ok]
  constructor
  · rintro ⟨result, w₁, hx, hrows, rfl⟩
    exact ⟨result, hx, hrows⟩
  · rintro ⟨result, hx, hrows⟩
    exact ⟨result, w', hx, hrows, rfl⟩

theorem captured_ok {captureInstance : Cell} {columns : List ColumnSpec} :
    conn.readCapturedColumns captureInstance captureSchema w = .ok columns w' ↔
      ∃ name, captureInstance = .str name ∧ isIdentifier name = true ∧ ∃ raw,
        conn.readColumns s!"{captureSchema}.{name}_CT" w = .ok raw w' ∧ columns = businessOf raw := by
  simp only [readCapturedColumns, bind_ok, ofExcept_ok, pure_ok, validateInstance_ok]
  constructor
  · rintro ⟨name, _, ⟨⟨hcell, hid⟩, rfl⟩, raw, _, hraw, rfl, rfl⟩
    exact ⟨name, hcell, hid, raw, hraw, rfl⟩
  · rintro ⟨name, hcell, hid, raw, hraw, rfl⟩
    exact ⟨name, _, ⟨⟨hcell, hid⟩, rfl⟩, raw, _, hraw, rfl, rfl⟩

/-- The change table's part of an inspection. -/
inductive Captured (conn : MSSQLConnector σ) (captureSchema : String) (spec : TableSpec)
    (w w' : σ) : Prop
  | not (unnamed : spec.captureInstance = none) (columns : spec.capturedColumns = spec.columns)
      (stays : w = w')
  | of {captureInstance raw} (named : spec.captureInstance = some captureInstance)
      (identifier : isIdentifier captureInstance = true)
      (read : conn.readColumns s!"{captureSchema}.{captureInstance}_CT" w = .ok raw w')
      (columns : spec.capturedColumns = markComputed (businessOf raw) spec.columns)
      (valid : validate spec = .ok ())

/-- **An inspection that returns**, question by question. -/
theorem inspect_ok_iff : conn.inspect schema table captureSchema w = .ok spec w' ↔
    spec.sourceSchema = schema ∧ spec.sourceTable = table ∧ ∃ keys w₁ w₂ w₃,
      conn.readPkColumns s!"{schema}.{table}" w = .ok keys w₁ ∧
      keys.mapM (conn.lib.str "TableSpec") = .ok spec.pkColumns ∧
      conn.readCaptureInstance s!"{schema}.{table}" captureSchema w₁ =
        .ok (nameCell spec.captureInstance) w₂ ∧
      conn.readColumns s!"{schema}.{table}" w₂ = .ok spec.columns w₃ ∧
      Captured conn captureSchema spec w₃ w' := by
  simp only [MSSQLConnector.inspect, readCatalogue, readRest, bind_ok, ofExcept_ok, describeTable_ok]
  constructor
  · rintro ⟨read, w₅, ⟨keys, w₁, hpk, ci, w₂, hinst, columns, w₃, hcolumns, h⟩, ⟨hschema, htable, hkeys,
      hsource, hcaptured, hci, hvalid⟩, rfl⟩
    refine ⟨hschema, htable, keys, w₁, w₂, w₃, hpk, ?_⟩
    split_ifs at h with hnull
    · obtain ⟨rfl, rfl⟩ := pure_ok.mp h
      subst hnull
      rw [Libraries.optionalStr_null, Except.ok.injEq] at hci
      rw [← hci]
      exact ⟨hkeys, hinst, hsource ▸ hcolumns, .not hci.symm (hcaptured.trans hsource.symm) rfl⟩
    · simp only [bind_ok, pure_ok, captured_ok] at h
      obtain ⟨_, _, ⟨name, rfl, hid, raw, hraw, rfl⟩, rfl, rfl⟩ := h
      rw [Libraries.optionalStr_str, Except.ok.injEq] at hci
      rw [← hci]
      refine ⟨hkeys, hinst, hsource ▸ hcolumns, .of hci.symm hid hraw ?_ (hvalid hnull)⟩
      rw [hcaptured, hsource]
  · rintro ⟨hschema, htable, keys, w₁, w₂, w₃, hpk, hkeys, hinst, hcolumns, hcaptured⟩
    refine ⟨⟨keys, nameCell spec.captureInstance, spec.columns, spec.capturedColumns⟩, w',
      ⟨keys, w₁, hpk, _, w₂, hinst, spec.columns, w₃, hcolumns, ?_⟩, ?_, rfl⟩
    · cases hcaptured with
      | not hnone hcols hstays =>
        rw [hnone, hcols, hstays]
        rfl
      | of hsome hid hraw hcols hvalid =>
        rw [hsome, hcols, if_neg (by simp [nameCell]), bind_ok]
        exact ⟨_, _, captured_ok.mpr ⟨_, rfl, hid, _, hraw, rfl⟩, rfl⟩
    · refine ⟨hschema, htable, hkeys, rfl, rfl, ?_, fun hne => ?_⟩
      · cases spec.captureInstance <;> simp [nameCell]
      · cases hcaptured with
        | not hnone => exact absurd (by rw [hnone]; rfl) hne
        | of _ _ _ _ hvalid => exact hvalid

/-! ### A spec that was validated -/

/-- Both reads of a captured table can have one schema: a captured column is still in the source and
reads back as the same type, the key is captured and stored, and no column is named like one of the
log's own. -/
structure Readable (spec : TableSpec) : Prop where
  captured : ∀ column ∈ spec.capturedColumns, ∃ origin type,
    sourceColumn spec.columns column.name = some origin ∧ arrowType origin = .ok type ∧
      arrowType column = .ok type
  keys : ∀ key ∈ spec.pkColumns, key ∈ spec.businessColumns ∧
    ∀ column ∈ spec.capturedColumns, column.name = key → ¬ column.isComputed = true
  unshadowed : ∀ name ∈ spec.businessColumns, name ∉ metadataColumns

theorem validateCaptured_ok {column : ColumnSpec} : validateCaptured spec column = .ok () ↔
    ∃ origin type, sourceColumn spec.columns column.name = some origin ∧ arrowType origin = .ok type ∧
      arrowType column = .ok type := by
  unfold validateCaptured
  cases sourceColumn spec.columns column.name with
  | none => simp
  | some origin =>
    simp only [except_bind_ok, except_guard_ok, not_not, Option.some.injEq]
    constructor
    · rintro ⟨was, hwas, isNow, hnow, rfl, -⟩
      exact ⟨origin, was, rfl, hwas, hnow⟩
    · rintro ⟨_, type, rfl, hwas, hnow⟩
      exact ⟨type, hwas, type, hnow, rfl, trivial⟩

theorem validateKey_ok {key : String} : validateKey spec key = .ok () ↔ key ∈ spec.businessColumns ∧
    ∀ column ∈ spec.capturedColumns, column.name = key → ¬ column.isComputed = true := by
  simp only [validateKey, except_guard_ok, not_not, and_true]
  refine and_congr_right fun _ => ⟨?_, ?_⟩
  · rintro hno column hcolumn hname hcomputed
    exact hno ⟨column, hcolumn, hcomputed, hname⟩
  · rintro hno ⟨column, hcolumn, hcomputed, hname⟩
    exact hno column hcolumn hname hcomputed

theorem validate_ok_iff : validate spec = .ok () ↔ Readable spec := by
  have hname : ∀ name, validateName spec name = .ok () ↔ name ∉ metadataColumns := fun name => by
    simp [validateName]
  simp only [validate, except_bind_ok, forM_ok, validateCaptured_ok, validateKey_ok, hname]
  constructor
  · rintro ⟨_, hcaptured, _, hkeys, _, hnames, -⟩
    exact ⟨hcaptured, hkeys, hnames⟩
  · intro h
    refine ⟨(), h.captured, (), h.keys, (), h.unshadowed, fun column hcolumn => ?_⟩
    obtain ⟨_, type, -, -, htype⟩ := h.captured column hcolumn
    exact ⟨type, htype, rfl⟩

/-! ### The catalogue read back -/

/-- What the catalogue says of one table, and of the change table of its capture instance. -/
structure TableCatalogue where
  pkColumns : List String
  columns : List ColumnSpec
  captureInstance : Option String
  changeTable : List ColumnSpec
  /-- A change table derives none of its columns. -/
  plain : ∀ column ∈ changeTable, column.computedDefinition = none

namespace TableCatalogue

/-- The captured columns, with the formulas of the source. -/
def captured (cat : TableCatalogue) : List ColumnSpec :=
  match cat.captureInstance with
  | none => cat.columns
  | some _ => markComputed (businessOf cat.changeTable) cat.columns

/-- **The spec of the table.** -/
def tableSpec (cat : TableCatalogue) (schema table : String) : TableSpec where
  sourceSchema := schema
  sourceTable := table
  pkColumns := cat.pkColumns
  columns := cat.columns
  capturedColumns := cat.captured
  captureInstance := cat.captureInstance

end TableCatalogue

/-- A driver that answers the questions of an inspection from the catalogue, whenever it is
asked. -/
structure AnswersFrom (cat : TableCatalogue) (conn : MSSQLConnector σ)
    (schema table captureSchema : String) :
    Prop where
  keys : ∀ w, ∃ result w', conn.execute pkColumnsQuery [.str s!"{schema}.{table}"] w = .ok result w' ∧
    result.rows = cat.pkColumns.map fun name => [.str name]
  named : ∀ w, ∃ result w',
    conn.execute (captureInstanceQuery captureSchema) [.str s!"{schema}.{table}"] w = .ok result w' ∧
      result.rows = cat.captureInstance.toList.map fun name => [.str name]
  columns : ∀ w, ∃ result w', conn.execute columnsQuery [.str s!"{schema}.{table}"] w = .ok result w' ∧
    result.rows = cat.columns.map columnRow
  changeTable : ∀ captureInstance ∈ cat.captureInstance, ∀ w, ∃ result w',
    conn.execute columnsQuery [.str s!"{captureSchema}.{captureInstance}_CT"] w = .ok result w' ∧
      result.rows = cat.changeTable.map columnRow

section

variable {cat : TableCatalogue}

theorem AnswersFrom.keys_iff (h : AnswersFrom cat conn schema table captureSchema) {cells : List Cell} :
    (∃ w', conn.readPkColumns s!"{schema}.{table}" w = .ok cells w') ↔
      cells = cat.pkColumns.map .str ∧ cat.pkColumns ≠ [] := by
  obtain ⟨result, w₁, hx, hrows⟩ := h.keys w
  have hcells : result.rows.map (fun row => row.headD .null) = cat.pkColumns.map .str := by
    rw [hrows, List.map_map]
    rfl
  simp only [readPkColumns_ok]
  constructor
  · rintro ⟨w', result', hx', rfl, hne⟩
    obtain ⟨rfl, rfl⟩ := EStateM.Result.ok.inj (hx.symm.trans hx')
    rw [hcells] at hne ⊢
    exact ⟨rfl, fun hnil => hne (List.map_eq_nil_iff.mpr hnil)⟩
  · rintro ⟨rfl, hne⟩
    exact ⟨w₁, result, hx, hcells.symm, fun hnil => hne (List.map_eq_nil_iff.mp hnil)⟩

theorem AnswersFrom.named_iff (h : AnswersFrom cat conn schema table captureSchema) {cell : Cell} :
    (∃ w', conn.readCaptureInstance s!"{schema}.{table}" captureSchema w = .ok cell w') ↔
      cell = nameCell cat.captureInstance := by
  obtain ⟨result, w₁, hx, hrows⟩ := h.named w
  have hcell : firstCell result = nameCell cat.captureInstance := by
    rw [firstCell, hrows]
    cases cat.captureInstance <;> rfl
  simp only [readCaptureInstance_ok]
  constructor
  · rintro ⟨w', result', hx', rfl⟩
    obtain ⟨rfl, rfl⟩ := EStateM.Result.ok.inj (hx.symm.trans hx')
    exact hcell
  · rintro rfl
    exact ⟨w₁, result, hx, hcell.symm⟩

theorem nameCell_inj {name name' : Option String} (h : nameCell name = nameCell name') : name = name' := by
  cases name <;> cases name' <;> simp_all [nameCell]

/-- A driver that answers rows of columns is read back. -/
theorem readColumns_iff {objectName : String} {columns columns' : List ColumnSpec}
    (h : ∃ result w', conn.execute columnsQuery [.str objectName] w = .ok result w' ∧
      result.rows = columns.map columnRow) :
    (∃ w', conn.readColumns objectName w = .ok columns' w') ↔ columns' = columns := by
  obtain ⟨result, w₁, hx, hrows⟩ := h
  simp only [columns_ok]
  constructor
  · rintro ⟨w', result', hx', hmap⟩
    obtain ⟨rfl, rfl⟩ := EStateM.Result.ok.inj (hx.symm.trans hx')
    rw [hrows, mapM_columnRow] at hmap
    exact (Except.ok.inj hmap).symm
  · rintro rfl
    exact ⟨w₁, result, hx, by rw [hrows]; exact mapM_columnRow _ _⟩

/-- **The catalogue is read back**: an inspection returns exactly where the table has a key and, if
it is captured, the capture instance is an identifier and the spec can be read both ways, and it
then returns the spec the catalogue describes. -/
theorem inspect_reads_catalogue (h : AnswersFrom cat conn schema table captureSchema) (w : σ)
    (spec : TableSpec) : (∃ w', conn.inspect schema table captureSchema w = .ok spec w') ↔
      spec = cat.tableSpec schema table ∧ cat.pkColumns ≠ [] ∧
        ∀ captureInstance ∈ cat.captureInstance, isIdentifier captureInstance = true ∧
          Readable spec := by
  simp only [inspect_ok_iff]
  constructor
  · rintro ⟨w', hschema, htable, keys, w₁, w₂, w₃, hread, hkeys, hinst, hcolumns, hcaptured⟩
    obtain ⟨rfl, hne⟩ := h.keys_iff.mp ⟨w₁, hread⟩
    have hpk : cat.pkColumns = spec.pkColumns := Except.ok.inj ((mapM_str _ _).symm.trans hkeys)
    have hinst := nameCell_inj (h.named_iff.mp ⟨w₂, hinst⟩)
    have hcolumns := (readColumns_iff (h.columns w₂)).mp ⟨w₃, hcolumns⟩
    have hspec : spec.capturedColumns = cat.captured ∧
        ∀ captureInstance ∈ cat.captureInstance, isIdentifier captureInstance = true ∧
          Readable spec := by
      unfold TableCatalogue.captured
      cases hcaptured with
      | not hnone hcols hstays =>
        rw [← hinst, hnone]
        exact ⟨hcols.trans hcolumns, by simp⟩
      | @of ci raw hsome hid hraw hcols hvalid =>
        have hci : cat.captureInstance = some ci := hinst.symm.trans hsome
        have hraw := (readColumns_iff (h.changeTable ci hci w₃)).mp ⟨w', hraw⟩
        rw [hci]
        refine ⟨by rw [hcols, hraw, hcolumns], ?_⟩
        rintro _ ⟨⟩
        exact ⟨hid, validate_ok_iff.mp hvalid⟩
    refine ⟨?_, hne, hspec.2⟩
    obtain ⟨sourceSchema, sourceTable, pk, columns, captured, ci⟩ := spec
    rw [TableCatalogue.tableSpec, ← hschema, ← htable, hpk, ← hinst, ← hcolumns, ← hspec.1]
  · rintro ⟨rfl, hne, hreadable⟩
    obtain ⟨w₁, hpk⟩ := (h.keys_iff (w := w)).mpr ⟨rfl, hne⟩
    obtain ⟨w₂, hinst⟩ := (h.named_iff (w := w₁)).mpr rfl
    obtain ⟨w₃, hcolumns⟩ := (readColumns_iff (h.columns w₂)).mpr rfl
    have hcaptured : ∃ w', Captured conn captureSchema (cat.tableSpec schema table) w₃ w' := by
      cases hci : cat.captureInstance with
      | none => exact ⟨w₃, .not hci (by simp only [TableCatalogue.tableSpec,
          TableCatalogue.captured, hci]) rfl⟩
      | some ci =>
        obtain ⟨hid, hspec⟩ := hreadable ci hci
        obtain ⟨w', hraw⟩ := (readColumns_iff (h.changeTable ci hci w₃)).mpr rfl
        refine ⟨w', .of hci hid hraw ?_ (validate_ok_iff.mpr hspec)⟩
        simp only [TableCatalogue.tableSpec, TableCatalogue.captured, hci]
    obtain ⟨w', hcaptured⟩ := hcaptured
    exact ⟨w', rfl, rfl, _, w₁, w₂, w₃, hpk, mapM_str _ _, hinst, hcolumns, hcaptured⟩

end

/-! ### The catalogue of the parts -/

/-- A table with a column that is derived from a stored one. -/
def parts : TableCatalogue where
  pkColumns := ["id"]
  columns := [⟨"id", "int", 10, 0, none⟩, ⟨"bin", "int", 10, 0, some "([id]%(16))"⟩]
  captureInstance := some "dbo_parts"
  changeTable := [⟨"__$start_lsn", "binary", 0, 0, none⟩, ⟨"id", "int", 10, 0, none⟩,
    ⟨"bin", "int", 10, 0, none⟩]
  plain := by decide

def partsRows (query : String) (params : List Cell) : List Row :=
  if query = pkColumnsQuery then parts.pkColumns.map fun name => [.str name]
  else if query = captureInstanceQuery "cdc" then
    parts.captureInstance.toList.map fun name => [.str name]
  else if params = [.str "dbo.parts"] then parts.columns.map columnRow
  else parts.changeTable.map columnRow

def partsServer : MSSQLConnector Unit :=
  serverOf fun query params _ => .ok (answer (partsRows query params)) ()

theorem partsServer_execute {query : String} {params : List Cell} {rows : List Row}
    (h : partsRows query params = rows) (w : Unit) :
    ∃ result w', partsServer.execute query params w = .ok result w' ∧ result.rows = rows :=
      ⟨_, (), rfl, h⟩

theorem partsServer_answers : AnswersFrom parts partsServer "dbo" "parts" "cdc" := by
  have hkeys : captureInstanceQuery "cdc" ≠ pkColumnsQuery := by decide +kernel
  have hcolumns : columnsQuery ≠ pkColumnsQuery := by decide +kernel
  have hnamed : columnsQuery ≠ captureInstanceQuery "cdc" := by decide +kernel
  have hparts : toString "dbo" ++ toString "." ++ toString "parts" = "dbo.parts" := by decide +kernel
  have hchanges : toString "cdc" ++ toString "." ++ toString "dbo_parts" ++ toString "_CT" ≠
      "dbo.parts" := by
    decide +kernel
  refine ⟨?_, ?_, ?_, fun ci hci => ?_⟩
  · exact partsServer_execute (by rw [partsRows, if_pos rfl])
  · exact partsServer_execute (by rw [partsRows, if_neg hkeys, if_pos rfl])
  · exact partsServer_execute (by rw [partsRows, if_neg hcolumns, if_neg hnamed, hparts, if_pos rfl])
  · obtain rfl : ci = "dbo_parts" := (Option.some.inj hci).symm
    refine partsServer_execute ?_
    rw [partsRows, if_neg hcolumns, if_neg hnamed, if_neg (by simpa using hchanges)]

theorem inspect_reads_catalogue_parts :
    ∃ w', partsServer.inspect "dbo" "parts" "cdc" () = .ok (parts.tableSpec "dbo" "parts") w' := by
  refine (inspect_reads_catalogue partsServer_answers () (parts.tableSpec "dbo" "parts")).mpr
    ⟨rfl, by decide, ?_⟩
  rintro _ ⟨⟩
  exact ⟨by decide +kernel, validate_ok_iff.mp (by decide +kernel)⟩

end PyDBLog.Mssql.Catalogue
