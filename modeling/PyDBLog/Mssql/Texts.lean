import PyDBLog.Mssql.ReadTable

/-! # The texts a method executes

Every text is one of the method's own with names in its slots (`templates`), and is written from
identifiers (`readTable_written`, `readPkRange_written`, `readEventLog_written`); where a name is
none, the method raises ValueError before it has a text (`OnlyValueError.refuses`). `inspect()` is
left out here: what it executes depends on what the catalogue answers. -/

namespace PyDBLog.Mssql.Texts

open PyDBLog.Model.Python PyDBLog.Model.Frame PyDBLog.Model.Types
open PyDBLog.Mssql.Connector PyDBLog.Mssql.Connector.MSSQLConnector PyDBLog.Mssql.ReadTable
open PyDBLog.Sql.Slots PyDBLog.Sql.Statement PyDBLog.Sql.Text

variable {σ α β : Type}

/-! ### The texts of the methods -/

/-- What `cursor.execute` is given. -/
abbrev Executed := String × List Cell

/-- A call of a method that builds its texts from names. -/
inductive ReadCall
  | inspect (schema table captureSchema : String)
  | readTable (spec : TableSpec) (startPk endPk : Option ℤ) (limit : ℤ)
  | readPkRange (spec : TableSpec)
  | readEventLog (spec : TableSpec) (fromLsn toLsn : LSN)

/-- The method called, without what it returns. -/
def ReadCall.run (conn : MSSQLConnector σ) : ReadCall → Call σ Unit
  | .inspect schema table captureSchema => do let _ ← conn.inspect schema table captureSchema
  | .readTable spec startPk endPk limit => do let _ ← conn.readTable spec startPk endPk limit
  | .readPkRange spec => do let _ ← conn.readPkRange spec
  | .readEventLog spec fromLsn toLsn => do let _ ← conn.readEventLog spec fromLsn toLsn

def pkColumnsQuery : String :=
  "SELECT c.name FROM sys.indexes i " ++
    "JOIN sys.index_columns ic ON ic.object_id = i.object_id " ++
    "AND ic.index_id = i.index_id " ++
    "JOIN sys.columns c ON c.object_id = ic.object_id " ++
    "AND c.column_id = ic.column_id " ++
    "WHERE i.is_primary_key = 1 AND i.object_id = OBJECT_ID(?) " ++
    "ORDER BY ic.key_ordinal"

def columnsQuery : String :=
  "SELECT c.name, t.name AS type_name, c.precision, c.scale, cc.definition " ++
    "FROM sys.columns c " ++
    "JOIN sys.types t ON t.user_type_id = c.user_type_id " ++
    "LEFT JOIN sys.computed_columns cc " ++
    "ON cc.object_id = c.object_id AND cc.column_id = c.column_id " ++
    "WHERE c.object_id = OBJECT_ID(?) " ++
    "ORDER BY c.column_id"

def captureInstanceTemplate : Template :=
  [.text "SELECT ct.capture_instance FROM ", .slot,
    .text ".change_tables ct WHERE ct.source_object_id = OBJECT_ID(?)"]

def pkRangeTemplate : Template :=
  [.text "SELECT MIN([", .slot, .text "]), MAX([", .slot, .text "]) FROM [", .slot, .text "].[", .slot,
    .text "]"]

/-- The select list of an event read up to the business columns. -/
def eventLogFront : String :=
  "SELECT __$start_lsn AS start_lsn, __$seqval AS seqval, __$operation AS operation, " ++
    "__$update_mask AS update_mask, sys.fn_cdc_map_lsn_to_time(__$start_lsn) AS commit_timestamp"

def eventLogTemplate (columns : ℕ) : Template :=
  .text eventLogFront :: ((List.replicate columns [.text ", [", .slot, .text "]"]).flatten ++
    [.text " FROM cdc.fn_cdc_get_all_changes_", .slot,
      .text "(?, ?, N'all') ORDER BY __$start_lsn, __$seqval"])

/-- The fixed texts of a method, with slots for the names. -/
def templates (pagination : Pagination) : ReadCall → List Template
  | .inspect .. => [[.text pkColumnsQuery], captureInstanceTemplate, [.text columnsQuery]]
  | .readTable spec startPk endPk limit =>
    [(statement pagination spec startPk endPk limit).nameless.template]
  | .readPkRange _ => [pkRangeTemplate]
  | .readEventLog spec _ _ => [eventLogTemplate spec.businessColumns.length]

/-- The parameters a method binds: an object's name, the bounds of a key range, the ends of a
window. -/
def Binds (pagination : Pagination) : ReadCall → List Cell → Prop
  | .inspect schema table captureSchema, params =>
    params = [.str s!"{schema}.{table}"] ∨ ∃ captureInstance, isIdentifier captureInstance = true ∧
      params = [.str s!"{captureSchema}.{captureInstance}_CT"]
  | .readTable _ startPk endPk limit, params =>
    params = (parameters pagination startPk endPk limit).map .int
  | .readPkRange _, params => params = []
  | .readEventLog _ fromLsn toLsn, params => params = [.bytes fromLsn, .bytes toLsn]

/-- **What a method may execute**: one of its texts, with identifiers in the slots, and its
parameters. -/
structure Written (pagination : Pagination) (call : ReadCall) (entry : Executed) : Prop where
  text : ∃ template ∈ templates pagination call, ∃ names, Fills template names entry.1 ∧
    ∀ name ∈ names, isIdentifier name = true
  params : Binds pagination call entry.2

/-- The text the capture instance is asked for with. -/
def captureInstanceQuery (captureSchema : String) : String :=
  fill captureInstanceTemplate [captureSchema]

theorem captureInstanceQuery_eq (captureSchema : String) :
    captureInstanceQuery captureSchema = "SELECT ct.capture_instance " ++
      s!"FROM {captureSchema}.change_tables ct " ++ "WHERE ct.source_object_id = OBJECT_ID(?)" := by
  have htoString : ∀ s : String, toString s = s := fun _ => rfl
  refine String.toList_inj.mp ?_
  simp [captureInstanceQuery, captureInstanceTemplate, fill, htoString]

/-! ### Texts from identifiers -/

theorem statement_identifiers {pagination : Pagination} {spec : TableSpec} {startPk endPk : Option ℤ}
    {limit : ℤ} (h : Identifiers spec) (hkeyed : spec.pkColumns ≠ []) :
    ∀ name ∈ (statement pagination spec startPk endPk limit).names, isIdentifier name = true := by
  intro name hname
  rcases Select.mem_names hname with ⟨item, hitem, rfl⟩ | rfl | rfl | ⟨p, hp, rfl⟩ | hkey
  · obtain ⟨column, hcolumn, rfl⟩ := List.mem_map.mp hitem
    exact h.columns column hcolumn
  · exact h.schema
  · exact h.table
  · rw [leading_predicates hp]
    exact h.leading hkeyed
  · exact h.keys name hkey

theorem readTable_written {pagination : Pagination} {spec : TableSpec} {startPk endPk : Option ℤ}
    {limit : ℤ} {query : String} {params : List ℤ}
    (h : buildReadTableQuery pagination spec startPk endPk limit = .ok (query, params)) :
    Written pagination (.readTable spec startPk endPk limit) (query, params.map .int) := by
  obtain ⟨haccepts, rfl, rfl⟩ := buildReadTableQuery_ok.mp h
  have hnames : ∀ name ∈ (statement pagination spec startPk endPk limit).names,
      isIdentifier name = true :=
    statement_identifiers haccepts.identifiers haccepts.keyed
  refine ⟨⟨_, List.mem_singleton_self _, _, ?_, hnames⟩, rfl⟩
  rw [Select.nameless_template]
  exact Select.fills _

theorem readPkRange_written {pagination : Pagination} {spec : TableSpec} {query : String}
    (h : buildPkRangeQuery spec = .ok query) : Written pagination (.readPkRange spec) (query, []) := by
  simp only [buildPkRangeQuery, except_bind_ok, quoteIdentifier_ok] at h
  obtain ⟨_, -, _, ⟨hschema, rfl⟩, _, ⟨htable, rfl⟩, _, ⟨hleading, rfl⟩, h⟩ := h
  obtain rfl := Except.ok.inj h
  generalize spec.pkColumns.headD "" = leading at hleading
  refine ⟨⟨_, List.mem_singleton_self _, [leading, leading, spec.sourceSchema, spec.sourceTable],
    ⟨rfl, ?_⟩, ?_⟩, rfl⟩
  · have htoString : ∀ s : String, toString s = s := fun _ => rfl
    refine String.toList_inj.mp ?_
    simp [pkRangeTemplate, fill, bracketed, htoString]
  · simp [hschema, htable, hleading]

/-- Names in brackets after a list that is not empty. -/
theorem comma_append {front : List String} (hne : front ≠ []) (names : List String) :
    commaJoin (front ++ names.map bracketed) =
      commaJoin front ++ String.join (names.map fun name => ", [" ++ name ++ "]") := by
  induction names generalizing front with
  | nil => simp [commaJoin]
  | cons name names ih =>
    have hstep : commaJoin (front ++ [bracketed name]) = commaJoin front ++ (", [" ++ name ++ "]") := by
      rw [commaJoin, String.intercalate_append_of_ne_nil hne (by simp)]
      refine String.toList_inj.mp ?_
      simp [commaJoin, bracketed]
    rw [List.map_cons, List.append_cons, ih (by simp), hstep, List.map_cons, String.join_cons,
      String.append_assoc]

theorem fills_names (names : List String) :
    Fills (List.replicate names.length [.text ", [", .slot, .text "]"]).flatten names
      (String.join (names.map fun name => ", [" ++ name ++ "]")) := by
  induction names with
  | nil => exact ⟨rfl, rfl⟩
  | cons name names ih =>
    have h := ((Fills.slot name).between ", [" "]").append ih
    simpa [List.replicate_succ] using h

/-- The text an event read executes: the select list, and the function of the capture instance. -/
theorem eventLogQuery_fills {spec : TableSpec} {captureInstance query : String}
    (h : eventLogQuery spec captureInstance = .ok query) : isIdentifier captureInstance = true ∧
      (∀ name ∈ spec.businessColumns, isIdentifier name = true) ∧
      Fills (eventLogTemplate spec.businessColumns.length)
        (spec.businessColumns ++ [captureInstance]) query := by
  simp only [eventLogQuery, except_bind_ok, mapM_quoteIdentifier] at h
  obtain ⟨name, hname, _, ⟨hbusiness, rfl⟩, h⟩ := h
  obtain ⟨hidentifier, rfl⟩ := validateIdentifier_ok.mp hname
  obtain rfl := Except.ok.inj h
  refine ⟨hidentifier, hbusiness, ?_⟩
  have hend := (Fills.slot name).between " FROM cdc.fn_cdc_get_all_changes_"
    "(?, ?, N'all') ORDER BY __$start_lsn, __$seqval"
  have hall := (Fills.text eventLogFront).append ((fills_names spec.businessColumns).append hend)
  have hfront : "SELECT " ++ commaJoin ["__$start_lsn AS start_lsn", "__$seqval AS seqval",
      "__$operation AS operation", "__$update_mask AS update_mask",
      "sys.fn_cdc_map_lsn_to_time(__$start_lsn) AS commit_timestamp"] =
        eventLogFront := by decide +kernel
  have hfrom : " " ++ "FROM cdc.fn_cdc_get_all_changes_" = " FROM cdc.fn_cdc_get_all_changes_" := rfl
  have hafter : "(?, ?, N'all') " ++ "ORDER BY __$start_lsn, __$seqval" =
      "(?, ?, N'all') ORDER BY __$start_lsn, __$seqval" := rfl
  refine ⟨hall.slots_eq, Eq.trans ?_ hall.text_eq⟩
  have htoString : ∀ s : String, toString s = s := fun _ => rfl
  rw [comma_append (by simp), ← hfront, ← hfrom, ← hafter]
  simp only [htoString, String.append_assoc, -String.reduceAppend]

theorem readEventLog_written {pagination : Pagination} {spec : TableSpec}
    {captureInstance query : String} {fromLsn toLsn : LSN}
    (h : eventLogQuery spec captureInstance = .ok query) :
    Written pagination (.readEventLog spec fromLsn toLsn) (query, [.bytes fromLsn, .bytes toLsn]) := by
  obtain ⟨hidentifier, hbusiness, hfills⟩ := eventLogQuery_fills h
  refine ⟨⟨_, List.mem_singleton_self _, _, hfills, ?_⟩, rfl⟩
  intro other hother
  rcases List.mem_append.mp hother with hcolumn | hlast
  · exact hbusiness other hcolumn
  · obtain rfl := List.mem_singleton.mp hlast
    exact hidentifier

/-! ### Refusals -/

/-- Whatever is raised is a ValueError. -/
def OnlyValueError (x : Except PyError α) : Prop :=
  ∀ e, x = .error e → ∃ message, e = .valueError message

theorem OnlyValueError.ok (a : α) : OnlyValueError (.ok a) := fun _ h => by cases h

theorem OnlyValueError.error (message : String) :
    OnlyValueError (.error (.valueError message) : Except PyError α) :=
  fun _ h => ⟨message, (Except.error.inj h).symm⟩

theorem OnlyValueError.bind {x : Except PyError α} {f : α → Except PyError β} (hx : OnlyValueError x)
    (hf : ∀ a, OnlyValueError (f a)) : OnlyValueError (x >>= f) := by
  cases x with
  | ok a => exact hf a
  | error e => exact fun e' h => hx e' (by cases h; rfl)

theorem OnlyValueError.mapM {f : α → Except PyError β} (hf : ∀ a, OnlyValueError (f a)) (xs : List α) :
    OnlyValueError (xs.mapM f) := by
  induction xs with
  | nil => exact .ok _
  | cons x xs ih =>
    rw [List.mapM_cons]
    exact (hf x).bind fun _ => ih.bind fun _ => .ok _

theorem onlyValueError_validateIdentifier (name kind : String) :
    OnlyValueError (validateIdentifier name kind) := by
  unfold validateIdentifier
  split
  · exact .error _
  · exact .ok _

theorem onlyValueError_quoteIdentifier (name kind : String) :
    OnlyValueError (quoteIdentifier name kind) :=
  (onlyValueError_validateIdentifier name kind).bind fun _ => .ok _

theorem onlyValueError_validateReadSpec (spec : TableSpec) : OnlyValueError (validateReadSpec spec) := by
  unfold validateReadSpec
  split_ifs
  · exact .error _
  · exact .error _
  · exact .ok _

/-- A check that does not return raises. -/
theorem OnlyValueError.refuses {x : Except PyError α} (hx : OnlyValueError x) (hno : ∀ a, x ≠ .ok a) :
    ∃ message, x = .error (.valueError message) := by
  cases h : x with
  | ok a => exact absurd h (hno a)
  | error e =>
    obtain ⟨message, rfl⟩ := hx e h
    exact ⟨message, rfl⟩

theorem readTable_refuses {pagination : Pagination} {spec : TableSpec} {startPk endPk : Option ℤ}
    {limit : ℤ} (hno : ¬ Identifiers spec) :
    ∃ message, buildReadTableQuery pagination spec startPk endPk limit =
      .error (.valueError message) := by
  have hbuild : OnlyValueError (buildReadTableQuery.build pagination spec startPk endPk limit) :=
    (onlyValueError_quoteIdentifier _ _).bind fun _ => (onlyValueError_quoteIdentifier _ _).bind fun _ =>
      (OnlyValueError.mapM (fun _ => (onlyValueError_quoteIdentifier _ _).bind fun _ => .ok _) _).bind
        fun _ => (OnlyValueError.mapM (fun _ => onlyValueError_quoteIdentifier _ _) _).bind fun _ =>
          .ok _
  refine OnlyValueError.refuses ?_ fun built hbuilt =>
    hno (buildReadTableQuery_ok.mp hbuilt).1.identifiers
  refine (onlyValueError_validateReadSpec spec).bind fun _ => ?_
  split_ifs
  · exact .error _
  · split
    · split_ifs
      · exact .error _
      · exact hbuild
    · exact hbuild

theorem readPkRange_refuses {spec : TableSpec} {name : String}
    (h : name = spec.sourceSchema ∨ name = spec.sourceTable ∨ name = spec.pkColumns.headD "")
    (hname : ¬ isIdentifier name = true) :
    ∃ message, buildPkRangeQuery spec = .error (.valueError message) := by
  refine OnlyValueError.refuses ?_ fun built hbuilt => ?_
  · exact (onlyValueError_validateReadSpec spec).bind fun _ => (onlyValueError_quoteIdentifier _ _).bind
      fun _ => (onlyValueError_quoteIdentifier _ _).bind fun _ =>
        (onlyValueError_quoteIdentifier _ _).bind
        fun _ => .ok _
  · simp only [buildPkRangeQuery, except_bind_ok, quoteIdentifier_ok] at hbuilt
    obtain ⟨_, -, _, ⟨hschema, -⟩, _, ⟨htable, -⟩, _, ⟨hleading, -⟩, -⟩ := hbuilt
    rcases h with rfl | rfl | rfl
    · exact hname hschema
    · exact hname htable
    · exact hname hleading

theorem readEventLog_refuses {spec : TableSpec} {captureInstance name : String}
    (h : name = captureInstance ∨ name ∈ spec.businessColumns) (hname : ¬ isIdentifier name = true) :
    ∃ message, eventLogQuery spec captureInstance = .error (.valueError message) := by
  refine OnlyValueError.refuses ?_ fun built hbuilt => ?_
  · exact (onlyValueError_validateIdentifier _ _).bind fun _ =>
      (OnlyValueError.mapM (fun _ => onlyValueError_quoteIdentifier _ _) _).bind fun _ => .ok _
  · simp only [eventLogQuery, except_bind_ok, mapM_quoteIdentifier, validateIdentifier_ok] at hbuilt
    obtain ⟨_, ⟨hinstance, -⟩, _, ⟨hbusiness, -⟩, -⟩ := hbuilt
    rcases h with rfl | hcolumn
    · exact hname hinstance
    · exact hname (hbusiness name hcolumn)

/-! ### What a call on a table asks -/

/-- **What a call on a table may execute.** -/
inductive Asks (pagination : Pagination) (schema table : String) : Executed → Prop
  | minLsn (captureInstance : String) : Asks pagination schema table
      ("SELECT sys.fn_cdc_get_min_lsn(?) as min_lsn", [.str captureInstance])
  | maxLsn : Asks pagination schema table ("SELECT sys.fn_cdc_get_max_lsn() as max_lsn", [])
  | clock : Asks pagination schema table ("SELECT SYSDATETIME()", [])
  | scans (mark : Datetime) : Asks pagination schema table
      (capturePassedQuery, [.datetime mark, .datetime mark])
  | keys : Asks pagination schema table (pkColumnsQuery, [.str s!"{schema}.{table}"])
  | captureInstance :
      Asks pagination schema table (captureInstanceQuery "cdc", [.str s!"{schema}.{table}"])
  | columns : Asks pagination schema table (columnsQuery, [.str s!"{schema}.{table}"])
  | changeTable {captureInstance : String} (identifier : isIdentifier captureInstance = true) :
      Asks pagination schema table (columnsQuery, [.str s!"cdc.{captureInstance}_CT"])
  | changes {columns : List String} {captureInstance : String} (fromLsn toLsn : LSN)
      (identifiers : ∀ name ∈ columns ++ [captureInstance], isIdentifier name = true) :
      Asks pagination schema table
        (fill (eventLogTemplate columns.length) (columns ++ [captureInstance]),
          [.bytes fromLsn, .bytes toLsn])
  | page {spec : TableSpec} {startPk endPk : Option ℤ} {limit : ℤ}
      (accepts : Accepts spec startPk endPk limit) (schema_eq : spec.sourceSchema = schema)
      (table_eq : spec.sourceTable = table) :
      Asks pagination schema table ((statement pagination spec startPk endPk limit).text,
        (parameters pagination startPk endPk limit).map .int)

theorem Asks.of_eventLogQuery {pagination : Pagination} {schema table : String} {spec : TableSpec}
    {captureInstance query : String} (h : eventLogQuery spec captureInstance = .ok query)
    (fromLsn toLsn : LSN) :
    Asks pagination schema table (query, [.bytes fromLsn, .bytes toLsn]) := by
  obtain ⟨hidentifier, hbusiness, hfills⟩ := eventLogQuery_fills h
  rw [hfills.text_eq]
  refine .changes fromLsn toLsn fun name hname => ?_
  rcases List.mem_append.mp hname with hname | hname
  · exact hbusiness name hname
  · rw [List.mem_singleton.mp hname]
    exact hidentifier

end PyDBLog.Mssql.Texts
