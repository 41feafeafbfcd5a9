import PyDBLog.Model.Guarded
import PyDBLog.Mssql.Driver
import PyDBLog.Mssql.Identifiers
import PyDBLog.Mssql.OneSchema

/-! # What a call asks the server

A call of `dblog()` or of `state_at_lsn()` executes SELECTs of a few forms and nothing else: the
clock and the positions of the log, the scan sessions, the catalogue of the table it was asked for,
the changes of a capture instance and rows of that table (`Asks`). So it is whatever state the call
is given, written back by whoever had it, and whatever the server answers (`call_asks`): a state of
another table is refused before its names are used. -/

namespace PyDBLog.Mssql.Questions

open PyDBLog.Model.Python PyDBLog.Model.Frame PyDBLog.Model.Types PyDBLog.Model.Connector
open PyDBLog.Model.DBLog PyDBLog.Model.Returns PyDBLog.Model.Worlds PyDBLog.Model.Raises
open PyDBLog.Model.Guarded PyDBLog.Model.Links PyDBLog.Mssql.Driver
open PyDBLog.Mssql.Connector PyDBLog.Mssql.Connector.MSSQLConnector
open PyDBLog.Mssql.ReadTable hiding items
open PyDBLog.Mssql.Texts PyDBLog.Mssql.Identifiers
open PyDBLog.Sql.Slots PyDBLog.Sql.Statement PyDBLog.Sql.Text

variable {σ α β : Type}

/-! ### The questions -/

variable {pagination : Pagination} {schema table : String} {entry : Executed}

/-- The question marks a template fixes. -/
def marksOf : Template → ℕ
  | [] => 0
  | .text s :: t => s.toList.count '?' + marksOf t
  | .slot :: t => marksOf t

theorem marksOf_append (t u : Template) : marksOf (t ++ u) = marksOf t + marksOf u := by
  induction t with
  | nil => simp [marksOf]
  | cons piece t ih => cases piece <;> simp [marksOf, ih, Nat.add_assoc]

/-- No mark but those of the template is in a text written from identifiers. -/
theorem count_fill {t : Template} {names : List String} (h : slots t = names.length)
    (hnames : ∀ name ∈ names, isIdentifier name = true) :
    (fill t names).toList.count '?' = marksOf t := by
  induction t generalizing names with
  | nil => simp [fill, marksOf]
  | cons piece t ih =>
    cases piece with
    | text s =>
      have htail : slots t = names.length := by simpa [slots] using h
      simp [fill, marksOf, ih htail hnames]
    | slot =>
      cases names with
      | nil => simp [slots] at h
      | cons name names =>
        have htail : slots t = names.length := by simpa [slots] using h
        have hname : name.toList.count '?' = 0 :=
          List.count_eq_zero.mpr (plain_of_isIdentifier (hnames name List.mem_cons_self)).notMem
        have hrest := ih htail fun other hother => hnames other (List.mem_cons_of_mem _ hother)
        simp [fill, marksOf, hname, hrest]

theorem marksOf_eventLog (n : ℕ) : marksOf (eventLogTemplate n) = 2 := by
  have hnames : marksOf (List.replicate n [.text ", [", .slot, .text "]"]).flatten = 0 := by
    induction n with
    | zero => rfl
    | succ n ih => rw [List.replicate_succ, List.flatten_cons, marksOf_append, ih]; rfl
  have hfront : eventLogFront.toList.count '?' = 0 := by decide +kernel
  rw [eventLogTemplate, marksOf, marksOf_append, hnames, hfront]
  rfl

/-- **Every question binds as many values as it has question marks.** -/
theorem Asks.binds (h : Asks pagination schema table entry) :
    entry.1.toList.count '?' = entry.2.length := by
  cases h with
  | minLsn captureInstance =>
    exact (by decide +kernel : "SELECT sys.fn_cdc_get_min_lsn(?) as min_lsn".toList.count '?' = 1)
  | maxLsn => decide +kernel
  | clock => decide +kernel
  | scans mark => exact (by decide +kernel : capturePassedQuery.toList.count '?' = 2)
  | keys => exact (by decide +kernel : pkColumnsQuery.toList.count '?' = 1)
  | captureInstance => exact (by decide +kernel : (captureInstanceQuery "cdc").toList.count '?' = 1)
  | columns => exact (by decide +kernel : columnsQuery.toList.count '?' = 1)
  | changeTable identifier => exact (by decide +kernel : columnsQuery.toList.count '?' = 1)
  | @changes columns captureInstance fromLsn toLsn identifiers =>
    have hslots : slots (eventLogTemplate columns.length) = (columns ++ [captureInstance]).length := by
      have h := ((Fills.text eventLogFront).append ((fills_names columns).append
        ((Fills.slot captureInstance).between " FROM cdc.fn_cdc_get_all_changes_"
          "(?, ?, N'all') ORDER BY __$start_lsn, __$seqval"))).slots_eq
      exact h
    exact (count_fill hslots identifiers).trans (marksOf_eventLog _)
  | page accepts schema_eq table_eq =>
    rw [Select.count_eq, (marks_isFor accepts.identifiers accepts.keyed).length_eq, List.length_map]

/-! ### What each primitive asks -/

variable {conn : MSSQLConnector σ}

theorem lifted_grows {P : Executed → Prop} (x : Call σ α) : Moves (Grows P) (lifted x) := by
  intro s
  show Grows P s (leaves (lifted x s))
  unfold lifted
  cases x s.1 <;> exact Grows.refl s

theorem getMinLsn_asks (captureInstance : String) :
    Moves (Grows (Asks conn.pagination schema table)) ((logged conn).getMinLsn captureInstance) := by
  refine grows_bind (execute_grows (.minLsn captureInstance)) fun result => ?_
  dsimp only
  split_ifs
  · exact grows_throw _
  · exact grows_ofExcept _

theorem getMaxLsn_asks : Moves (Grows (Asks conn.pagination schema table)) (logged conn).getMaxLsn := by
  refine grows_bind (execute_grows .maxLsn) fun result => ?_
  dsimp only
  split_ifs
  · exact grows_throw _
  · exact grows_ofExcept _

theorem watermark_asks : Moves (Grows (Asks conn.pagination schema table)) (logged conn).watermark := by
  refine grows_bind (execute_grows .clock) fun result => ?_
  split
  · exact grows_throw _
  · exact grows_pure _
  · exact grows_throw _

theorem awaitLoop_asks (mark : Datetime) (deadline : ℤ) : ∀ polls,
    Moves (Grows (Asks conn.pagination schema table)) ((logged conn).awaitLoop mark deadline polls)
  | 0 => grows_pure _
  | polls + 1 => by
    have hpassed : Moves (Grows (Asks conn.pagination schema table))
      ((logged conn).capturePassed mark) := by
      exact grows_bind (execute_grows (.scans mark)) fun result => grows_pure _
    refine grows_bind (lifted_grows _) fun time => ?_
    split_ifs
    · refine grows_bind hpassed fun passed => ?_
      split_ifs
      · exact grows_pure _
      · exact grows_bind (lifted_grows _) fun _ => awaitLoop_asks mark deadline polls
    · exact grows_pure _

theorem awaitWatermark_asks (mark : Datetime) :
    Moves (Grows (Asks conn.pagination schema table)) ((logged conn).awaitWatermark mark) := by
  refine grows_bind (lifted_grows _) fun started => grows_bind (awaitLoop_asks mark _ _) fun passed => ?_
  split_ifs
  · exact grows_pure _
  · exact grows_throw _

theorem inspect_catalogue_asks {otherSchema otherTable : String}
    (h : s!"{otherSchema}.{otherTable}" = s!"{schema}.{table}") :
    Moves (Grows (Asks conn.pagination schema table))
      ((logged conn).inspect otherSchema otherTable "cdc") := by
  obtain ⟨rest, heq, hrest⟩ := inspect_eq conn otherSchema otherTable "cdc"
  rw [heq, h]
  refine grows_bind (readPkColumns_grows .keys) fun pkColumns =>
    grows_bind (readCaptureInstance_grows .captureInstance) (hrest ⟨?_, ?_, ?_⟩ pkColumns)
  · rw [h]; exact .captureInstance
  · rw [h]; exact .columns
  · exact fun _ hidentifier => .changeTable hidentifier

theorem readEventLog_asks (spec : TableSpec) (fromLsn toLsn : LSN) :
    Moves (Grows (Asks conn.pagination schema table))
      ((logged conn).readEventLog spec fromLsn toLsn) := by
  unfold MSSQLConnector.readEventLog
  split
  · exact grows_throw _
  · refine grows_checked fun query hquery => ?_
    refine grows_bind (execute_grows (.of_eventLogQuery hquery fromLsn toLsn)) fun _ => ?_
    split_ifs
    · exact grows_pure _
    · exact grows_bind (grows_ofExcept _) fun _ => grows_bind (grows_ofExcept _) fun _ => grows_pure _

/-- Names without a dot are what they are joined to. -/
theorem qualified_inj {otherSchema otherTable : String} (hschema : isIdentifier otherSchema = true)
    (htable : isIdentifier otherTable = true)
    (h : otherSchema ++ "." ++ otherTable = s!"{schema}.{table}") :
    otherSchema = schema ∧ otherTable = table := by
  have hdot : ∀ {name : String}, isIdentifier name = true → '.' ∉ name.toList := by
    intro name hname hmem
    simp only [isIdentifier, Bool.and_eq_true, List.all_eq_true] at hname
    exact absurd (hname.2 _ hmem) (by decide)
  have hlist : otherSchema.toList ++ '.' :: otherTable.toList =
      schema.toList ++ '.' :: table.toList := by
    have htoString : ∀ s : String, toString s = s := fun _ => rfl
    simpa [htoString] using congrArg String.toList h
  have := (List.append_cons_inj_of_notMem (hdot hschema) (hdot htable)).mp hlist
  exact ⟨String.toList_inj.mp this.1, String.toList_inj.mp this.2.2⟩

theorem readTable_asks {spec : TableSpec} (h : spec.qualifiedName = s!"{schema}.{table}")
    (startPk endPk : Option ℤ) (limit : ℤ) :
    Moves (Grows (Asks conn.pagination schema table))
      ((logged conn).readTable spec startPk endPk limit) := by
  refine grows_checked fun built hbuilt => ?_
  obtain ⟨query, params⟩ := built
  obtain ⟨haccepts, rfl, rfl⟩ := buildReadTableQuery_ok.mp hbuilt
  obtain ⟨hschema, htable⟩ := qualified_inj haccepts.identifiers.schema haccepts.identifiers.table h
  exact grows_bind (execute_grows (.page haccepts hschema htable)) fun _ =>
    grows_bind (grows_ofExcept _) fun _ => grows_bind (grows_ofExcept _) fun _ => grows_pure _

/-! ### A call -/

/-- The source, inspecting what has one qualified name alone. -/
def inspecting (schema table : String) (C : SourceConnector σ) : SourceConnector σ :=
  { C with
    inspect := fun otherSchema otherTable =>
      if s!"{otherSchema}.{otherTable}" = s!"{schema}.{table}" then C.inspect otherSchema otherTable
      else throw (.valueError "not the table") }

/-- The source, inspecting and reading what has one qualified name alone. -/
noncomputable def asking (schema table : String) (C : SourceConnector σ) : SourceConnector σ :=
  guarded (fun spec => spec.qualifiedName = s!"{schema}.{table}") (inspecting schema table C)

theorem moving_asking : Moving (Grows (Asks conn.pagination schema table))
    (asking schema table (logged conn).source) where
  refl := Grows.refl
  trans := Grows.trans
  getMaxLsn := getMaxLsn_asks
  getMinLsn := getMinLsn_asks
  watermark := watermark_asks
  awaitWatermark := awaitWatermark_asks
  inspect otherSchema otherTable := by
    show Moves _ (if s!"{otherSchema}.{otherTable}" = s!"{schema}.{table}" then _ else _)
    split_ifs with h
    · exact inspect_catalogue_asks h
    · exact grows_throw _
  readEventLog spec fromLsn toLsn := by
    unfold asking guarded
    dsimp only
    split_ifs
    · exact readEventLog_asks _ _ _
    · exact grows_throw _
  toEvents _ _ _ := grows_ofExcept _
  readTable spec startPk endPk limit := by
    unfold asking guarded
    dsimp only
    split_ifs with h
    · exact readTable_asks h _ _ _
    · exact grows_throw _
  incrementLsn _ := grows_ofExcept _

section asking

variable {C : SourceConnector σ} {now : ℤ} {w w' : σ} {given : Option RunState}
  {inspectEvery : Option Timedelta} {opened : RunState}

theorem inspecting_inspect {otherSchema otherTable : String}
    (h : s!"{otherSchema}.{otherTable}" = s!"{schema}.{table}") :
    (inspecting schema table C).inspect otherSchema otherTable = C.inspect otherSchema otherTable :=
      if_pos h

/-- A call inspects nothing else. -/
theorem openRun_inspecting : openRun (inspecting schema table C) now schema table given inspectEvery w =
    openRun C now schema table given inspectEvery w := by
  cases given with
  | none =>
    show ((inspecting schema table C).inspect schema table >>= _) w = _
    rw [inspecting_inspect rfl]
    rfl
  | some st =>
    refine bind_congr_ok rfl fun _ w₁ hcheck => ?_
    have hname := checkTable_ok.mp (ofExcept_ok.mp hcheck).1
    have hrefresh : refreshSpec (inspecting schema table C) now st inspectEvery =
        refreshSpec C now st inspectEvery := by
      unfold refreshSpec
      rw [inspecting_inspect hname]
    rw [hrefresh]
    rfl

/-- A call opens with a spec of that name. -/
theorem opened_asked (hnames : ∀ {schema table w spec w'}, C.inspect schema table w = .ok spec w' →
      spec.sourceSchema = schema ∧ spec.sourceTable = table)
    (h : openRun C now schema table given inspectEvery w = .ok opened w') :
    opened.spec.qualifiedName = s!"{schema}.{table}" := by
  cases given with
  | none =>
    obtain ⟨spec, _, _, _, _, _, hi, -, -, -, rfl⟩ := seed_ok.mp h
    obtain ⟨rfl, rfl⟩ := hnames hi
    rfl
  | some st =>
    obtain ⟨w₁, _, _, hname, hr, -, -, -⟩ := openRun_some h
    rcases refreshSpec_ok hr with ⟨rfl, -⟩ | ⟨fresh, hi, -, -, rfl⟩
    · exact hname
    · obtain ⟨hschema, htable⟩ := hnames hi
      rw [TableSpec.qualifiedName, hschema, htable]
      exact hname

/-- **A call is the same on the source that asks about the one table.** -/
theorem dblog_asking (hnames : ∀ {schema table w spec w'}, C.inspect schema table w = .ok spec w' →
      spec.sourceSchema = schema ∧ spec.sourceTable = table) (chunkSize : ℤ) :
    dblog (asking schema table C) now schema table given chunkSize inspectEvery w =
      dblog C now schema table given chunkSize inspectEvery w := by
  rw [asking, dblog_guarded fun opened w₁ ho => opened_asked hnames (openRun_inspecting ▸ ho)]
  unfold dblog
  split_ifs
  · rfl
  · exact bind_congr_ok openRun_inspecting fun _ _ _ => rfl

theorem stateAtLsn_asking (fromLsn : LSN) (dumpDone : Bool) :
    stateAtLsn (asking schema table C) now schema table fromLsn dumpDone =
      stateAtLsn C now schema table fromLsn dumpDone := by
  have hinspect : (asking schema table C).inspect schema table = C.inspect schema table :=
    inspecting_inspect rfl
  unfold stateAtLsn
  rw [hinspect]
  rfl

end asking

/-- What the library is called for: a batch, or a state at a position. -/
inductive Purpose
  | batch (state : Option RunState) (chunkSize : ℤ) (inspectEvery : Option Timedelta)
  | position (fromLsn : LSN) (dumpDone : Bool)

/-- A call of the library. -/
structure LibraryCall where
  now : ℤ
  schema : String
  table : String
  purpose : Purpose

/-- What a call leaves of a world, returning or raising. -/
def LibraryCall.leavesFrom (C : SourceConnector σ) (w : σ) (call : LibraryCall) : σ :=
  match call.purpose with
  | .batch state chunkSize inspectEvery =>
    leaves (dblog C call.now call.schema call.table state chunkSize inspectEvery w)
  | .position fromLsn dumpDone =>
    leaves (stateAtLsn C call.now call.schema call.table fromLsn dumpDone w)

/-! ### The record -/

theorem lifted_follows (x : Call σ α) : Follows firstLink (lifted x) x where
  moves _ := trivial
  returns := by
    rintro ⟨w, log⟩ _ a s' rfl h
    unfold lifted at h
    cases hx : x w <;> simp only [hx] at h <;> cases h
    exact ⟨_, rfl, rfl⟩
  raises := by
    rintro ⟨w, log⟩ _ e s' rfl h
    unfold lifted at h
    cases hx : x w <;> simp only [hx] at h <;> cases h
    exact ⟨_, Or.inl rfl, rfl⟩

/-- A connector that records does what the connector does. -/
theorem logged_follows (conn : MSSQLConnector σ) : DriverFollows firstLink (logged conn) conn where
  execute text params :=
    { moves := fun _ => trivial
      -- the entry is in the record before the driver is asked
      returns := fun {s} _ _ _ hrel h =>
        (lifted_follows (conn.execute text params)).returns (s := (s.1, s.2 ++ [(text, params)])) hrel h
      raises := fun {s} _ _ _ hrel h =>
        (lifted_follows (conn.execute text params)).raises (s := (s.1, s.2 ++ [(text, params)])) hrel h }
  monotonic := lifted_follows _
  sleep _ := lifted_follows _
  lib := rfl
  pagination := rfl
  watermarkTimeout := rfl
  watermarkPoll := rfl
  maxPolls := rfl
  isoformat := rfl
  seconds := rfl

/-- **Whatever it is given and whatever it is answered**, a call executes nothing but questions
about the table it was asked for, each with a value for every question mark; and the call that
records them leaves the world as the call leaves it. -/
theorem call_asks (conn : MSSQLConnector σ) (call : LibraryCall) (w : σ) :
    (LibraryCall.leavesFrom (logged conn).source (w, []) call).1 =
      LibraryCall.leavesFrom conn.source w call ∧
      ∀ entry ∈ (LibraryCall.leavesFrom (logged conn).source (w, []) call).2,
        Asks conn.pagination call.schema call.table entry ∧
          entry.1.toList.count '?' = entry.2.length := by
  have hsame : Simulates firstLink (logged conn).source conn.source :=
    (logged_follows conn).simulates_source
  have hgrows : Grows (Asks conn.pagination call.schema call.table) (w, [])
      (LibraryCall.leavesFrom (logged conn).source (w, []) call) := by
    obtain ⟨now, schema, table, purpose⟩ := call
    have hC : Moving (Grows (Asks conn.pagination schema table))
      (asking schema table (logged conn).source) :=
      moving_asking
    cases purpose with
    | batch state chunkSize inspectEvery =>
      have h := hC.dblog now schema table state chunkSize inspectEvery (w, [])
      rwa [dblog_asking fun hi => ⟨(inspect_ok hi).1, (inspect_ok hi).2.1⟩] at h
    | position fromLsn dumpDone =>
      have h := hC.stateAtLsn now schema table fromLsn dumpDone (w, [])
      rwa [stateAtLsn_asking] at h
  refine ⟨?_, fun entry hentry => ?_⟩
  · obtain ⟨now, schema, table, purpose⟩ := call
    cases purpose with
    | batch state chunkSize inspectEvery =>
      exact leaves_first (hsame.dblog now schema table state chunkSize inspectEvery) w []
    | position fromLsn dumpDone =>
      exact leaves_first (hsame.stateAtLsn now schema table fromLsn dumpDone) w []
  · obtain ⟨more, heq, hmore⟩ := hgrows
    rw [heq] at hentry
    exact ⟨hmore entry hentry, Asks.binds (hmore entry hentry)⟩

/-! ### A window of the items -/

open PyDBLog.World.InMemory PyDBLog.Mssql.OneSchema

/-- The question for the changes of the items. -/
def itemsChanges : Executed :=
  ("SELECT __$start_lsn AS start_lsn, __$seqval AS seqval, __$operation AS operation, " ++
    "__$update_mask AS update_mask, sys.fn_cdc_map_lsn_to_time(__$start_lsn) AS commit_timestamp, [id], [name] " ++
    "FROM cdc.fn_cdc_get_all_changes_dbo_items(?, ?, N'all') ORDER BY __$start_lsn, __$seqval",
    [.bytes (lsnAt 4), .bytes (lsnAt 4)])

def itemsWindow : LibraryCall := ⟨0, "dbo", "items", .batch (some (itemsAt 4)) 5 none⟩

set_option maxRecDepth 100000 in
theorem itemsWindow_executed : (itemsWindow.leavesFrom (logged scripted).source (windowScript, [])).2 =
    [("SELECT sys.fn_cdc_get_min_lsn(?) as min_lsn", [.str "dbo_items"]),
      ("SELECT sys.fn_cdc_get_max_lsn() as max_lsn", []), itemsChanges] := rfl

theorem call_asks_items : Asks .fetch "dbo" "items" itemsChanges ∧
    itemsChanges.1.toList.count '?' = itemsChanges.2.length :=
  (call_asks scripted itemsWindow windowScript).2 itemsChanges (by rw [itemsWindow_executed]; simp)

end PyDBLog.Mssql.Questions
