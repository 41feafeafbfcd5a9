import PyDBLog.World.Log
import PyDBLog.Model.Returns

/-! # What superseding comes to

Dropping the chunk rows a window carries is a filter: `supersede` keeps the rows whose key no row of
the window has, whether it takes the shortcut or the anti-join (`supersede_eq`), and a merge is the
window followed by what is kept, stamped (`mergeChunk_eq`). Where no key of the chunk holds a null
the match is plain equality of the whole key (`superseding_is_plain`). -/

namespace PyDBLog.Mssql.Superseding

open PyDBLog.Model.Python PyDBLog.Model.Frame PyDBLog.Model.Types PyDBLog.Model.Connector
open PyDBLog.Model.DBLog PyDBLog.Model.Returns
open PyDBLog.Mssql.Schema PyDBLog.Mssql.Connector PyDBLog.World.Log

variable {σ : Type} {conn : MSSQLConnector σ} {spec : TableSpec} {chunk : DataFrame}
  {window : Option DataFrame} {low : Option Datetime}

/-! ### Selecting the key -/

/-- A selection keeps the dtypes. -/
theorem dtypeOf_fieldsOf {df : DataFrame} {rows : List Row} {name : String} :
    ∀ {names : List String}, (∀ n ∈ names, n ∈ df.columns) → name ∈ names →
      DataFrame.dtypeOf ⟨df.fieldsOf names, rows⟩ name = df.dtypeOf name
  | [], _, h => by simp at h
  | n :: names, hcols, h => by
    obtain ⟨dtype, hd⟩ := DataFrame.dtypeOf_isSome (hcols n (by simp))
    have ih : name ∈ names → DataFrame.dtypeOf ⟨df.fieldsOf names, rows⟩ name = df.dtypeOf name :=
      dtypeOf_fieldsOf fun m hm => hcols m (by simp [hm])
    rw [DataFrame.fieldsOf, DataFrame.dtypeOf] at ih ⊢
    rw [List.filterMap_cons_some (by rw [hd]; rfl)]
    by_cases hn : n = name
    · subst hn
      simp [hd]
    · rw [List.find?_cons_of_neg (by simpa using hn)]
      exact ih ((List.mem_cons.mp h).resolve_left (Ne.symm hn))

theorem select_returns {df : DataFrame} {names : List String} (hn : names.Nodup)
    (hc : ∀ name ∈ names, name ∈ df.columns) : ∃ sel, df.select names = .ok sel ∧
      sel.columns = names ∧ ∀ name ∈ names, sel.dtypeOf name = df.dtypeOf name := by
  refine ⟨⟨df.fieldsOf names, df.rows.map fun row => cellsOf df.columns row names⟩, ?_, ?_, ?_⟩
  · rw [DataFrame.select, if_neg (not_not.mpr hn), if_neg (not_not.mpr hc)]
  · exact DataFrame.map_fst_fieldsOf hc
  · exact fun name h => dtypeOf_fieldsOf hc h

/-! ### The joins -/

/-- The key columns are in the window, under the dtypes they have in the chunk. -/
def Beside (chunk window : DataFrame) (keys : List String) : Prop :=
  ∀ name ∈ keys, name ∈ window.columns ∧ window.dtypeOf name = chunk.dtypeOf name

/-- **The key joins of a window and a chunk return.** -/
theorem supersede_returns {window : DataFrame} (hpk : spec.pkColumns.Nodup)
    (hchunk : ∀ name ∈ spec.pkColumns, name ∈ chunk.columns)
    (hwindow : Beside chunk window spec.pkColumns) :
    ∃ kept, supersede chunk (some window) spec = .ok kept := by
  obtain ⟨selWindow, hsw, hswc, hswd⟩ := select_returns hpk fun name h => (hwindow name h).1
  obtain ⟨selChunk, hsc, hscc, hscd⟩ := select_returns hpk hchunk
  have hdtype : ∀ name ∈ spec.pkColumns, chunk.dtypeOf name = selWindow.dtypeOf name := fun name h => by
    rw [hswd name h, (hwindow name h).2]
  have hsemi : DataFrame.joinable selChunk selWindow.unique spec.pkColumns = true := by
    refine decide_eq_true ⟨hpk, fun name h => ⟨hscc ▸ h, ?_, ?_⟩⟩
    · exact (show selWindow.unique.columns = spec.pkColumns from hswc) ▸ h
    · exact (hscd name h).trans (hdtype name h)
  have hanti : DataFrame.joinable chunk selWindow.unique spec.pkColumns = true := by
    refine decide_eq_true ⟨hpk, fun name h => ⟨hchunk name h, ?_, hdtype name h⟩⟩
    exact (show selWindow.unique.columns = spec.pkColumns from hswc) ▸ h
  by_cases hempty : window.isEmpty = true
  · exact ⟨chunk, by rw [supersede, if_pos hempty]⟩
  let overlap : DataFrame :=
    ⟨selChunk.schema, selChunk.rows.filter (selChunk.hasMatch selWindow.unique spec.pkColumns)⟩
  have hoverlap : selChunk.semiJoin selWindow.unique spec.pkColumns = .ok overlap := by
    rw [DataFrame.semiJoin, if_neg (not_not.mpr hsemi)]
  have hkept : chunk.antiJoin selWindow.unique spec.pkColumns = .ok ⟨chunk.schema,
      chunk.rows.filter fun row => !chunk.hasMatch selWindow.unique spec.pkColumns row⟩ := by
    rw [DataFrame.antiJoin, if_neg (not_not.mpr hanti)]
  have hreads : ∀ kept, (if overlap.isEmpty then .ok chunk
      else chunk.antiJoin selWindow.unique spec.pkColumns) = .ok kept →
      supersede chunk (some window) spec = .ok kept := by
    intro kept h
    rw [supersede, if_neg hempty]
    simp only [except_bind_ok]
    exact ⟨selWindow, hsw, selChunk, hsc, overlap, hoverlap, h⟩
  by_cases ho : overlap.isEmpty = true
  · exact ⟨chunk, hreads chunk (if_pos ho)⟩
  · exact ⟨_, hreads _ ((if_neg ho).trans hkept)⟩

/-- **Both paths of `supersede` are one filter.** -/
theorem supersede_eq (hpk : spec.pkColumns.Nodup) (hchunk : ∀ name ∈ spec.pkColumns, name ∈ chunk.columns)
    (hwindow : ∀ top ∈ window, Beside chunk top spec.pkColumns) :
    supersede chunk window spec = .ok ⟨chunk.schema, survivors chunk window spec.pkColumns⟩ := by
  have hkept : ∃ kept, supersede chunk window spec = .ok kept := by
    cases window with
    | none => exact ⟨chunk, rfl⟩
    | some top => exact supersede_returns hpk hchunk (hwindow top rfl)
  obtain ⟨kept, hkept⟩ := hkept
  obtain ⟨hschema, hrows⟩ := supersede_ok hkept
  rw [hkept, ← hschema, ← hrows]

/-! ### The merge -/

/-- The columns a dump row is stamped with, as polars has them. -/
def stampSchema : List (String × DType) :=
  [("start_lsn", .binary), ("seqval", .binary), ("operation", .int32), ("update_mask", .binary),
    ("commit_timestamp", .datetime .us)]

theorem stampSchema_names : stampSchema.map Prod.fst = metadataColumns := rfl

/-- The columns of an event frame over a chunk. -/
theorem stamped_columns {df : DataFrame} (h : df.schema = stampSchema ++ chunk.schema) :
    df.columns = metadataColumns ++ chunk.columns := by
  rw [DataFrame.columns, h, List.map_append, stampSchema_names]
  rfl

/-- Stamping leaves the key of a row as it is. -/
theorem key_stamp {keys : List String} (hnames : (metadataColumns ++ chunk.columns).Nodup)
    (hchunk : ∀ name ∈ keys, name ∈ chunk.columns) (row : Row) :
    cellsOf (metadataColumns ++ chunk.columns) (stamp spec low ++ row) keys =
      cellsOf chunk.columns row keys :=
  cellsOf_append (by rfl) fun name h hm => (List.nodup_append.mp hnames).2.2 _ hm _ (hchunk name h) rfl

/-- Stamping returns where no name repeats. -/
theorem toEvents_eq {rows : DataFrame}
    (hnames : (metadataColumns ++ rows.columns).Nodup) : MSSQLConnector.toEvents rows spec low =
      .ok ⟨stampSchema ++ rows.schema, rows.rows.map fun row => stamp spec low ++ row⟩ := by
  have hn : ((stampSchema ++ rows.schema).map Prod.fst).Nodup := by
    rw [List.map_append, stampSchema_names]
    exact hnames
  exact if_neg (not_not.mpr hn)

/-- A column of a chunk has one dtype in it and in an event frame over it. -/
theorem beside_of_schema {top : DataFrame} {keys : List String}
    (hnames : (metadataColumns ++ chunk.columns).Nodup) (hchunk : ∀ name ∈ keys, name ∈ chunk.columns)
    (hschema : top.schema = stampSchema ++ chunk.schema) : Beside chunk top keys := by
  intro name hn
  refine ⟨stamped_columns hschema ▸ List.mem_append_right _ (hchunk name hn), ?_⟩
  have hmeta : (stampSchema.find? fun field => field.1 == name) = none := by
    rw [List.find?_eq_none]
    intro field hf h
    have hmem : field.1 ∈ metadataColumns := stampSchema_names ▸ List.mem_map_of_mem hf
    exact (List.nodup_append.mp hnames).2.2 _ hmem _ (hchunk name hn) (beq_iff_eq.mp h)
  rw [DataFrame.dtypeOf, DataFrame.dtypeOf, hschema, List.find?_append, hmeta, Option.none_or]

/-- **A merge is the window followed by the stamped survivors.** -/
theorem mergeChunk_eq (hpk : spec.pkColumns.Nodup)
    (hchunk : ∀ name ∈ spec.pkColumns, name ∈ chunk.columns)
    (hnames : (metadataColumns ++ chunk.columns).Nodup)
    (hwindow : ∀ top ∈ window, top.schema = stampSchema ++ chunk.schema) (low : Datetime) (w : σ) :
    mergeChunk conn.source chunk window low spec w = .ok ⟨stampSchema ++ chunk.schema,
      windowRows window ++ (survivors chunk window spec.pkColumns).map
        fun row => stamp spec (some low) ++ row⟩ w := by
  have hkept := supersede_eq hpk hchunk fun top h => beside_of_schema hnames hchunk (hwindow top h)
  have hevents : ∀ rows : List Row, conn.source.toEvents ⟨chunk.schema, rows⟩ spec (some low) w =
      .ok ⟨stampSchema ++ chunk.schema, rows.map fun row => stamp spec (some low) ++ row⟩ w :=
    fun rows => ofExcept_ok.mpr ⟨toEvents_eq hnames, rfl⟩
  simp only [mergeChunk, bind_ok, ofExcept_ok]
  refine ⟨_, w, ⟨hkept, rfl⟩, _, w, hevents _, ?_⟩
  cases window with
  | none => exact pure_ok.mpr ⟨rfl, rfl⟩
  | some top =>
    have hschema := hwindow top rfl
    by_cases hempty : top.isEmpty = true
    · have hnil : top.rows = [] := List.isEmpty_iff.mp hempty
      simp only [if_pos hempty, windowRows, hnil, List.nil_append]
      exact pure_ok.mpr ⟨rfl, rfl⟩
    · simp only [if_neg hempty]
      refine ofExcept_ok.mpr ⟨?_, rfl⟩
      show DataFrame.concat₂ top _ = _
      rw [DataFrame.concat₂, if_neg (not_not.mpr hschema), hschema]
      rfl

/-! ### Against the plain definition -/

/-- The keys of a window's rows. -/
def windowKeys (window : Option DataFrame) (keys : List String) : List (List Cell) :=
  window.toList.flatMap fun top => top.rows.map fun event => cellsOf top.columns event keys

/-- The rows of a chunk whose whole key no row of the window has. -/
def unsuperseded (chunk : DataFrame) (window : Option DataFrame) (keys : List String) : List Row :=
  chunk.rows.filter fun row => cellsOf chunk.columns row keys ∉ windowKeys window keys

theorem mem_windowKeys {keys : List String} {key : List Cell} : key ∈ windowKeys window keys ↔
    ∃ top ∈ window, ∃ event ∈ top.rows, cellsOf top.columns event keys = key := by
  simp [windowKeys]

/-- Keys without a null match when they are equal. -/
theorem survivors_eq {keys : List String}
    (h : ∀ row ∈ chunk.rows, .null ∉ cellsOf chunk.columns row keys) :
    survivors chunk window keys = unsuperseded chunk window keys := by
  cases window with
  | none => exact (List.filter_eq_self.mpr fun row _ => by simp [windowKeys]).symm
  | some top =>
    refine List.filter_congr fun row hrow => ?_
    have hmatch : chunk.hasMatch top keys row = true ↔
        cellsOf chunk.columns row keys ∈ windowKeys (some top) keys := by
      rw [DataFrame.hasMatch_iff, mem_windowKeys]
      simp [DataFrame.keysMatch, h row hrow, eq_comm]
    by_cases hm : chunk.hasMatch top keys row = true
    · simp [hm, hmatch.mp hm]
    · have hno : cellsOf chunk.columns row keys ∉ windowKeys (some top) keys := fun h => hm (hmatch.mpr h)
      simp [hm, hno]

/-- **What a merge is for**: the window's rows unchanged and in order, then the chunk rows whose key
the window does not have, stamped. Every key of either is in the frame, none both as an event and as
a dump row. -/
structure Merged (chunk : DataFrame) (window : Option DataFrame) (low : Datetime) (spec : TableSpec)
    (frame : DataFrame) : Prop where
  rows_eq : ∃ events, MSSQLConnector.toEvents ⟨chunk.schema, unsuperseded chunk window spec.pkColumns⟩ spec
    (some low) = .ok events ∧ frame.schema = events.schema ∧ frame.rows = windowRows window ++ events.rows ∧
    ∀ event ∈ windowRows window, ∀ dump ∈ events.rows,
      cellsOf frame.columns event spec.pkColumns ≠ cellsOf frame.columns dump spec.pkColumns
  chunk_keys : ∀ row ∈ chunk.rows, ∃ r ∈ frame.rows,
    cellsOf frame.columns r spec.pkColumns = cellsOf chunk.columns row spec.pkColumns
  window_keys : ∀ top ∈ window, ∀ event ∈ top.rows, ∃ r ∈ frame.rows,
    cellsOf frame.columns r spec.pkColumns = cellsOf top.columns event spec.pkColumns

/-- A key of the window, read in the columns of an event frame over the chunk. -/
theorem mem_windowKeys_of_event {keys : List String}
    (hwindow : ∀ top ∈ window, top.schema = stampSchema ++ chunk.schema) {event : Row}
    (h : event ∈ windowRows window) :
    cellsOf (metadataColumns ++ chunk.columns) event keys ∈ windowKeys window keys := by
  cases window with
  | none => simp [windowRows] at h
  | some top => exact mem_windowKeys.mpr ⟨top, rfl, event, h, by rw [stamped_columns (hwindow top rfl)]⟩

/-- **Superseding is its plain definition**, on both paths and for every window. -/
theorem superseding_is_plain (hpk : spec.pkColumns.Nodup)
    (hchunk : ∀ name ∈ spec.pkColumns, name ∈ chunk.columns)
    (hnames : (metadataColumns ++ chunk.columns).Nodup)
    (hwindow : ∀ top ∈ window, top.schema = stampSchema ++ chunk.schema)
    (hnull : ∀ row ∈ chunk.rows, .null ∉ cellsOf chunk.columns row spec.pkColumns) (low : Datetime) (w : σ) :
    supersede chunk window spec = .ok ⟨chunk.schema, unsuperseded chunk window spec.pkColumns⟩ ∧
      ∃ frame, mergeChunk conn.source chunk window low spec w = .ok frame w ∧
        Merged chunk window low spec frame := by
  have hplain : survivors chunk window spec.pkColumns = unsuperseded chunk window spec.pkColumns :=
    survivors_eq hnull
  have hbeside := fun top h => beside_of_schema hnames hchunk (hwindow top h)
  refine ⟨hplain ▸ supersede_eq hpk hchunk hbeside, _, mergeChunk_eq hpk hchunk hnames hwindow low w, ?_⟩
  rw [hplain]
  have hcols : ∀ rows : List Row, DataFrame.columns ⟨stampSchema ++ chunk.schema, rows⟩ =
      metadataColumns ++ chunk.columns := fun rows => stamped_columns rfl
  refine ⟨⟨_, toEvents_eq hnames, rfl, rfl, fun event he dump hd heq => ?_⟩, fun row hrow => ?_,
    fun top ht event he => ?_⟩
  · obtain ⟨row, hrow, rfl⟩ := List.mem_map.mp hd
    have hno : cellsOf chunk.columns row spec.pkColumns ∉ windowKeys window spec.pkColumns := by
      simpa using (List.mem_filter.mp hrow).2
    rw [hcols, key_stamp hnames hchunk] at heq
    exact hno (heq ▸ mem_windowKeys_of_event hwindow he)
  · by_cases hkey : cellsOf chunk.columns row spec.pkColumns ∈ windowKeys window spec.pkColumns
    · obtain ⟨top, ht, event, he, hk⟩ := mem_windowKeys.mp hkey
      obtain rfl := Option.mem_def.mp ht
      exact ⟨event, List.mem_append_left _ he, by rw [hcols, ← stamped_columns (hwindow top rfl), hk]⟩
    · have hkept : row ∈ unsuperseded chunk window spec.pkColumns :=
        List.mem_filter.mpr ⟨hrow, by simpa using hkey⟩
      refine ⟨stamp spec (some low) ++ row, List.mem_append_right _ (List.mem_map_of_mem hkept), ?_⟩
      rw [hcols, key_stamp hnames hchunk]
  · obtain rfl := Option.mem_def.mp ht
    exact ⟨event, List.mem_append_left _ he, by rw [hcols, stamped_columns (hwindow top rfl)]⟩

/-- Parts of orders, of which one part of the first order was changed while the page was read. -/
def orderParts : DataFrame where
  schema := [("order", .int32), ("part", .int32), ("name", .other "large_string")]
  rows := [[.int 1, .int 1, .str "bolt"], [.int 1, .int 2, .str "nut"], [.int 2, .int 1, .str "bolt"]]

def partChanged : DataFrame where
  schema := stampSchema ++ orderParts.schema
  rows := [[.bytes (Bytes.BigEndian.digits 10 6), .bytes (Bytes.BigEndian.digits 10 6), .int opUpdateAfter,
    .bytes (Bytes.BigEndian.digits 1 4), .datetime 6, .int 1, .int 2, .str "screw"]]

def orderPartsSpec : TableSpec where
  sourceSchema := "dbo"
  sourceTable := "parts"
  pkColumns := ["order", "part"]
  columns := [⟨"order", "int", 10, 0, none⟩, ⟨"part", "int", 10, 0, none⟩, ⟨"name", "nvarchar", 0, 0, none⟩]
  capturedColumns :=
    [⟨"order", "int", 10, 0, none⟩, ⟨"part", "int", 10, 0, none⟩, ⟨"name", "nvarchar", 0, 0, none⟩]
  captureInstance := some "dbo_parts"

/-- The page without the part that changed. -/
theorem superseding_is_plain_parts :
    supersede orderParts (some partChanged) orderPartsSpec = .ok ⟨orderParts.schema,
        unsuperseded orderParts (some partChanged) orderPartsSpec.pkColumns⟩ ∧
      ∃ frame, mergeChunk scripted.source orderParts (some partChanged) 5 orderPartsSpec [] = .ok frame [] ∧
        Merged orderParts (some partChanged) 5 orderPartsSpec frame :=
  superseding_is_plain (by decide) (by decide) (by decide) (by rintro top ⟨⟩; rfl) (by decide) 5 []

example : unsuperseded orderParts (some partChanged) orderPartsSpec.pkColumns =
    [[.int 1, .int 1, .str "bolt"], [.int 2, .int 1, .str "bolt"]] := by decide

end PyDBLog.Mssql.Superseding
