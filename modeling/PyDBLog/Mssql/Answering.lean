import PyDBLog.Mssql.InMemory

/-! # A server that answers

What has to be so for a call to return: in a set of worlds no call leaves, the server answers the
texts a call executes, the capture job gets past every mark in time, the table is described as one
spec says, its position is retained, and a value comes back as a type that casts to the declared one
(`Responsive`). Then a call returns, on nothing and on every state a call has returned
(`call_returns`): none of the checks on pages, windows and frames can fail. -/

namespace PyDBLog.Mssql.Answering

open PyDBLog.Model.Python PyDBLog.Model.Frame PyDBLog.Model.Types PyDBLog.Model.Connector
open PyDBLog.Model.DBLog PyDBLog.Model.Returns PyDBLog.Model.Worlds
open PyDBLog.Mssql.Schema PyDBLog.Mssql.Connector PyDBLog.Mssql.Connector.MSSQLConnector
open PyDBLog.Mssql.ReadTable hiding items
open PyDBLog.Mssql.Texts PyDBLog.Mssql.Catalogue
open PyDBLog.Mssql.OneSchema hiding itemsSpec
open PyDBLog.Mssql.Conform PyDBLog.Mssql.Driver PyDBLog.Mssql.Server
open PyDBLog.World.Log PyDBLog.World.Log.Source PyDBLog.World.Promises
open PyDBLog.Sql.Statement PyDBLog.Sql.Slots

variable {σ V : Type} [LinearOrder V]

/-- **A server that answers** in the worlds of `Q`, of a table described by one spec whose position
`floor` it keeps. -/
structure Responsive (db : Database σ V) (conn : MSSQLConnector σ) (spec : TableSpec)
    (captureInstance : String) (floor : LSN) (Q : σ → Prop) : Prop where
  stays : DriverMoves (Sends conn.pagination) (fun w w' => Q w → Q w') conn
  captured : spec.captureInstance = some captureInstance
  identifiers : Identifiers spec
  unrepeated : db.target.columns.Nodup
  inspects {w} : Q w → ∃ w', conn.inspect db.target.schema db.target.table "cdc" w = .ok spec w'
  minLsn {w} : Q w → ∃ result w',
    conn.execute "SELECT sys.fn_cdc_get_min_lsn(?) as min_lsn" [.str captureInstance] w = .ok result w' ∧
      firstCell result ≠ .null ∧ firstCell result ≠ .bytes (zeroBytes lsnWidth)
  maxLsn {w} : Q w → ∃ result w',
    conn.execute "SELECT sys.fn_cdc_get_max_lsn() as max_lsn" [] w = .ok result w' ∧
      firstCell result ≠ .null
  clock {w} : Q w → ∃ result w', conn.execute "SELECT SYSDATETIME()" [] w = .ok result w' ∧
    firstCell result ≠ .null
  awaits {mark w} : Q w → mark ≤ (db.view w).clock → ∃ w', conn.awaitWatermark mark w = .ok () w'
  page (start) {limit w} : Q w → 1 ≤ limit → ∃ result w',
    conn.execute (statement conn.pagination spec start none limit).text
        ((parameters conn.pagination start none limit).map .int) w = .ok result w' ∧
      ∀ fs, fields spec.capturedColumns = .ok fs → Casts conn.lib result.arrow fs
  events (toLsn) {fromLsn w} : Q w → floor ≤ fromLsn → ∃ result w',
    conn.execute (eventLogText db.target.columns captureInstance) [.bytes fromLsn, .bytes toLsn] w =
        .ok result w' ∧
      ∀ fs, fields spec.capturedColumns = .ok fs → Casts conn.lib result.arrow (metadataFields ++ fs)
  retains {w} : Q w → (db.view w).floor captureInstance ≤ floor ∧ floor ≤ (db.view w).mark
  room {w} : Q w → ∃ next : LSN, next.length = lsnWidth ∧ (db.view w).mark < next

namespace Responsive

variable {db : Database σ V} {conn : MSSQLConnector σ} {spec : TableSpec} {captureInstance : String}
  {floor : LSN} {Q : σ → Prop} (h : Serves db conn)
  (hr : Responsive db conn spec captureInstance floor Q) {w : σ} (hw : Q w)

include h hr hw

/-! ### The spec -/

theorem right : db.Right spec := by
  obtain ⟨w', hi⟩ := hr.inspects hw
  exact h.inspect_right hi (by rw [hr.captured]; simp)

omit h in
theorem readable : Readable spec ∧ isIdentifier captureInstance = true := by
  obtain ⟨w', hi⟩ := hr.inspects hw
  obtain ⟨-, -, _, w₁, w₂, w₃, -, -, -, -, hcaptured⟩ := inspect_ok_iff.mp hi
  cases hcaptured with
  | not hnone => rw [hr.captured] at hnone; cases hnone
  | of named identifier read columns valid =>
    obtain rfl := Option.some.inj (hr.captured.symm.trans named)
    exact ⟨validate_ok_iff.mp valid, identifier⟩

theorem typed : ∃ fs, fields spec.capturedColumns = .ok fs ∧ fs.map Prod.fst = db.target.columns := by
  obtain ⟨fs, hfs⟩ := (validate_ok (validate_ok_iff.mpr (hr.readable hw).1)).1
  exact ⟨fs, hfs, (fields_names hfs).trans (hr.right h hw).describes.2.2.2⟩

theorem acceptable {start : Option ℤ} {limit : ℤ} (hlimit : 1 ≤ limit) :
    Accepts spec start none limit where
  keyed := by
    obtain ⟨name, hname⟩ := db.single_key
    rw [(hr.right h hw).describes.2.2.1, hname]
    exact List.cons_ne_nil _ _
  captured hnil := by
    obtain ⟨name, hname⟩ := db.single_key
    have hmem := Target.leading_mem hname
    rw [← (hr.right h hw).describes.2.2.2, TableSpec.businessColumns, hnil] at hmem
    cases hmem
  limit_nonneg := by omega
  ordered := by simp
  identifiers := hr.identifiers

/-! ### The primitives -/

theorem getMinLsn_returns : ∃ found w', conn.getMinLsn captureInstance w = .ok found w' ∧ Q w' ∧
    found ≤ floor := by
  obtain ⟨result, w', hx, hnull, hzero⟩ := hr.minLsn hw
  obtain ⟨found, hfound⟩ : ∃ found, firstCell result = .bytes found := by
    rcases h.minLsn hx with hcell | hcell | ⟨s, -, hcell⟩
    · exact absurd hcell hnull
    · exact absurd hcell hzero
    · exact ⟨_, hcell⟩
  have hm : conn.getMinLsn captureInstance w = .ok found w' := by
    simp only [MSSQLConnector.getMinLsn, bind_ok, guard_ok, ofExcept_ok]
    exact ⟨result, w', hx, fun hno => hno.elim hnull hzero, by rw [hfound]; rfl, rfl⟩
  have hw' := hr.stays.moving_source.getMinLsn captureInstance |>.ok hm hw
  obtain ⟨s, hs, rfl⟩ := h.getMinLsn_ok hm
  exact ⟨_, w', hm, hw', (hs.2.floor_le _).trans (hr.retains hw').1⟩

theorem getMaxLsn_returns : ∃ high w', conn.getMaxLsn w = .ok high w' ∧ Q w' ∧ floor ≤ high ∧
    ∃ next, MSSQLConnector.incrementLsn high = .ok next := by
  obtain ⟨result, w', hx, hnull⟩ := hr.maxLsn hw
  obtain ⟨high, hhigh⟩ : ∃ high, firstCell result = .bytes high := by
    rcases h.maxLsn hx with hcell | ⟨s, -, -, hcell⟩
    · exact absurd hcell hnull
    · exact ⟨_, hcell⟩
  have hm : conn.getMaxLsn w = .ok high w' := by
    simp only [MSSQLConnector.getMaxLsn, bind_ok, guard_ok, ofExcept_ok]
    exact ⟨result, w', hx, hnull, by rw [hhigh]; rfl, rfl⟩
  have hw' := hr.stays.moving_source.getMaxLsn.ok hm hw
  obtain ⟨s, hs, hwide, rfl⟩ := h.getMaxLsn_ok hm
  refine ⟨_, w', hm, hw', (hr.retains hw).2.trans hs.1.mark_le, ?_⟩
  -- some position is above the one reported
  obtain ⟨next, hnext, hlt⟩ := hr.room hw'
  have hroom := hs.2.mark_le.trans_lt hlt
  rw [Bytes.BigEndian.lt_iff_value_lt (hwide.trans hnext.symm)] at hroom
  have hbound := Bytes.BigEndian.value_lt next
  rw [hnext] at hbound
  have hsucc : Bytes.BigEndian.value s.mark + 1 < 256 ^ lsnWidth := by omega
  exact ⟨_, MSSQLConnector.incrementLsn_ok.mpr ⟨hwide, if_pos hsucc⟩⟩

theorem watermark_returns : ∃ mark w', conn.watermark w = .ok mark w' ∧ Q w' ∧
    mark ≤ (db.view w').clock := by
  obtain ⟨result, w', hx, hnull⟩ := hr.clock hw
  rcases h.clock hx with hcell | ⟨s, hs, hcell⟩
  · exact absurd hcell hnull
  have hm : conn.watermark w = .ok s.clock w' := by
    simp only [MSSQLConnector.watermark, bind_ok]
    exact ⟨result, w', hx, by rw [hcell]; exact pure_ok.mpr ⟨rfl, rfl⟩⟩
  exact ⟨_, w', hm, hr.stays.moving_source.watermark.ok hm hw, hs.2.clock_le⟩

theorem readTable_returns (start : Option ℤ) {limit : ℤ} (hlimit : 1 ≤ limit) :
    ∃ df w', conn.readTable spec start none limit w = .ok df w' ∧ Q w' := by
  have haccepts : Accepts spec start none limit := hr.acceptable h hw hlimit
  obtain ⟨fs, hfs, hnames⟩ := hr.typed h hw
  obtain ⟨result, w', hx, hcasts⟩ := hr.page start hw hlimit
  obtain ⟨hschema, htable, -, hbusiness⟩ := (hr.right h hw).describes
  have hplain : (statement conn.pagination spec start none limit).PlainNames :=
    statement_plain haccepts.identifiers haccepts.keyed
  obtain ⟨seen, rows, out, -, -, -, hshows⟩ := h.selects hplain hschema htable hx
  have hitems : (statement conn.pagination spec start none limit).items.map Item.name =
      db.target.columns := by
    rw [← hbusiness, statement, List.map_map]
    rfl
  have hcolumns : (result.arrow.columns.map ArrowColumn.name).Perm db.target.columns :=
    hitems ▸ hshows.names_perm
  obtain ⟨columns, hconform⟩ :
      ∃ columns, conform conn.lib result.arrow fs s!"{spec.qualifiedName} rows" =
      .ok columns := by
    exact conform_returns (hcolumns.nodup_iff.mpr hr.unrepeated) (by rw [hnames]; exact hcolumns.symm)
      (hcasts fs hfs)
  have hread : conn.readTable spec start none limit w =
      .ok (frameOf conn.lib result.arrow.numRows columns) w' := by
    simp only [MSSQLConnector.readTable, bind_ok, ofExcept_ok, pure_ok]
    exact ⟨_, w, ⟨buildReadTableQuery_ok.mpr ⟨haccepts, rfl, rfl⟩, rfl⟩, result, w', hx,
      fs, w', ⟨hfs, rfl⟩,
      columns, w', ⟨hconform, rfl⟩, rfl, rfl⟩
  exact ⟨_, w', hread, (hr.stays.moving_source.readTable _ _ _ _).ok hread hw⟩

theorem readEventLog_returns (toLsn : LSN) {fromLsn : LSN} (hfrom : floor ≤ fromLsn) :
    ∃ window w', conn.readEventLog spec fromLsn toLsn w = .ok window w' ∧ Q w' := by
  obtain ⟨fs, hfs, hnames⟩ := hr.typed h hw
  have hright := hr.right h hw
  obtain ⟨ci, hknown, hnamed⟩ := hright.named
  obtain rfl := Option.some.inj (hr.captured.symm.trans hnamed)
  obtain ⟨query, hquery⟩ : ∃ query, eventLogQuery spec captureInstance = .ok query := by
    simp only [eventLogQuery, except_bind_ok, mapM_quoteIdentifier, validateIdentifier_ok]
    refine ⟨_, captureInstance, ⟨(hr.readable hw).2, rfl⟩, _, ⟨fun name hname => ?_, rfl⟩, rfl⟩
    obtain ⟨column, hcolumn, rfl⟩ := List.mem_map.mp hname
    exact hr.identifiers.columns column hcolumn
  obtain ⟨-, -, hfills⟩ := eventLogQuery_fills hquery
  rw [hright.describes.2.2.2] at hfills
  obtain ⟨result, w', hx, hcasts⟩ := hr.events toLsn hw hfrom
  obtain ⟨s, -, -, hshows⟩ := h.changes hknown hx
  have hx : conn.execute query [.bytes fromLsn, .bytes toLsn] w = .ok result w' := by
    rw [hfills.text_eq]
    exact hx
  have hread : ∃ window, conn.readEventLog spec fromLsn toLsn w = .ok window w' := by
    unfold MSSQLConnector.readEventLog
    rw [hr.captured]
    simp only [bind_ok, ofExcept_ok]
    by_cases hzero : result.arrow.numRows = 0
    · exact ⟨none, query, w, ⟨hquery, rfl⟩, result, w', hx,
        by rw [if_pos hzero]; exact pure_ok.mpr ⟨rfl, rfl⟩⟩
    have hdeclared : (metadataFields ++ fs).map Prod.fst = metadataColumns ++ db.target.columns := by
      rw [List.map_append, hnames]
      rfl
    have hunrepeated : (metadataColumns ++ db.target.columns).Nodup :=
      List.nodup_append.mpr ⟨by decide, hr.unrepeated,
        fun name hmeta name' hname heq => db.target.unshadowed name' hname (heq ▸ hmeta)⟩
    obtain ⟨columns, hconform⟩ : ∃ columns, conform conn.lib result.arrow (metadataFields ++ fs)
        s!"{captureInstance} events" = .ok columns :=
      conform_returns (hshows.names_perm.nodup_iff.mpr hunrepeated)
        (by rw [hdeclared]; exact hshows.names_perm.symm) (hcasts fs hfs)
    refine ⟨some (frameOf conn.lib result.arrow.numRows columns), query, w, ⟨hquery, rfl⟩, result,
      w', hx, ?_⟩
    rw [if_neg hzero]
    simp only [bind_ok, ofExcept_ok, pure_ok]
    exact ⟨_, w', ⟨eventSchema_ok.mpr ⟨fs, hfs, rfl⟩, rfl⟩, columns, w', ⟨hconform, rfl⟩, rfl, rfl⟩
  obtain ⟨window, hread⟩ := hread
  exact ⟨window, w', hread, (hr.stays.moving_source.readEventLog _ _ _).ok hread hw⟩

end Responsive

/-! ### Keys -/

/-- A page of rows with integer keys says where the next one opens. -/
theorem keyAfter_returns {init : Replay.Basic.Table ℤ Image} {t : Target} {seen : ℤ → Source}
    {start : Option ℤ} {limit : ℤ} {df : DataFrame} {spec : TableSpec}
    (hpage : Page init t seen start limit df) {name : String} (hpk : t.pk = [name])
    (hspec : spec.pkColumns = t.pk) (hne : df.rows ≠ []) :
    ∃ key, keyAfter df spec = .ok key := by
  have hleading : t.leading = name := by rw [Target.leading, hpk]; rfl
  have hcolumn : name ∈ df.columns := by rw [hpage.columns_eq]; exact hleading ▸ Target.leading_mem hpk
  have hint : ∀ row ∈ df.rows, ∃ k, cellOf df.columns row name = .int k := hleading ▸ hpage.int_key
  have hunique : (df.rows.map fun row => cellOf df.columns row name).Nodup := by
    rw [List.Nodup, List.pairwise_map]
    refine hpage.increasing.imp fun {row row'} hlt heq => ?_
    rw [hleading, heq] at hlt
    exact lt_irrefl _ hlt
  obtain ⟨last, hlast⟩ := hint _ (List.getLast_mem hne)
  refine ⟨last + 1, ?_⟩
  have hkeys : (df.rows.map fun row => cellOf df.columns row name).getLast? = some (.int last) := by
    rw [List.getLast?_map, List.getLast?_eq_some_getLast hne]
    exact congrArg some hlast
  have hheight : ¬ (df.rows.map fun row => cellOf df.columns row name).dedup.length ≠ df.height := by
    rw [hunique.dedup, List.length_map, DataFrame.height, not_not]
  unfold keyAfter
  rw [hspec, hpk]
  simp only [List.head?_cons, Option.elim_some, except_bind_ok]
  refine ⟨name, rfl, _, if_pos hcolumn, ?_⟩
  rw [if_neg hheight, hkeys]

/-! ### One call -/

/-- A state under the spec, at a position the server keeps. -/
structure Carried (spec : TableSpec) (floor : LSN) (st : RunState) : Prop where
  spec_eq : st.spec = spec
  kept : floor ≤ st.lastLsn

instance : ReflBEq ColumnSpec := ⟨ColumnSpec.beq_iff.mpr ⟨rfl, rfl⟩⟩

namespace Responsive

variable {db : Database σ V} {conn : MSSQLConnector σ} {spec : TableSpec} {captureInstance : String}
  {floor : LSN} {Q : σ → Prop} (h : Serves db conn)
  (hr : Responsive db conn spec captureInstance floor Q) {now : ℤ} {st : RunState} {w : σ} (hw : Q w)

include h hr hw

theorem seed_returns :
    ∃ opened w', seed conn.source now db.target.schema db.target.table w = .ok opened w' ∧
    Q w' ∧ Carried spec floor opened := by
  obtain ⟨w₁, hi⟩ := hr.inspects hw
  have h1 := (hr.stays.moving_source.inspect _ _).ok hi hw
  obtain ⟨found, w₂, hmin, h2, -⟩ := hr.getMinLsn_returns h h1
  obtain ⟨high, w₃, hmax, h3, hle, -⟩ := hr.getMaxLsn_returns h h2
  exact ⟨_, w₃, seed_ok.mpr ⟨spec, captureInstance, w₁, found, w₂, high, hi, hr.captured, hmin,
    hmax, rfl⟩, h3,
    rfl, hle.trans (le_max_left _ _)⟩

theorem refreshSpec_returns (now : ℤ) (inspectEvery : Option Timedelta) (hst : Carried spec floor st) :
    ∃ opened w', refreshSpec conn.source now st inspectEvery w = .ok opened w' ∧ Q w' ∧
      Carried spec floor opened := by
  have hsame : ∃ opened w', (pure st : Call σ RunState) w = .ok opened w' ∧ Q w' ∧
      Carried spec floor opened :=
    ⟨st, w, pure_ok.mpr ⟨rfl, rfl⟩, hw, hst⟩
  unfold refreshSpec
  cases inspectEvery with
  | none => exact hsame
  | some every =>
    dsimp only
    split_ifs
    · exact hsame
    obtain ⟨w₁, hi⟩ := hr.inspects hw
    obtain ⟨hschema, htable, -, -⟩ := (hr.right h hw).describes
    have hinspect : conn.source.inspect st.spec.sourceSchema st.spec.sourceTable w = .ok spec w₁ := by
      rw [hst.spec_eq, hschema, htable]
      exact hi
    have hcheck : checkSpec st.spec spec = .ok () := checkSpec_ok.mpr (by rw [hst.spec_eq]; simp)
    simp only [bind_ok, ofExcept_ok, requireCaptureInstance_ok, pure_ok]
    exact ⟨_, w₁, ⟨spec, w₁, hinspect, captureInstance, w₁, ⟨hr.captured, rfl⟩, (), w₁,
      ⟨hcheck, rfl⟩, rfl, rfl⟩,
      (hr.stays.moving_source.inspect _ _).ok hi hw, rfl, hst.kept⟩

theorem openRun_returns (now : ℤ) (inspectEvery : Option Timedelta) {state : Option RunState}
    (hstate : ∀ st ∈ state, Carried spec floor st) :
    ∃ opened w', openRun conn.source now db.target.schema db.target.table state inspectEvery w =
      .ok opened w' ∧
      Q w' ∧ Carried spec floor opened := by
  cases state with
  | none => exact hr.seed_returns h hw
  | some st =>
    have hst := hstate st rfl
    obtain ⟨opened, w₁, hrefresh, h1, hopened⟩ := hr.refreshSpec_returns h hw now inspectEvery hst
    obtain ⟨found, w₂, hmin, h2, hfound⟩ := hr.getMinLsn_returns h h1
    obtain ⟨hschema, htable, -, -⟩ := (hr.right h hw).describes
    have hname : st.spec.qualifiedName = s!"{db.target.schema}.{db.target.table}" := by
      rw [hst.spec_eq, TableSpec.qualifiedName, hschema, htable]
      rfl
    refine ⟨opened, w₂, ?_, h2, hopened⟩
    simp only [openRun, bind_ok, ofExcept_ok, checkTable_ok, requireCaptureInstance_ok,
      checkRetention_ok, pure_ok]
    exact ⟨(), w, ⟨hname, rfl⟩, opened, w₁, hrefresh, captureInstance, w₁,
      ⟨by rw [hopened.spec_eq, hr.captured], rfl⟩,
      (), w₂, ⟨found, hmin, hfound.trans hopened.kept⟩, rfl, rfl⟩

theorem readWindow_returns (hst : Carried spec floor st) : ∃ high window st' w',
    WindowRead conn.source st w high window st' w' ∧ Q w' ∧ Carried spec floor st' := by
  obtain ⟨high, w₁, hmax, h1, -, next, hnext⟩ := hr.getMaxLsn_returns h hw
  by_cases hpast : high < st.lastLsn
  · exact ⟨high, none, st, w₁, .past hmax hpast, h1, hst⟩
  obtain ⟨window, w₂, hread, h2⟩ := hr.readEventLog_returns h h1 high hst.kept
  have hincrement : conn.source.incrementLsn high w₂ = .ok next w₂ := ofExcept_ok.mpr ⟨hnext, rfl⟩
  obtain ⟨hlength, hsucc⟩ := MSSQLConnector.incrementLsn_ok.mp hnext
  have hlt := Bytes.BigEndian.lt_succ hlength hsucc
  refine ⟨high, window, _, w₂, .read hmax (not_lt.mp hpast)
    (by rw [hst.spec_eq]; exact hread) hincrement, h2,
    hst.spec_eq, hst.kept.trans ((not_lt.mp hpast).trans hlt.le)⟩

theorem nextChunk_returns {chunkSize : ℤ} (hc : 1 ≤ chunkSize) (hst : Carried spec floor st) :
    ∃ rows chunk paged w', PageRead conn.source chunkSize st w rows chunk paged w' ∧ Q w' ∧
      Carried spec floor paged := by
  obtain ⟨df, w₁, hread, h1⟩ := hr.readTable_returns h hw st.chunkKey hc
  have hasked : conn.source.readTable st.spec st.chunkKey none chunkSize w = .ok df w₁ := by
    rw [hst.spec_eq]
    exact hread
  by_cases hnil : df.rows = []
  · exact ⟨df, none, _, w₁, .empty hasked hnil, h1, hst.spec_eq, hst.kept⟩
  obtain ⟨seen, -, hpage⟩ := h.readTable_page (hr.right h hw) hc hread
  obtain ⟨name, hname⟩ := db.single_key
  have hpk : st.spec.pkColumns = db.target.pk := by
    rw [hst.spec_eq]
    exact (hr.right h hw).describes.2.2.1
  obtain ⟨key, hkey⟩ := keyAfter_returns hpage hname hpk hnil
  exact ⟨df, some df, _, w₁, .rows hasked hnil hkey, h1, hst.spec_eq, hst.kept⟩

/-- What was read under the spec merges. -/
theorem mergeChunk_merges {chunk : DataFrame} {window : Option DataFrame} (low : Datetime)
    {start : Option ℤ} {limit : ℤ} {high : LSN} {st' : RunState} {w₁ w₂ w₃ w₄ : σ} (w₅ : σ)
    (hread : conn.readTable spec start none limit w₁ = .ok chunk w₂) (hst : st.spec = spec)
    (hwindow : WindowRead conn.source st w₃ high window st' w₄) :
    ∃ frame, mergeChunk conn.source chunk window low spec w₅ = .ok frame w₅ := by
  obtain ⟨fs, hfs, hnames⟩ := hr.typed h hw
  obtain ⟨fs₁, hfs₁, hchunk⟩ := readTable_schema hread
  obtain rfl := Except.ok.inj (hfs.symm.trans hfs₁)
  have hright := hr.right h hw
  obtain ⟨name, hname⟩ := db.single_key
  have hpk : spec.pkColumns.Nodup := by
    rw [hright.describes.2.2.1, hname]
    exact List.nodup_singleton name
  have hunrepeated : ((metadataFields ++ fs).map Prod.fst).Nodup := by
    rw [List.map_append, hnames, List.nodup_append]
    exact ⟨by decide, hr.unrepeated, fun n hmeta n' hcolumn heq =>
      db.target.unshadowed n' hcolumn (heq ▸ hmeta)⟩
  refine mergeChunk_returns hchunk (fun df hdf => ?_) hpk hunrepeated fun key hkey => ?_
  · obtain ⟨fs₂, hfs₂, hschema⟩ := (WindowRead.schema hwindow).2 df hdf
    rw [hst] at hfs₂
    rw [hschema, Except.ok.inj (hfs.symm.trans hfs₂)]
  · rw [hright.describes.2.2.1] at hkey
    rw [hnames]
    exact db.target.pk_captured key hkey

/-- A call that has opened returns, and hands back a state at a position the server keeps. -/
theorem batch_returns {w₀ : σ} {state : Option RunState} {inspectEvery : Option Timedelta}
    {chunkSize : ℤ} (hc : 1 ≤ chunkSize)
    (hopen : openRun conn.source now db.target.schema db.target.table state inspectEvery w₀ = .ok st w)
    (hst : Carried spec floor st) : ∃ b w',
      dblog conn.source now db.target.schema db.target.table state chunkSize inspectEvery w₀ = .ok b w' ∧
        Q w' ∧ Carried spec floor b.state := by
  by_cases hdone : st.dumpDone = true
  · obtain ⟨high, window, st', w₂, hwindow, h2, hst'⟩ := hr.readWindow_returns h hw hst
    exact ⟨⟨window, st'⟩, w₂, dblog_ok.mpr ⟨hc, st, [], high, window, .tail hopen hdone hwindow⟩,
      h2, hst'⟩
  have hwalking := eq_false_of_ne_true hdone
  obtain ⟨low, w₂, hlow, h2, -⟩ := hr.watermark_returns h hw
  obtain ⟨rows, chunk, paged, w₃, hpage, h3, hpaged⟩ := hr.nextChunk_returns h h2 hc hst
  obtain ⟨mark, w₄, hmark, h4, hclock⟩ := hr.watermark_returns h h3
  obtain ⟨w₅, hawait⟩ := hr.awaits h4 hclock
  have h5 := (hr.stays.moving_source.awaitWatermark mark).ok hawait h4
  obtain ⟨high, window, st', w₆, hwindow, h6, hst'⟩ := hr.readWindow_returns h h5 hpaged
  cases chunk with
  | none =>
    exact ⟨⟨window, st'⟩, w₆, dblog_ok.mpr ⟨hc, st, [], high, window,
      .last hopen hwalking hlow hpage hmark hawait hwindow⟩, h6, hst'⟩
  | some chunk =>
    obtain rfl := hpage.some_eq
    have hread : conn.readTable spec st.chunkKey none chunkSize w₂ = .ok chunk w₃ := by
      cases hpage with
      | rows asked => rw [← hst.spec_eq]; exact asked
    obtain ⟨frame, hmerge⟩ := hr.mergeChunk_merges h hw low w₆ hread hpaged.spec_eq hwindow
    rw [← hst'.spec_eq] at hmerge
    exact ⟨⟨some frame, st'⟩, w₆, dblog_ok.mpr ⟨hc, st, chunk.rows, high, window,
      .chunk hopen hwalking hlow hpage hmark hawait hwindow hmerge⟩, h6, hst'⟩

/-- **A call returns**, on nothing and on a state of the spec at a position the server keeps, and
hands back such a state. -/
theorem call_returns (now : ℤ) (inspectEvery : Option Timedelta) {state : Option RunState}
    {chunkSize : ℤ} (hc : 1 ≤ chunkSize)
    (hstate : ∀ st ∈ state, Carried spec floor st) : ∃ b w',
      dblog conn.source now db.target.schema db.target.table state chunkSize inspectEvery w = .ok b w' ∧
        Q w' ∧ Carried spec floor b.state := by
  obtain ⟨opened, w₁, hopen, h1, hopened⟩ := hr.openRun_returns h hw now inspectEvery hstate
  exact hr.batch_returns h h1 hc hopen hopened

end Responsive

/-! ### The server in memory answers -/

open PyDBLog.World.InMemory PyDBLog.Mssql.Capture PyDBLog.Mssql.InMemory

/-- All is reported, and the position 4 is kept. -/
structure Reported (m : Items) : Prop where
  reported : ∀ c ∈ m.changes, c.startLsn ≤ m.mark
  positive : zeroBytes lsnWidth < m.floor
  retained : m.floor ≤ lsnAt 4 ∧ lsnAt 4 ≤ m.mark
  room : m.mark < lsnAt 9

theorem Reported.tick {m : Items} (h : Reported m) : Reported (tick m) :=
  ⟨h.reported, h.positive, h.retained, h.room⟩

theorem reported_execute (query : String) (params : List Cell) :
    Moves (fun m m' : Items => Reported m → Reported m') (server.execute query params) := by
  intro m
  simp only [server, serverOf]
  cases reply query params m <;> exact Reported.tick

/-- A poll passes every mark before it. -/
theorem capturePassed_eq {m : Items} (h : Reported m) (mark : Datetime) :
    server.capturePassed mark m = .ok (decide (mark < m.clock)) (tick m) := by
  have hx : server.execute capturePassedQuery [.datetime mark, .datetime mark] m =
      .ok (answer [[.int (passedCase mark ⟨1, m.clock, some m.clock, 1⟩)]]) (tick m) := by
    refine execute_ok.mpr ⟨?_, rfl⟩
    rw [reply, if_pos rfl, scanLog, if_pos h.reported]
    rfl
  have hcase : (passedCase mark ⟨1, m.clock, some m.clock, 1⟩ ≠ 0) ↔ mark < m.clock := by
    simp [passedCase]
  simp only [capturePassed, bind_ok]
  refine ⟨_, tick m, hx, pure_ok.mpr ⟨?_, rfl⟩⟩
  exact decide_eq_decide.mpr hcase

/-- One poll of the loop, and the ones after it if it does not pass. -/
theorem awaitLoop_succ {m : Items} (m' : Items) {mark : Datetime} {polls : ℕ} {passed : Bool}
    (h : server.capturePassed mark m = .ok passed (tick m))
    (hrest : passed = false →
      server.awaitLoop mark (0 + server.watermarkTimeout) polls (tick m) = .ok true m') :
    ∃ m', server.awaitLoop mark (0 + server.watermarkTimeout) (polls + 1) m = .ok true m' := by
  have htime : server.monotonic m = .ok 0 m := rfl
  have hdeadline : (0 : ℤ) < 0 + server.watermarkTimeout := by decide
  simp only [awaitLoop, bind_ok]
  cases passed with
  | true =>
    refine ⟨tick m, 0, m, htime, ?_⟩
    rw [if_pos hdeadline]
    exact bind_ok.mpr ⟨true, tick m, h, pure_ok.mpr ⟨rfl, rfl⟩⟩
  | false =>
    refine ⟨m', 0, m, htime, ?_⟩
    rw [if_pos hdeadline]
    exact bind_ok.mpr ⟨false, tick m, h, bind_ok.mpr ⟨(), tick m, rfl, hrest rfl⟩⟩

/-- The second poll passes, if the first does not. -/
theorem awaitWatermark_returns {m : Items} (h : Reported m) {mark : Datetime} (hmark : mark ≤ m.clock) :
    ∃ m', server.awaitWatermark mark m = .ok () m' := by
  have hlt : mark < (tick m).clock := Int.lt_add_one_of_le hmark
  obtain ⟨m₂, hsecond⟩ :
      ∃ m', server.awaitLoop mark (0 + server.watermarkTimeout) 119 (tick m) = .ok true m' :=
    awaitLoop_succ m (capturePassed_eq h.tick mark) fun hno => absurd hlt (of_decide_eq_false hno)
  obtain ⟨m₁, hfirst⟩ : ∃ m', server.awaitLoop mark (0 + server.watermarkTimeout) 120 m = .ok true m' :=
    awaitLoop_succ m₂ (capturePassed_eq h mark) fun _ => hsecond
  simp only [awaitWatermark, bind_ok]
  exact ⟨m₁, 0, m, rfl, true, m₁, hfirst, pure_ok.mpr ⟨rfl, rfl⟩⟩

set_option maxRecDepth 100000 in
theorem inspect_returns (m : Items) : server.inspect "dbo" "items" "cdc" m =
    .ok itemsSpec (tick^[4] m) := rfl

theorem responsive : Responsive database server itemsSpec "dbo_items" (lsnAt 4) Reported where
  stays :=
    { refl := fun _ => id
      trans := fun h h' hQ => h' (h hQ)
      execute := fun _ => reported_execute _ _
      monotonic := fun _ => id
      sleep := fun _ _ => id }
  captured := rfl
  identifiers := ⟨by decide, by decide, by decide, by decide⟩
  unrepeated := by decide
  inspects {m} _ := ⟨tick^[4] m, inspect_returns m⟩
  minLsn {m} h := by
    refine ⟨answer [[.bytes m.floor]], tick m, execute_ok.mpr ⟨rfl, rfl⟩,
      by simp [answer, firstCell], ?_⟩
    intro hcell
    exact h.positive.ne (Cell.bytes.inj hcell).symm
  maxLsn {m} _ := ⟨answer [[.bytes m.mark]], tick m, execute_ok.mpr ⟨rfl, rfl⟩,
    by simp [answer, firstCell]⟩
  clock {m} _ := by
    refine ⟨answer [[.datetime m.clock]], tick m, execute_ok.mpr ⟨?_, rfl⟩, by simp [answer, firstCell]⟩
    rw [reply, if_neg (by decide), if_pos rfl]
  awaits h hmark := awaitWatermark_returns h hmark
  page start limit m _ hlimit := by
    refine ⟨pageOf m start limit, tick m, execute_ok.mpr ⟨?_, rfl⟩,
      fun fs _ field _ column _ _ => ⟨_, rfl⟩⟩
    have hpos : 0 < limit := hlimit
    have hfetch : server.pagination = .fetch := rfl
    cases start <;> simp [parameters, hpos, hfetch, reply]
  events toLsn fromLsn m h hfrom := by
    have hreply : reply (eventLogText items.columns "dbo_items") [.bytes fromLsn, .bytes toLsn] m =
        some ⟨[], shown (metadataColumns ++ items.columns)
          ((m.source.window fromLsn toLsn).map (Change.eventRow items.columns))⟩ := by
      rw [reply, if_pos ⟨rfl, h.retained.1.trans hfrom⟩]
    exact ⟨_, tick m, execute_ok.mpr ⟨hreply, rfl⟩, fun fs _ field _ column _ _ => ⟨_, rfl⟩⟩
  retains h := h.retained
  room h := ⟨lsnAt 9, by decide, h.room⟩

end PyDBLog.Mssql.Answering
