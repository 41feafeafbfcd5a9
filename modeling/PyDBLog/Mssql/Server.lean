import PyDBLog.Model.Guarded
import PyDBLog.Mssql.Capture
import PyDBLog.Mssql.Catalogue
import PyDBLog.Mssql.Conform
import PyDBLog.Mssql.Driver
import PyDBLog.World.Promises

/-! # SQL Server keeps the promises

What SQL Server documents of the texts the connector executes, each answered at an instant of its
execution (`Serves`): the positions, the clock and the scan sessions, the changes of a capture
instance, the rows a SELECT means, read one by one, and the catalogue. Over such a server the
connector keeps what the runs assume of a source, of the specs it inspects itself
(`laws_guarded`). -/

namespace PyDBLog.Mssql.Server

open PyDBLog.Model.Python PyDBLog.Model.Frame PyDBLog.Model.Types PyDBLog.Model.Connector
open PyDBLog.Model.Worlds PyDBLog.Model.Guarded
open PyDBLog.Mssql.Schema PyDBLog.Mssql.Connector PyDBLog.Mssql.Connector.MSSQLConnector
open PyDBLog.Mssql.ReadTable PyDBLog.Mssql.Texts PyDBLog.Mssql.Identifiers PyDBLog.Mssql.Capture
open PyDBLog.Mssql.OneSchema PyDBLog.Mssql.Catalogue PyDBLog.Mssql.Conform PyDBLog.Mssql.Driver
open PyDBLog.Replay.Basic PyDBLog.World.Log PyDBLog.World.Log.Source PyDBLog.World.Promises
open PyDBLog.Sql PyDBLog.Sql.Slots PyDBLog.Sql.Statement PyDBLog.Sql.Meaning

/-! ### Time passes -/

/-- Commits are appended, and dated by the clock. -/
structure Follows (s s' : Source) : Prop extends Later s s' where
  dated_from : ∀ c ∈ added s s', s.clock ≤ c.commitTime

theorem Follows.refl (s : Source) : Follows s s where
  toLater := Later.refl s
  dated_from c hc := by simp [added] at hc

theorem Follows.trans {s₁ s₂ s₃ : Source} (h₁ : Follows s₁ s₂) (h₂ : Follows s₂ s₃) : Follows s₁ s₃ where
  toLater := h₁.toLater.trans h₂.toLater
  dated_from c hc := by
    rcases (mem_added_trans h₁.toLater h₂.toLater).mp hc with h | h
    · exact h₁.dated_from c h
    · exact h₁.clock_le.trans (h₂.dated_from c h)

variable {σ V : Type}

/-- An instant of a call from the world `w` to the world `w'`, on a server that dates its
commits. -/
def Within (view : σ → Source) (w w' : σ) (s : Source) : Prop := Follows (view w) s ∧ Follows s (view w')

theorem Within.during {view : σ → Source} {w w' : σ} {s : Source} (h : Within view w w' s) :
    During view w w' s := ⟨h.1.toLater, h.2.toLater⟩

/-! ### The database -/

/-- A database with the table a run reads: what it holds in each world, the columns it derives, the
capture instances of the table, and its values with the cells the driver shows them as. -/
structure Database (σ V : Type) [LinearOrder V] where
  view : σ → Source
  init : Replay.Basic.Table ℤ Image
  target : Target
  derived : List String
  instances : List String
  domain : Domain V
  toCell : V → Cell
  null_cell : toCell domain.null = .null
  int_cell : ∀ k, toCell (domain.ofInt k) = .int k
  ofInt_le : ∀ a b, domain.ofInt a ≤ domain.ofInt b ↔ a ≤ b
  single_key : ∃ name, target.pk = [name]
  stored_key : target.leading ∉ derived
  int_keys : ∀ w, ∀ c ∈ (view w).changes, ∃ k, c.cells target.leading = .int k

variable [LinearOrder V]

namespace Database

variable (db : Database σ V)

/-- `schema.table` -/
def objectName : String := s!"{db.target.schema}.{db.target.table}"

/-- What a read shows of a stored row under a name, and the log with it: nothing of a derived
column. -/
def cellAt (row : Meaning.Row V) (name : String) : Cell :=
  if name ∈ db.derived then .null else db.toCell (row name)

/-- The image of a stored row. -/
def imageOf (row : Meaning.Row V) : Image := db.target.columns.map (db.cellAt row)

/-- The rows a scan finds, each as the table held it at an instant of its own. -/
structure Stores (seen : ℤ → Source) (rows : List (Meaning.Row V)) : Prop where
  present : ∀ row ∈ rows, ∃ k, row db.target.leading = db.domain.ofInt k ∧
    (seen k).content db.init db.target k = some (db.imageOf row)
  stored : ∀ k, (seen k).content db.init db.target k ≠ none →
    ∃ row ∈ rows, row db.target.leading = db.domain.ofInt k

/-- A spec that is right about the table. -/
structure Right (spec : TableSpec) : Prop where
  describes : db.target.Describes spec
  derived : ∀ column ∈ spec.capturedColumns, column.isComputed = true ↔ column.name ∈ db.derived
  named : ∃ captureInstance ∈ db.instances, spec.captureInstance = some captureInstance

end Database

/-! ### The server -/

/-- The text that reads the changes of a capture instance. -/
def eventLogText (columns : List String) (captureInstance : String) : String :=
  fill (eventLogTemplate columns.length) (columns ++ [captureInstance])

/-- What the session log shows at an instant: the scans it tells of are past, what it accounts for
the capture job has reported, and some session has ended or none has started after the mark. -/
structure Scanned (s : Source) (log : List ScanSession) (mark : Datetime) : Prop where
  accounts : Accounts log {x | ∃ c ∈ s.changes, c.commitTime = x}
    {x | ∀ c ∈ s.changes, c.commitTime = x → c.startLsn ≤ s.mark}
  past : ∀ row ∈ sessions log, row.startTime ≤ s.clock ∧ ∀ e ∈ row.endTime, e ≤ s.clock
  reliable : Reliable log mark

/-- **What SQL Server answers.** Nothing is said of a text that raises. -/
structure Serves (db : Database σ V) (conn : MSSQLConnector σ) : Prop where
  moves : DriverMoves (Sends conn.pagination) (fun w w' => Follows (db.view w) (db.view w')) conn
  casts : KeepsCells conn.lib
  maxLsn {w result w'} :
    conn.execute "SELECT sys.fn_cdc_get_max_lsn() as max_lsn" [] w = .ok result w' →
      firstCell result = .null ∨ ∃ s, Within db.view w w' s ∧ s.mark.length = lsnWidth ∧
        firstCell result = .bytes s.mark
  minLsn {captureInstance w result w'} :
    conn.execute "SELECT sys.fn_cdc_get_min_lsn(?) as min_lsn" [.str captureInstance] w = .ok result w' →
      firstCell result = .null ∨ firstCell result = .bytes (zeroBytes lsnWidth) ∨
        ∃ s, Within db.view w w' s ∧ firstCell result = .bytes (s.floor captureInstance)
  clock {w result w'} : conn.execute "SELECT SYSDATETIME()" [] w = .ok result w' →
    firstCell result = .null ∨ ∃ s, Within db.view w w' s ∧ firstCell result = .datetime s.clock
  scans {mark w result w'} :
    conn.execute capturePassedQuery [.datetime mark, .datetime mark] w = .ok result w' →
      ∃ s log, Within db.view w w' s ∧ Scanned s log mark ∧ Answers log mark result.rows
  changes {captureInstance fromLsn toLsn w result w'} (known : captureInstance ∈ db.instances) :
    conn.execute (eventLogText db.target.columns captureInstance) [.bytes fromLsn, .bytes toLsn] w =
        .ok result w' →
      ∃ s, Within db.view w w' s ∧ s.floor captureInstance ≤ fromLsn ∧
        Shows result.arrow (metadataColumns ++ db.target.columns)
          (((s.retained captureInstance).filter fun c => fromLsn ≤ c.startLsn ∧ c.startLsn ≤ toLsn).map
            (Change.eventRow db.target.columns))
  selects {q : Select} {params : List ℤ} {w result w'} (plain : q.PlainNames)
    (schema : q.schema = db.target.schema) (table : q.table = db.target.table) :
    conn.execute q.text (params.map .int) w = .ok result w' →
      ∃ (seen : ℤ → Source) (rows : Meaning.Table db.domain db.target.pk) (out : List (List V)),
        (∀ k, Within db.view w w' (seen k)) ∧ db.Stores seen rows.rows ∧
        Reads db.domain q params rows.rows out ∧
        Shows result.arrow (q.items.map Item.name) (out.map (List.map db.toCell))
  keys {w result w'} : conn.execute pkColumnsQuery [.str db.objectName] w = .ok result w' →
    result.rows = db.target.pk.map fun name => [.str name]
  named {w result w'} :
    conn.execute (captureInstanceQuery "cdc") [.str db.objectName] w = .ok result w' →
    ∀ row ∈ result.rows, ∃ captureInstance ∈ db.instances, row = [.str captureInstance]
  columns {w result w'} : conn.execute columnsQuery [.str db.objectName] w = .ok result w' →
    ∃ columns : List ColumnSpec, result.rows = columns.map columnRow ∧ ∀ name, name ∈ db.derived ↔
      ∃ column ∈ columns, column.name = name ∧ column.isComputed = true
  changeTable {captureInstance w result w'} (known : captureInstance ∈ db.instances) :
    conn.execute columnsQuery [.str s!"cdc.{captureInstance}_CT"] w = .ok result w' →
      ∃ columns : List ColumnSpec, result.rows = columns.map columnRow ∧
        (businessOf columns).map ColumnSpec.name = db.target.columns ∧
        ∀ column ∈ columns, column.computedDefinition = none

namespace Serves

variable {db : Database σ V} {conn : MSSQLConnector σ} (h : Serves db conn) {w w' : σ}

include h

/-! ### Positions, clock and barrier -/

theorem later : DriverMoves (Sends conn.pagination) (fun w w' => Later (db.view w) (db.view w')) conn where
  refl w := Later.refl (db.view w)
  trans := Later.trans
  execute hsent w := (h.moves.execute hsent w).toLater
  monotonic w := (h.moves.monotonic w).toLater
  sleep time w := (h.moves.sleep time w).toLater

theorem getMaxLsn_ok {m : LSN} (hm : conn.getMaxLsn w = .ok m w') :
    ∃ s, Within db.view w w' s ∧ s.mark.length = lsnWidth ∧ m = s.mark := by
  simp only [MSSQLConnector.getMaxLsn, bind_ok, guard_ok, ofExcept_ok] at hm
  obtain ⟨result, w₁, hx, hne, hcell, rfl⟩ := hm
  rcases h.maxLsn hx with hnull | ⟨s, hs, hwide, hrow⟩
  · exact absurd hnull hne
  · rw [hrow] at hcell
    exact ⟨s, hs, hwide, (Except.ok.inj hcell).symm⟩

theorem getMinLsn_ok {captureInstance : String} {floor : LSN}
    (hm : conn.getMinLsn captureInstance w = .ok floor w') :
    ∃ s, Within db.view w w' s ∧ floor = s.floor captureInstance := by
  simp only [MSSQLConnector.getMinLsn, bind_ok, guard_ok, ofExcept_ok] at hm
  obtain ⟨result, w₁, hx, hne, hcell, rfl⟩ := hm
  rcases h.minLsn hx with hnull | hzero | ⟨s, hs, hrow⟩
  · exact absurd (Or.inl hnull) hne
  · exact absurd (Or.inr hzero) hne
  · rw [hrow] at hcell
    exact ⟨s, hs, (Except.ok.inj hcell).symm⟩

theorem watermark_ok {mark : Datetime} (hm : conn.watermark w = .ok mark w') :
    ∃ s, Within db.view w w' s ∧ mark = s.clock := by
  simp only [MSSQLConnector.watermark, bind_ok] at hm
  obtain ⟨result, w₁, hx, hm⟩ := hm
  rcases h.clock hx with hnull | ⟨s, hs, hrow⟩
  · rw [hnull] at hm
    exact absurd hm (by simp [throw_ok])
  · rw [hrow] at hm
    obtain ⟨rfl, rfl⟩ := pure_ok.mp hm
    exact ⟨s, hs, rfl⟩

/-- **The barrier holds**: what was committed by the mark had been reported at the instant of the
answer, and what was committed since is dated after it. -/
theorem barrier {mark : Datetime} (hawait : conn.awaitWatermark mark w = .ok () w') :
    ∀ c ∈ (db.view w').changes, c.commitTime ≤ mark → c.startLsn ≤ (db.view w').mark := by
  obtain ⟨w₁, hpassed⟩ := awaitWatermark_ok hawait
  obtain ⟨result, row, rest, hx, hrows, hcell⟩ := capturePassed_true hpassed
  obtain ⟨s, log, hs, hscanned, hanswers⟩ := h.scans hx
  have hprocessed : ∀ x ∈ {x | ∃ c ∈ s.changes, c.commitTime = x}, x ≤ mark →
      x ∈ {x | ∀ c ∈ s.changes, c.commitTime = x → c.startLsn ≤ s.mark} := by
    refine sound_of_reliable hscanned.reliable conn w₁ w' _ _ hscanned.accounts
      (fun result' w₂ hx' => ?_) hpassed
    obtain ⟨rfl, -⟩ := EStateM.Result.ok.inj (hx.symm.trans hx')
    exact hanswers
  have hclock : mark < s.clock := by
    rcases hanswers with ⟨-, hnil⟩ | ⟨session, hmem, -, hrow⟩
    · rw [hnil] at hrows; cases hrows
    rw [hrow] at hrows
    obtain ⟨rfl, -⟩ := List.cons.inj hrows
    obtain ⟨hstart, hends⟩ := hscanned.past session hmem
    rcases passedCase_ne_zero fun hz => hcell (congrArg Cell.int hz) with hlt | ⟨-, e, he, hlt⟩
    · exact hlt.trans_le hstart
    · exact hlt.trans_le (hends e he)
  intro c hc hle
  rcases hs.2.toLater.mem.mp hc with hold | hnew
  · exact (hprocessed _ ⟨c, hold, rfl⟩ hle c hold rfl).trans hs.2.mark_le
  · exact absurd (hs.2.dated_from c hnew) (not_le.mpr (hle.trans_lt hclock))

/-! ### The change log -/

theorem readEventLog_ok {spec : TableSpec} {captureInstance : String} {fromLsn toLsn : LSN}
    {window : Option DataFrame} (hspec : db.target.Describes spec)
    (hknown : captureInstance ∈ db.instances) (hnamed : spec.captureInstance = some captureInstance)
    (hread : conn.readEventLog spec fromLsn toLsn w = .ok window w') :
    ∃ s, Within db.view w w' s ∧ s.floor captureInstance ≤ fromLsn ∧
      Carries db.target
        ((s.retained captureInstance).filter fun c => fromLsn ≤ c.startLsn ∧ c.startLsn ≤ toLsn)
          window := by
  have hbusiness : spec.businessColumns = db.target.columns := hspec.2.2.2
  unfold MSSQLConnector.readEventLog at hread
  rw [hnamed] at hread
  simp only [bind_ok, ofExcept_ok] at hread
  obtain ⟨query, _, ⟨hquery, rfl⟩, result, w₁, hx, hread⟩ := hread
  obtain ⟨-, -, hfills⟩ := eventLogQuery_fills hquery
  rw [hbusiness] at hfills
  rw [hfills.text_eq] at hx
  obtain ⟨s, hs, hfloor, hshows⟩ := h.changes hknown hx
  have hw : w₁ = w' := by
    split_ifs at hread
    · exact (pure_ok.mp hread).2
    · simp only [bind_ok, ofExcept_ok, pure_ok] at hread
      obtain ⟨_, _, ⟨-, rfl⟩, _, _, ⟨-, rfl⟩, -, rfl⟩ := hread
      rfl
  obtain rfl := hw
  refine ⟨s, hs, hfloor, ?_⟩
  generalize (s.retained captureInstance).filter
    (fun c => fromLsn ≤ c.startLsn ∧ c.startLsn ≤ toLsn) = cs at hshows ⊢
  split_ifs at hread with hz
  · obtain rfl := (pure_ok.mp hread).1
    rw [hshows.numRows_eq, List.length_map, List.length_eq_zero_iff] at hz
    rw [hz]
    rfl
  · simp only [bind_ok, ofExcept_ok, pure_ok] at hread
    obtain ⟨schema, _, ⟨hschema, -⟩, columns, _, ⟨hconform, -⟩, rfl, -⟩ := hread
    obtain ⟨fs, hfs, rfl⟩ := eventSchema_ok.mp hschema
    have hnames : (metadataFields ++ fs).map Prod.fst = metadataColumns ++ db.target.columns := by
      rw [List.map_append, fields_names hfs, hbusiness]
      rfl
    have hlength : ∀ row ∈ cs.map (Change.eventRow db.target.columns),
        row.length = (metadataColumns ++ db.target.columns).length := by
      intro row hrow
      obtain ⟨c, -, rfl⟩ := List.mem_map.mp hrow
      simp [Change.eventRow, metadataColumns, metadataFields]
    exact conform_same h.casts hshows hconform hnames hlength

/-! ### The catalogue -/

/-- **An inspection of a captured table is right about it.** -/
theorem inspect_right {spec : TableSpec}
    (hinspect : conn.inspect db.target.schema db.target.table "cdc" w = .ok spec w')
    (hcaptured : spec.captureInstance ≠ none) : db.Right spec := by
  obtain ⟨hschema, htable, _, w₁, w₂, w₃, hpk, hkeys, hinst, hcolumns, hchange⟩ :=
    inspect_ok_iff.mp hinspect
  obtain ⟨keys, hx, rfl, -⟩ := readPkColumns_ok.mp hpk
  have hcells : keys.rows.map (fun row => row.headD .null) = db.target.pk.map .str := by
    rw [h.keys hx, List.map_map]
    rfl
  rw [hcells, mapM_str] at hkeys
  obtain ⟨columns, hx', hmap⟩ := columns_ok.mp hcolumns
  obtain ⟨columns', hrows, hderived⟩ := h.columns hx'
  rw [hrows, mapM_columnRow] at hmap
  obtain rfl := Except.ok.inj hmap
  cases hchange with
  | not unnamed => exact absurd unnamed hcaptured
  | @of captureInstance raw named identifier read captured valid =>
    have hknown : captureInstance ∈ db.instances := by
      obtain ⟨result, hxi, hcell⟩ := readCaptureInstance_ok.mp hinst
      rw [named, firstCell] at hcell
      cases hhead : result.rows.head? with
      | none => rw [hhead] at hcell; cases hcell
      | some row =>
        rw [hhead] at hcell
        obtain ⟨other, hother, rfl⟩ := h.named hxi row (List.mem_of_mem_head? hhead)
        obtain rfl := Cell.str.inj hcell
        exact hother
    obtain ⟨change, hxc, hraw⟩ := columns_ok.mp read
    obtain ⟨raw', hrows', hnames, hplain⟩ := h.changeTable hknown hxc
    rw [hrows', mapM_columnRow] at hraw
    obtain rfl := Except.ok.inj hraw
    refine ⟨⟨hschema, htable, (Except.ok.inj hkeys).symm, ?_⟩, fun column hcolumn => ?_,
      _, hknown, named⟩
    · rw [TableSpec.businessColumns, captured, markComputed_names, hnames]
    · rw [captured] at hcolumn
      rw [hderived]
      exact markComputed_isComputed (fun raw hraw => hplain raw (List.mem_filter.mp hraw).1) hcolumn

end Serves

/-! ### Pages -/

theorem singleton_le {a b : V} : [a] ≤ [b] ↔ a ≤ b := by
  rw [← not_lt, ← not_lt, List.cons_lt_cons_iff]
  simp

namespace Database

variable (db : Database σ V) {start : Option ℤ} {limit : ℤ} {rows : List (Meaning.Row V)}

/-- The rows from the start key on, by the key. -/
def inOrder (start : Option ℤ) (rows : List (Meaning.Row V)) : List (Meaning.Row V) :=
  (rows.filter fun row => ∀ a ∈ start, db.domain.ofInt a ≤ row db.target.leading).insertionSort
    fun row row' => db.target.pk.map row ≤ db.target.pk.map row'

/-- The rows of a page. -/
def pageRows (start : Option ℤ) (limit : ℤ) (rows : List (Meaning.Row V)) : List (Meaning.Row V) :=
  (db.inOrder start rows).take limit.toNat

variable {db}

theorem mem_inOrder {row : Meaning.Row V} : row ∈ db.inOrder start rows ↔
    row ∈ rows ∧ ∀ a ∈ start, db.domain.ofInt a ≤ row db.target.leading := by
  rw [inOrder, List.mem_insertionSort, List.mem_filter, decide_eq_true_iff]

theorem pk_map (row : Meaning.Row V) : db.target.pk.map row = [row db.target.leading] := by
  obtain ⟨name, hname⟩ := db.single_key
  simp [Target.leading, hname]

/-- No two rows of the table have one key. -/
theorem inOrder_increasing
    (unique : rows.Pairwise fun row row' => db.target.pk.map row ≠ db.target.pk.map row') :
    (db.inOrder start rows).Pairwise fun row row' => row db.target.leading < row' db.target.leading := by
  have hsorted := List.pairwise_insertionSort
    (fun row row' : Meaning.Row V => db.target.pk.map row ≤ db.target.pk.map row')
    (rows.filter fun row => ∀ a ∈ start, db.domain.ofInt a ≤ row db.target.leading)
  have hne : (db.inOrder start rows).Pairwise fun row row' =>
    db.target.pk.map row ≠ db.target.pk.map row' := by
    refine ((List.perm_insertionSort _ _).pairwise_iff fun h => h.symm).mpr ?_
    exact unique.sublist List.filter_sublist
  refine (hsorted.and hne).imp fun {row row'} h => ?_
  rw [pk_map, pk_map] at h
  exact lt_of_le_of_ne (singleton_le.mp h.1) fun heq => h.2 (congrArg (fun v => [v]) heq)

theorem cellOf_imageOf (row : Meaning.Row V) :
    cellOf db.target.columns (db.imageOf row) db.target.leading = db.toCell (row db.target.leading) := by
  obtain ⟨name, hname⟩ := db.single_key
  rw [imageOf, cellOf_map _ (Target.leading_mem hname), cellAt, if_neg db.stored_key]

theorem ofInt_lt {a b : ℤ} : db.domain.ofInt a < db.domain.ofInt b ↔ a < b := by
  rw [← not_le, ← not_le, db.ofInt_le]

/-- **The rows of the table in a page are a page of the table**, each seen at its own instant. -/
theorem Stores.page {seen : ℤ → Source} {df : DataFrame} (h : db.Stores seen rows)
    (unique : rows.Pairwise fun row row' => db.target.pk.map row ≠ db.target.pk.map row')
    (hlimit : 1 ≤ limit) (hcolumns : df.columns = db.target.columns)
    (hrows : df.rows = (db.pageRows start limit rows).map db.imageOf) :
    Page db.init db.target seen start limit df := by
  have hmem : ∀ row ∈ db.pageRows start limit rows, row ∈ rows ∧
      ∀ a ∈ start, db.domain.ofInt a ≤ row db.target.leading := fun row hrow =>
    mem_inOrder.mp (List.mem_of_mem_take hrow)
  have hkey : ∀ row ∈ db.pageRows start limit rows, ∃ k, row db.target.leading = db.domain.ofInt k ∧
      cellOf df.columns (db.imageOf row) db.target.leading = .int k ∧
      (seen k).content db.init db.target k = some (db.imageOf row) := by
    intro row hrow
    obtain ⟨k, hk, hcontent⟩ := h.present row (hmem row hrow).1
    exact ⟨k, hk, by rw [hcolumns, cellOf_imageOf, hk, db.int_cell], hcontent⟩
  have hsorted : (db.inOrder start rows).Pairwise fun row row' =>
    row db.target.leading < row' db.target.leading :=
    inOrder_increasing unique
  have hcells : ∀ row, cellsOf df.columns (db.imageOf row) db.target.columns = db.imageOf row := by
    intro row
    rw [hcolumns]
    exact List.map_congr_left fun _ hname => cellOf_map _ hname
  refine { int_key := ?_, from_start := ?_, increasing := ?_, capped := ?_, columns_eq := hcolumns,
           present := ?_, absent := ?_ }
  · intro image himage
    rw [hrows] at himage
    obtain ⟨row, hrow, rfl⟩ := List.mem_map.mp himage
    obtain ⟨k, -, hcell, -⟩ := hkey row hrow
    exact ⟨k, hcell⟩
  · intro image himage a ha
    rw [hrows] at himage
    obtain ⟨row, hrow, rfl⟩ := List.mem_map.mp himage
    obtain ⟨k, hk, hcell, -⟩ := hkey row hrow
    rw [hcell]
    have := (hmem row hrow).2 a ha
    rw [hk] at this
    exact (db.ofInt_le a k).mp this
  · rw [hrows, List.pairwise_map]
    refine (hsorted.sublist (List.take_sublist _ _)).imp_of_mem fun {row row'} hrow hrow' hlt => ?_
    obtain ⟨k, hk, hcell, -⟩ := hkey row hrow
    obtain ⟨k', hk', hcell', -⟩ := hkey row' hrow'
    rw [hcell, hcell']
    rw [hk, hk'] at hlt
    exact ofInt_lt.mp hlt
  · have := List.length_take_le limit.toNat (db.inOrder start rows)
    rw [hrows, List.length_map, pageRows]
    omega
  · intro image himage
    rw [hrows] at himage
    obtain ⟨row, hrow, rfl⟩ := List.mem_map.mp himage
    obtain ⟨k, -, hcell, hcontent⟩ := hkey row hrow
    rw [hcell, hcells]
    exact hcontent
  · intro k hstart hnot hpassed
    by_contra hsome
    obtain ⟨row, hrow, hk⟩ := h.stored k hsome
    have hin : row ∈ db.inOrder start rows :=
      mem_inOrder.mpr ⟨hrow, fun a ha => by rw [hk]; exact (db.ofInt_le a k).mpr (hstart a ha)⟩
    rw [← List.take_append_drop limit.toNat (db.inOrder start rows)] at hin hsorted
    rcases List.mem_append.mp hin with htake | hdrop
    · -- the row is in the page
      refine hnot (db.imageOf row) (by rw [hrows]; exact List.mem_map_of_mem htake) ?_
      rw [hcolumns, cellOf_imageOf, hk, db.int_cell]
      rfl
    · rcases hpassed with hshort | ⟨image, himage, hlt⟩
      · -- the page is full
        have hlong : limit.toNat < (db.inOrder start rows).length := by
          by_contra hle
          rw [List.drop_eq_nil_of_le (not_lt.mp hle)] at hdrop
          cases hdrop
        rw [hrows, List.length_map, pageRows, List.length_take] at hshort
        omega
      · -- the page ends before the row
        rw [hrows] at himage
        obtain ⟨row', hrow', rfl⟩ := List.mem_map.mp himage
        obtain ⟨k', hk', hcell', -⟩ := hkey row' hrow'
        have hbefore := (List.pairwise_append.mp hsorted).2.2 row' hrow' row hdrop
        rw [hk, hk'] at hbefore
        rw [hcell'] at hlt
        exact absurd (ofInt_lt.mp hbefore) (not_lt.mpr (le_of_lt hlt))

end Database

namespace Serves

variable {db : Database σ V} {conn : MSSQLConnector σ} (h : Serves db conn) {w w' : σ}

include h

omit h in
/-- What the page of the statement shows, cell by cell. -/
theorem page_shows {spec : TableSpec} {start : Option ℤ} {limit : ℤ} {rows : List (Meaning.Row V)}
    (hspec : db.Right spec) (hlimit : 1 ≤ limit) :
    (page db.domain spec start none limit rows).map (List.map db.toCell) =
      (db.pageRows start limit rows).map db.imageOf := by
  obtain ⟨⟨-, -, hpk, hbusiness⟩, hderived, -⟩ := hspec
  have hfilter : (rows.filter fun row =>
      (∀ a ∈ start, db.domain.ofInt a ≤ row (spec.pkColumns.headD "")) ∧
      ∀ stop ∈ (none : Option ℤ), row (spec.pkColumns.headD "") < db.domain.ofInt stop) =
        rows.filter fun row => ∀ a ∈ start, db.domain.ofInt a ≤ row db.target.leading := by
    rw [hpk]
    refine List.filter_congr fun row _ => decide_eq_decide.mpr ?_
    simp [Target.leading]
  have himage : ∀ row : Meaning.Row V, (spec.capturedColumns.map fun column =>
      if column.isComputed then db.domain.null else row column.name).map db.toCell = db.imageOf row := by
    intro row
    rw [Database.imageOf, ← hbusiness, TableSpec.businessColumns, List.map_map, List.map_map]
    refine List.map_congr_left fun column hcolumn => ?_
    simp only [Function.comp, Database.cellAt, ← hderived column hcolumn]
    split_ifs with hcomputed
    · exact db.null_cell
    · rfl
  rw [page, hfilter, if_neg (by omega : ¬ limit = 0), List.map_map, Database.pageRows,
    Database.inOrder, hpk]
  exact List.map_congr_left fun row _ => himage row

/-- **A table read is a page of the table.** -/
theorem readTable_page {spec : TableSpec} {start : Option ℤ} {limit : ℤ} {df : DataFrame}
    (hspec : db.Right spec) (hlimit : 1 ≤ limit)
    (hread : conn.readTable spec start none limit w = .ok df w') :
    ∃ seen, (∀ k, Within db.view w w' (seen k)) ∧ Page db.init db.target seen start limit df := by
  obtain ⟨hschema, htable, hpk, hbusiness⟩ := hspec.describes
  simp only [MSSQLConnector.readTable, bind_ok, ofExcept_ok, pure_ok] at hread
  obtain ⟨⟨query, params⟩, _, ⟨hbuild, rfl⟩, result, w₁, hx, fs, _, ⟨hfs, rfl⟩, columns, _,
    ⟨hconform, rfl⟩,
    rfl, rfl⟩ := hread
  obtain ⟨haccepts, rfl, rfl⟩ := buildReadTableQuery_ok.mp hbuild
  have hplain : (statement conn.pagination spec start none limit).PlainNames :=
    statement_plain haccepts.identifiers haccepts.keyed
  obtain ⟨seen, table, out, hseen, hstores, hreads, hshows⟩ := h.selects hplain hschema htable hx
  have hstored : ∀ column ∈ spec.capturedColumns, column.isComputed = true →
      column.name ∉ spec.pkColumns := by
    intro column hcolumn hcomputed hkey
    obtain ⟨name, hname⟩ := db.single_key
    have hleading : column.name = db.target.leading := by
      rw [hpk, hname, List.mem_singleton] at hkey
      rw [hkey, Target.leading, hname]
      rfl
    exact db.stored_key (hleading ▸ (hspec.derived column hcolumn).mp hcomputed)
  have hunique : table.rows.Pairwise fun row row' =>
      spec.pkColumns.map row ≠ spec.pkColumns.map row' := by
    rw [hpk]
    exact table.unique
  have hnull : ∀ row ∈ table.rows, ∀ name ∈ spec.pkColumns, row name ≠ db.domain.null := by
    rw [hpk]
    exact table.not_null
  obtain rfl := (reads_statement haccepts hstored ⟨table.rows, hunique, hnull⟩).mp hreads
  rw [page_shows hspec hlimit] at hshows
  have hnames : (statement conn.pagination spec start none limit).items.map Item.name =
      db.target.columns := by
    rw [← hbusiness, statement, List.map_map]
    rfl
  rw [hnames] at hshows
  have hlength : ∀ row ∈ (db.pageRows start limit table.rows).map db.imageOf,
      row.length = db.target.columns.length := by
    intro image himage
    obtain ⟨row, -, rfl⟩ := List.mem_map.mp himage
    exact List.length_map _
  obtain ⟨hcolumns, hrows⟩ :=
    conform_same h.casts hshows hconform ((fields_names hfs).trans hbusiness) hlength
  exact ⟨seen, hseen, hstores.page table.unique hlimit hcolumns hrows⟩

end Serves

/-! ### The promises -/

/-- **A SQL Server keeps the promises**, to reads under the specs that are right about the table. -/
theorem laws_guarded {db : Database σ V} {conn : MSSQLConnector σ} (h : Serves db conn) :
    Laws (guarded db.Right conn.source) db.view db.init db.target where
  grows := by
    have hgrows : DriverMoves (Sends conn.pagination) (fun w w' => Grows (db.view w) (db.view w')) conn :=
      { refl := fun w => Grows.refl (db.view w)
        trans := Grows.trans
        execute := fun hsent w => (h.later.execute hsent w).grows
        monotonic := fun w => (h.later.monotonic w).grows
        sleep := fun time w => (h.later.sleep time w).grows }
    exact moving_guarded hgrows.moving_source
  inspect_names hi := by
    obtain ⟨hschema, htable, -⟩ := MSSQLConnector.inspect_ok hi
    exact ⟨hschema, htable⟩
  maxLsn_wide hm := by
    obtain ⟨s, -, hwide, rfl⟩ := h.getMaxLsn_ok hm
    exact hwide
  maxLsn_le hm := by
    obtain ⟨s, hs, -, rfl⟩ := h.getMaxLsn_ok hm
    exact hs.2.mark_le
  readEventLog hspec hci hread := by
    obtain ⟨⟨-, -, captureInstance, hknown, hnamed⟩, hread⟩ := guard_returns hread
    obtain rfl := Option.some.inj (hci.symm.trans hnamed)
    obtain ⟨s, hs, hfloor, hcarries⟩ := h.readEventLog_ok hspec hknown hnamed hread
    exact ⟨s, hs.1.grows, hs.2.grows, hfloor, hcarries⟩
  toEvents _ _ _ _ := rfl
  incrementLsn _ _ := rfl
  later := moving_guarded h.later.moving_source
  single_key := db.single_key
  int_keys := db.int_keys
  maxLsn_mark hm := by
    obtain ⟨s, hs, -, hmark⟩ := h.getMaxLsn_ok hm
    exact ⟨s, hs.during, hmark⟩
  minLsn_floor hm := by
    obtain ⟨s, hs, hfloor⟩ := h.getMinLsn_ok hm
    exact ⟨s, hs.during, hfloor⟩
  watermark_clock hm := by
    obtain ⟨s, hs, hclock⟩ := h.watermark_ok hm
    exact ⟨s, hs.during, hclock⟩
  barrier := h.barrier
  readTable _ hlimit hread := by
    obtain ⟨hright, hread⟩ := guard_returns hread
    obtain ⟨seen, hseen, hpage⟩ := h.readTable_page hright hlimit hread
    exact ⟨seen, fun k => (hseen k).during, hpage⟩

end PyDBLog.Mssql.Server
