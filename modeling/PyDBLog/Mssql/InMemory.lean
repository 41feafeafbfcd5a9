import PyDBLog.Mssql.Server
import PyDBLog.World.InMemory

/-! # A SQL Server in memory

The source in memory of the items, behind the texts: it answers what the connector executes on the
table of items, a tick of its clock after each statement, and raises on any other text. It serves as
SQL Server does (`serves`). -/

namespace PyDBLog.Mssql.InMemory

open PyDBLog.Model.Python PyDBLog.Model.Frame PyDBLog.Model.Types PyDBLog.Model.Connector
open PyDBLog.Model.Worlds PyDBLog.Replay.Basic
open PyDBLog.World.Log PyDBLog.World.Log.Source PyDBLog.World.Promises PyDBLog.World.InMemory
open PyDBLog.Mssql.Schema PyDBLog.Mssql.Connector PyDBLog.Mssql.Connector.MSSQLConnector
open PyDBLog.Mssql.ReadTable hiding items
open PyDBLog.Mssql.Texts PyDBLog.Mssql.Identifiers PyDBLog.Mssql.Capture
open PyDBLog.Mssql.Catalogue PyDBLog.Mssql.Conform PyDBLog.Mssql.Driver PyDBLog.Mssql.Server
open PyDBLog.Sql PyDBLog.Sql.Statement PyDBLog.Sql.Text PyDBLog.Sql.Meaning

/-! ### Cells in an order -/

def codes (s : String) : List ℤ := s.toList.map fun c => (c.toNat : ℤ)

theorem codes_inj {s s' : String} (h : codes s = codes s') : s = s' := by
  have hinj : Function.Injective fun c : Char => (c.toNat : ℤ) := fun c c' hc =>
    Char.toNat_inj.mp (Int.ofNat.inj hc)
  exact String.toList_inj.mp (hinj.list_map h)

/-- Null below all, and the integers as they are. -/
def rank : Cell → List ℤ
  | .null => [0]
  | .int n => [1, n]
  | .bool b => [2, if b then 1 else 0]
  | .str s => 3 :: codes s
  | .bytes b => 4 :: b.map fun byte => (byte.val : ℤ)
  | .datetime t => [5, t]
  | .other type value => 6 :: (codes type).length :: (codes type ++ codes value)

theorem rank_injective : Function.Injective rank := by
  have hbyte : Function.Injective fun byte : Byte => (byte.val : ℤ) := fun b b' h =>
    Fin.ext (Int.ofNat.inj h)
  intro a b h
  cases a <;> cases b <;> simp only [rank, List.cons.injEq] at h
  -- cells of two types differ in the first number
  all_goals try exact absurd h.1 (by decide)
  case null.null => rfl
  case int.int => rw [h.2.1]
  case bool.bool b b' => cases b <;> cases b' <;> simp at h ⊢
  case str.str => rw [codes_inj h.2]
  case bytes.bytes => rw [hbyte.list_map h.2]
  case datetime.datetime => rw [h.2.1]
  case other.other =>
    obtain ⟨htype, hvalue⟩ := List.append_inj h.2.2 (Int.ofNat.inj h.2.1)
    rw [codes_inj htype, codes_inj hvalue]

instance : LinearOrder Cell := LinearOrder.lift' rank rank_injective

/-! ### The server -/

/-- The catalogue of the table. -/
def catalogue : TableCatalogue where
  pkColumns := ["id"]
  columns := [⟨"id", "int", 10, 0, none⟩, ⟨"name", "nvarchar", 0, 0, none⟩]
  captureInstance := some "dbo_items"
  changeTable := [⟨"__$start_lsn", "binary", 0, 0, none⟩, ⟨"__$seqval", "binary", 0, 0, none⟩,
    ⟨"__$operation", "int", 10, 0, none⟩, ⟨"__$update_mask", "varbinary", 0, 0, none⟩,
    ⟨"id", "int", 10, 0, none⟩, ⟨"name", "nvarchar", 0, 0, none⟩]
  plain := by decide

/-- The spec it describes. -/
def itemsSpec : TableSpec := catalogue.tableSpec "dbo" "items"

/-- A tick of the clock. -/
def tick (m : Items) : Items :=
  { m with
    clock := m.clock + 1
    dated := fun c hc => (m.dated c hc).trans (Int.le_add_one le_rfl) }

/-- What is stored. -/
def storedRows (m : Items) : List (Meaning.Row Cell) :=
  m.keys.map fun k => cellOf items.columns ((m.table k).getD [])

/-- The cells as values. -/
def cells : Domain Cell := ⟨.null, .int⟩

/-- What a SELECT with a start and a limit answers. -/
def pageOf (m : Items) (start : Option ℤ) (limit : ℤ) : ResultSet :=
  ⟨[], shown items.columns (page cells itemsSpec start none limit (storedRows m))⟩

/-- The session log: one empty scan, up to now, where all is reported. -/
def scanLog (m : Items) : List ScanSession :=
  if ∀ c ∈ m.changes, c.startLsn ≤ m.mark then [⟨1, m.clock, some m.clock, 1⟩] else []

/-- What a text with parameters answers, if it is one the table knows. -/
def reply (query : String) (params : List Cell) (m : Items) : Option ResultSet :=
  match params with
  | [] =>
    if query = "SELECT sys.fn_cdc_get_max_lsn() as max_lsn" then some (answer [[.bytes m.mark]])
    else if query = "SELECT SYSDATETIME()" then some (answer [[.datetime m.clock]])
    else none
  | [.str name] =>
    if query = "SELECT sys.fn_cdc_get_min_lsn(?) as min_lsn" then some (answer [[.bytes m.floor]])
    else if query = pkColumnsQuery then some (answer (catalogue.pkColumns.map fun key => [.str key]))
    else if query = captureInstanceQuery "cdc" then some (answer [[.str "dbo_items"]])
    else if query = columnsQuery ∧ name = "dbo.items" then
      some (answer (catalogue.columns.map columnRow))
    else if query = columnsQuery then some (answer (catalogue.changeTable.map columnRow))
    else none
  | [.datetime mark, .datetime _] =>
    if query = capturePassedQuery then
      some (answer ((scanLog m).map fun row => [.int (passedCase mark row)]))
    else none
  | [.bytes low, .bytes high] =>
    if query = eventLogText items.columns "dbo_items" ∧ m.floor ≤ low then
      some ⟨[], shown (metadataColumns ++ items.columns)
        ((m.source.window low high).map (Change.eventRow items.columns))⟩
    else none
  | [.int limit] =>
    if query = (statement .fetch itemsSpec none none limit).text ∧ 0 < limit then
      some (pageOf m none limit)
    else none
  | [.int start, .int limit] =>
    if query = (statement .fetch itemsSpec (some start) none limit).text ∧ 0 < limit then
      some (pageOf m (some start) limit)
    else none
  | _ => none

def server : MSSQLConnector Items := serverOf fun query params m =>
  match reply query params m with
  | some result => .ok result (tick m)
  | none => .error (.driverError query) (tick m)

def database : Database Items Cell where
  view := Memory.source
  init := fun _ => none
  target := items
  derived := []
  instances := ["dbo_items"]
  domain := cells
  toCell := id
  null_cell := rfl
  int_cell _ := rfl
  ofInt_le a b := by
    show [1, a] ≤ [1, b] ↔ a ≤ b
    rw [← not_lt, ← not_lt, List.cons_lt_cons_iff, List.cons_lt_cons_iff]
    simp
  single_key := ⟨"id", rfl⟩
  stored_key := List.not_mem_nil
  int_keys m c hc := by
    obtain ⟨k, -, hk⟩ := m.keyed c hc
    exact ⟨k, hk⟩

/-! ### It serves -/

variable {query : String} {params : List Cell} {result : ResultSet} {m m' : Items}

theorem execute_ok : server.execute query params m = .ok result m' ↔
    reply query params m = some result ∧ m' = tick m := by
  simp only [server, serverOf]
  cases reply query params m <;> simp [eq_comm]

theorem follows_tick (m : Items) : Follows m.source (tick m).source where
  mark_le := le_rfl
  clock_le := Int.le_add_one le_rfl
  floor_le _ := le_rfl
  appended := List.prefix_rfl
  above_mark c hc := by simp [added, tick, Memory.source] at hc
  above_floor c hc := by simp [added, tick, Memory.source] at hc
  dated_from c hc := by simp [added, tick, Memory.source] at hc

/-- What comes later does so at any later time. -/
theorem later_ticks (n : ℕ) {m m' : Items} (h : Later m.source m'.source) :
    Later (tick^[n] m).source (tick^[n] m').source := by
  induction n generalizing m m' with
  | zero => exact h
  | succ n ih =>
    rw [Function.iterate_succ_apply, Function.iterate_succ_apply]
    exact ih
      { mark_le := h.mark_le
        clock_le := Int.add_le_add_right h.clock_le 1
        floor_le := h.floor_le
        appended := h.appended
        above_mark := h.above_mark
        above_floor := h.above_floor }

theorem within_tick (m : Items) : Within Memory.source m (tick m) m.source :=
  ⟨Follows.refl _, follows_tick m⟩

theorem moves_execute (query : String) (params : List Cell) :
    Moves (fun m m' : Items => Follows m.source m'.source) (server.execute query params) := by
  intro m
  simp only [server, serverOf]
  cases reply query params m <;> exact follows_tick m

theorem moves {sent : Executed → Prop} :
    DriverMoves sent (fun m m' : Items => Follows m.source m'.source) server where
  refl m := Follows.refl m.source
  trans := Follows.trans
  execute _ := moves_execute _ _
  monotonic m := Follows.refl m.source
  sleep _ m := Follows.refl m.source

/-- What the session log shows is so. -/
theorem scanned (m : Items) (mark : Datetime) : Scanned m.source (scanLog m) mark where
  accounts := by
    unfold scanLog
    split_ifs with hall
    · exact ⟨fun _ _ _ x _ _ c hc _ => hall c hc, fun _ _ _ _ _ x _ _ c hc _ => hall c hc⟩
    · exact ⟨by simp [sessions], by simp [sessions]⟩
  past row hrow := by
    unfold scanLog at hrow
    split_ifs at hrow with hall
    · obtain rfl := List.mem_singleton.mp (List.mem_filter.mp hrow).1
      exact ⟨le_rfl, by rintro _ ⟨⟩; exact le_rfl⟩
    · cases hrow
  reliable := by
    unfold scanLog
    split_ifs with hall
    · exact Or.inl ⟨_, List.mem_filter.mpr ⟨List.mem_cons_self, by simp⟩, by simp⟩
    · exact Or.inr (by simp [sessions])

theorem answers (m : Items) (mark : Datetime) :
    Answers (scanLog m) mark ((scanLog m).map fun row => [.int (passedCase mark row)]) := by
  unfold scanLog
  split_ifs with hall
  · refine Or.inr ⟨_, List.mem_filter.mpr ⟨List.mem_cons_self, by simp⟩, fun row hrow => ?_, rfl⟩
    obtain rfl := List.mem_singleton.mp (List.mem_filter.mp hrow).1
    exact fun e he => ⟨e, he, le_rfl⟩
  · exact Or.inl ⟨rfl, rfl⟩

/-! ### Rows -/

theorem storedRows_leading {row : Meaning.Row Cell} (h : row ∈ storedRows m) :
    ∃ k ∈ m.keys, row = cellOf items.columns ((m.table k).getD []) ∧ row "id" = .int k := by
  obtain ⟨k, hk, rfl⟩ := List.mem_map.mp h
  exact ⟨k, hk, rfl, (Memory.row_of_mem (by decide) hk).2.1⟩

/-- The table of the rows. -/
def stored (m : Items) : Meaning.Table cells ["id"] where
  rows := storedRows m
  unique := by
    rw [storedRows, List.pairwise_map]
    refine m.keys_increasing.imp_of_mem fun {k k'} hk hk' hlt heq => ?_
    have hcell : ∀ {k}, k ∈ m.keys → cellOf items.columns ((m.table k).getD []) "id" = .int k :=
      fun hk => (Memory.row_of_mem (t := items) (by decide) hk).2.1
    rw [List.map_singleton, List.map_singleton, hcell hk, hcell hk'] at heq
    exact hlt.ne (Cell.int.inj (List.cons.inj heq).1)
  not_null row hrow name hname := by
    obtain ⟨k, -, -, hk⟩ := storedRows_leading hrow
    rw [List.mem_singleton.mp hname, hk]
    simp [cells]

theorem stores (m : Items) : database.Stores (fun _ => m.source) (storedRows m) where
  present row hrow := by
    obtain ⟨k, hk, rfl, hid⟩ := storedRows_leading hrow
    refine ⟨k, hid, ?_⟩
    obtain ⟨hrow, -, hcells⟩ := Memory.row_of_mem (t := items) (by decide) hk
    have himage : database.imageOf (cellOf items.columns ((m.table k).getD [])) =
        cellsOf items.columns ((m.table k).getD []) items.columns :=
      List.map_congr_left fun name _ => if_neg List.not_mem_nil
    rw [himage, hcells]
    exact hrow
  stored k hk := by
    obtain ⟨image, himage⟩ := Option.ne_none_iff_exists'.mp hk
    have hmem : k ∈ m.keys := Memory.mem_keys.mpr ⟨image, himage⟩
    exact ⟨_, List.mem_map_of_mem hmem, (Memory.row_of_mem (t := items) (by decide) hmem).2.1⟩

/-! ### Texts -/

theorem accepts {start : Option ℤ} {limit : ℤ} (hlimit : 0 ≤ limit) :
    Accepts itemsSpec start none limit where
  keyed := by decide
  captured := by decide
  limit_nonneg := hlimit
  ordered := by simp
  identifiers := ⟨by decide, by decide, by decide, by decide⟩

/-- The statement of a page, known by its text. -/
theorem statement_eq {q : Select} {start : Option ℤ} {limit : ℤ} (plain : q.PlainNames)
    (hlimit : 0 < limit) (h : q.text = (statement .fetch itemsSpec start none limit).text) :
    q = statement .fetch itemsSpec start none limit :=
  have haccepts : Accepts itemsSpec start none limit := accepts hlimit.le
  Select.text_injective plain (statement_plain haccepts.identifiers haccepts.keyed) h

/-- A SELECT of a table is a text of five words at least. -/
theorem text_ne {q : Select} (plain : q.PlainNames) (ws : List String)
    (hblank : ∀ w ∈ ws, ' ' ∉ w.toList) (hne : ws ≠ []) (hlength : ws.length < 5) :
    q.text ≠ " ".intercalate ws := by
  intro heq
  have hwords : ∀ w ∈ q.words.map Word.text, ' ' ∉ w.toList := by
    intro w hw
    obtain ⟨word, hword, rfl⟩ := List.mem_map.mp hw
    exact Select.blank_notMem plain word hword
  have := congrArg List.length (intercalate_inj hwords hblank (by simp [Select.words]) hne heq)
  simp [Select.words, Select.fromWords, Select.orderWords] at this
  omega

/-- A SELECT that is answered is the one of a page. -/
theorem reply_select {q : Select} {params : List ℤ} (h : reply q.text (params.map .int) m = some result)
    (plain : q.PlainNames) : ∃ start limit, 0 ≤ limit ∧ q = statement .fetch itemsSpec start none limit ∧
      params = parameters .fetch start none limit ∧ result = pageOf m start limit := by
  match params with
  | [] =>
    have hmark : q.text ≠ "SELECT sys.fn_cdc_get_max_lsn() as max_lsn" :=
      text_ne plain ["SELECT", "sys.fn_cdc_get_max_lsn()", "as", "max_lsn"] (by decide) (by decide)
        (by decide)
    have hclock : q.text ≠ "SELECT SYSDATETIME()" :=
      text_ne plain ["SELECT", "SYSDATETIME()"] (by decide) (by decide) (by decide)
    simp only [List.map_nil, reply, if_neg hmark, if_neg hclock, reduceCtorEq] at h
  | [limit] =>
    simp only [List.map_cons, List.map_nil, reply] at h
    split_ifs at h with hq
    refine ⟨none, limit, hq.2.le, statement_eq plain hq.2 hq.1, ?_, (Option.some.inj h).symm⟩
    simp [parameters, hq.2]
  | [start, limit] =>
    simp only [List.map_cons, List.map_nil, reply] at h
    split_ifs at h with hq
    refine ⟨some start, limit, hq.2.le, statement_eq plain hq.2 hq.1, ?_, (Option.some.inj h).symm⟩
    simp [parameters, hq.2]
  | _ :: _ :: _ :: _ => cases h

theorem keys_text : pkColumnsQuery ≠ "SELECT sys.fn_cdc_get_min_lsn(?) as min_lsn" := by decide +kernel

theorem named_text : captureInstanceQuery "cdc" ≠ "SELECT sys.fn_cdc_get_min_lsn(?) as min_lsn" ∧
    captureInstanceQuery "cdc" ≠ pkColumnsQuery := by decide +kernel

theorem columns_text : columnsQuery ≠ "SELECT sys.fn_cdc_get_min_lsn(?) as min_lsn" ∧
    columnsQuery ≠ pkColumnsQuery ∧ columnsQuery ≠ captureInstanceQuery "cdc" := by decide +kernel

/-- **It answers as SQL Server does.** -/
theorem serves : Serves database server where
  moves := moves
  casts _ _ _ _ h := (Option.some.inj h).symm
  maxLsn {m result m'} hx := by
    obtain ⟨h, rfl⟩ := execute_ok.mp hx
    rw [reply, if_pos rfl] at h
    obtain rfl := Option.some.inj h
    exact Or.inr ⟨m.source, within_tick m, m.mark_wide, rfl⟩
  minLsn {captureInstance m result m'} hx := by
    obtain ⟨h, rfl⟩ := execute_ok.mp hx
    rw [reply, if_pos rfl] at h
    obtain rfl := Option.some.inj h
    exact Or.inr (Or.inr ⟨m.source, within_tick m, rfl⟩)
  clock {m result m'} hx := by
    obtain ⟨h, rfl⟩ := execute_ok.mp hx
    rw [reply, if_neg (by decide), if_pos rfl] at h
    obtain rfl := Option.some.inj h
    exact Or.inr ⟨m.source, within_tick m, rfl⟩
  scans {mark m result m'} hx := by
    obtain ⟨h, rfl⟩ := execute_ok.mp hx
    rw [reply, if_pos rfl] at h
    obtain rfl := Option.some.inj h
    exact ⟨m.source, scanLog m, within_tick m, scanned m mark, answers m mark⟩
  changes {captureInstance low high m result m'} known hx := by
    obtain ⟨h, rfl⟩ := execute_ok.mp hx
    obtain rfl := List.mem_singleton.mp known
    simp only [reply] at h
    split_ifs at h with hq
    obtain rfl := Option.some.inj h
    refine ⟨m.source, within_tick m, hq.2, ?_⟩
    rw [retained_window (show m.source.floor _ ≤ low from hq.2)]
    exact shown_shows _ _
  selects {q params m result m'} plain _ _ hx := by
    obtain ⟨h, rfl⟩ := execute_ok.mp hx
    obtain ⟨start, limit, hlimit, rfl, rfl, rfl⟩ := reply_select h plain
    refine ⟨fun _ => m.source, stored m, _, fun _ => within_tick m, stores m,
      (reads_statement (accepts hlimit) (by decide) (stored m)).mpr rfl, ?_⟩
    have hout : ∀ out : List (List Cell), out.map (List.map database.toCell) = out := fun out => by
      show out.map (List.map id) = out
      simp
    rw [hout]
    exact shown_shows _ _
  keys {m result m'} hx := by
    obtain ⟨h, rfl⟩ := execute_ok.mp hx
    rw [reply, if_neg keys_text, if_pos rfl] at h
    obtain rfl := Option.some.inj h
    rfl
  named {m result m'} hx := by
    obtain ⟨h, rfl⟩ := execute_ok.mp hx
    rw [reply, if_neg named_text.1, if_neg named_text.2, if_pos rfl] at h
    obtain rfl := Option.some.inj h
    exact fun row hrow => ⟨"dbo_items", List.mem_singleton_self _, List.mem_singleton.mp hrow⟩
  columns {m result m'} hx := by
    obtain ⟨h, rfl⟩ := execute_ok.mp hx
    rw [reply, if_neg columns_text.1, if_neg columns_text.2.1, if_neg columns_text.2.2,
      if_pos ⟨rfl, by decide⟩] at h
    obtain rfl := Option.some.inj h
    exact ⟨catalogue.columns, rfl, by simp [database, catalogue, ColumnSpec.isComputed]⟩
  changeTable {captureInstance m result m'} known hx := by
    obtain ⟨h, rfl⟩ := execute_ok.mp hx
    obtain rfl := List.mem_singleton.mp known
    rw [reply, if_neg columns_text.1, if_neg columns_text.2.1, if_neg columns_text.2.2,
      if_neg (fun h => absurd h.2 (by decide)), if_pos rfl] at h
    obtain rfl := Option.some.inj h
    exact ⟨catalogue.changeTable, rfl, by decide, catalogue.plain⟩

end PyDBLog.Mssql.InMemory
