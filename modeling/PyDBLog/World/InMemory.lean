import PyDBLog.World.Promises
import Mathlib.Data.List.Sort

/-! # A source in memory

A source that is a log and nothing else. The table is the replay of the log over an empty one, every
primitive answers from the log and leaves it as it is, and the barrier raises until the capture job
is past the mark. Such a source keeps every promise (`Memory.laws`). -/

namespace PyDBLog.World.InMemory

open PyDBLog.Model.Python PyDBLog.Model.Frame PyDBLog.Model.Types PyDBLog.Model.Connector
open PyDBLog.Model.Worlds PyDBLog.Model.Returns
open PyDBLog.Mssql.Schema PyDBLog.Mssql.Connector
open PyDBLog.Replay.Basic PyDBLog.Replay.Cut
open PyDBLog.World.Log PyDBLog.World.Log.Source PyDBLog.World.Promises

structure Memory (t : Target) (range : Set ℤ) where
  changes : List Change
  mark : LSN
  floor : LSN
  clock : Datetime
  strict : changes.Pairwise fun a b => a.position < b.position
  wide : ∀ c ∈ changes, c.startLsn.length = lsnWidth
  positive : ∀ c ∈ changes, zeroBytes lsnWidth < c.startLsn
  dated : ∀ c ∈ changes, c.commitTime ≤ clock
  keyed : ∀ c ∈ changes, ∃ k ∈ range, c.cells t.leading = .int k
  mark_wide : mark.length = lsnWidth

variable {t : Target} {range : Set ℤ}

namespace Memory

/-- The source it is. -/
def source (m : Memory t range) : Source where
  changes := m.changes
  mark := m.mark
  floor _ := m.floor
  clock := m.clock
  ordered := m.strict.imp fun h => h.le
  wide := m.wide
  dated := m.dated

/-- The table. -/
def table (m : Memory t range) : Table ℤ Image := m.source.content (fun _ => none) t

/-- The keys of the table, in order. -/
def keys (m : Memory t range) : List ℤ :=
  ((m.changes.map fun c => keyOf (c.cells t.leading)).dedup.insertionSort (· ≤ ·)).filter
    fun k => (m.table k).isSome

/-- The keys of a page. -/
def pageKeys (m : Memory t range) (start : Option ℤ) (limit : ℤ) : List ℤ :=
  (m.keys.filter fun k => start.getD k ≤ k).take limit.toNat

/-- The dtypes of the captured columns. -/
def cellSchema (t : Target) : List (String × DType) := t.columns.map fun name => (name, .other "cell")

def page (m : Memory t range) (start : Option ℤ) (limit : ℤ) : DataFrame :=
  ⟨cellSchema t, (m.pageKeys start limit).map fun k => (m.table k).getD []⟩

/-- The events of a range, none where there is no event. -/
def events (m : Memory t range) (low high : LSN) : Option DataFrame :=
  let rows := (m.source.window low high).map (Change.eventRow t.columns)
  if rows = [] then none
  else some ⟨[("start_lsn", .binary), ("seqval", .binary), ("operation", .int32),
    ("update_mask", .binary), ("commit_timestamp", .datetime .us)] ++ cellSchema t, rows⟩

/-- The spec of the table. -/
def spec (t : Target) : TableSpec where
  sourceSchema := t.schema
  sourceTable := t.table
  pkColumns := t.pk
  columns := t.columns.map fun name => ⟨name, "int", 10, 0, none⟩
  capturedColumns := t.columns.map fun name => ⟨name, "int", 10, 0, none⟩
  captureInstance := some (t.schema ++ "_" ++ t.table)

theorem spec_describes (t : Target) : t.Describes (spec t) := by
  refine ⟨rfl, rfl, rfl, ?_⟩
  rw [TableSpec.businessColumns, spec, List.map_map]
  exact List.map_id _

/-- A primitive that only looks. -/
def ask {α : Type} (f : Memory t range → Except PyError α) : Call (Memory t range) α := fun m =>
  match f m with
  | .ok a => .ok a m
  | .error e => .error e m

theorem ask_ok {α : Type} {f : Memory t range → Except PyError α} {a : α} {m m' : Memory t range} :
    ask f m = .ok a m' ↔ f m = .ok a ∧ m = m' := by
  unfold ask
  cases f m <;> simp

theorem moves_ask {α : Type} {R : Memory t range → Memory t range → Prop} (hR : ∀ m, R m m)
    (f : Memory t range → Except PyError α) : Moves R (ask f) := by
  intro m
  unfold ask
  cases f m <;> exact hR m

/-- The capture job is past everything committed by the mark. -/
def Passed (m : Memory t range) (mark : Datetime) : Prop :=
  ∀ c ∈ m.changes, c.commitTime ≤ mark → c.startLsn ≤ m.mark

instance (m : Memory t range) (mark : Datetime) : Decidable (m.Passed mark) :=
  inferInstanceAs (Decidable (∀ c ∈ m.changes, c.commitTime ≤ mark → c.startLsn ≤ m.mark))

def connector (t : Target) (range : Set ℤ) : SourceConnector (Memory t range) where
  getMaxLsn := ask fun m => .ok m.mark
  getMinLsn _ := ask fun m => .ok m.floor
  watermark := ask fun m => .ok m.clock
  awaitWatermark mark := ask fun m =>
    if m.Passed mark then .ok () else .error (.timeoutError "the capture job did not pass the watermark")
  inspect schema table := ask fun _ =>
    if schema = t.schema ∧ table = t.table then .ok (spec t) else .error (.valueError "no such table")
  readEventLog _ fromLsn toLsn := ask fun m =>
    if m.floor ≤ fromLsn then .ok (m.events fromLsn toLsn) else .error (.driverError "not retained")
  toEvents rows spec low := ask fun _ => MSSQLConnector.toEvents rows spec low
  readTable _ start _ limit := ask fun m => .ok (m.page start limit)
  incrementLsn lsn := ask fun _ => MSSQLConnector.incrementLsn lsn

/-! ### The table -/

variable {m : Memory t range} {k : ℤ} {image : Image} {start : Option ℤ} {limit : ℤ}

/-- What is under a key was put there by a change. -/
theorem table_some (h : m.table k = some image) :
    k ∈ range ∧ ∃ c ∈ m.changes, c.cells t.leading = .int k ∧ image = t.columns.map c.cells := by
  have hmem := replay_mem (k := k) (writes (m.source.entries t)) fun _ => none
  change m.table k = none ∨ _ at hmem
  rcases hmem with hnone | ⟨e, he, hkey, himage⟩
  · rw [h] at hnone; cases hnone
  obtain ⟨a, ha, rfl⟩ := List.mem_map.mp he
  obtain ⟨c, hc, rfl⟩ := List.mem_map.mp ha
  obtain ⟨k', hin, hk'⟩ := m.keyed c hc
  change m.table k = _ at himage
  simp only [Change.entry] at hkey himage
  rw [h] at himage
  split_ifs at himage with hop
  obtain rfl : k' = k := by rw [hk'] at hkey; exact hkey
  exact ⟨hin, c, hc, hk', Option.some.inj himage⟩

theorem mem_keys : k ∈ m.keys ↔ ∃ image, m.table k = some image := by
  rw [keys, List.mem_filter, List.mem_insertionSort, List.mem_dedup, Option.isSome_iff_exists]
  refine ⟨fun h => h.2, fun ⟨image, h⟩ => ⟨?_, image, h⟩⟩
  obtain ⟨-, c, hc, hk, -⟩ := table_some h
  exact List.mem_map.mpr ⟨c, hc, by rw [hk]; rfl⟩

theorem keys_increasing (m : Memory t range) : m.keys.Pairwise (· < ·) := by
  refine List.Pairwise.filter _ ?_
  have hnodup := (List.perm_insertionSort (· ≤ ·) _).nodup_iff.mpr
    (List.nodup_dedup (m.changes.map fun c => keyOf (c.cells t.leading)))
  have hsorted := List.pairwise_insertionSort (α := ℤ) (· ≤ ·)
    (m.changes.map fun c => keyOf (c.cells t.leading)).dedup
  exact (hsorted.and hnodup).imp fun ⟨hle, hne⟩ => lt_of_le_of_ne hle hne

/-- The row under a key of the table, and what it holds. -/
theorem row_of_mem (hl : t.leading ∈ t.columns) (h : k ∈ m.keys) :
    m.table k = some ((m.table k).getD []) ∧
      cellOf t.columns ((m.table k).getD []) t.leading = .int k ∧
      cellsOf t.columns ((m.table k).getD []) t.columns = (m.table k).getD [] := by
  obtain ⟨image, himage⟩ := mem_keys.mp h
  obtain ⟨-, c, -, hk, rfl⟩ := table_some himage
  rw [himage, Option.getD_some]
  exact ⟨rfl, by rw [cellOf_map _ hl, hk], List.map_congr_left fun _ h => cellOf_map _ h⟩

theorem mem_pageKeys (h : k ∈ m.pageKeys start limit) : k ∈ m.keys ∧ ∀ a ∈ start, a ≤ k := by
  have := List.mem_of_mem_take h
  rw [List.mem_filter] at this
  refine ⟨this.1, fun a ha => ?_⟩
  obtain rfl := Option.mem_def.mp ha
  simpa using this.2

/-- A key from the start on that a page does not have comes after all of it, and the page is
full. -/
theorem pageKeys_rest (hk : k ∈ m.keys) (hstart : ∀ a ∈ start, a ≤ k)
    (hnot : k ∉ m.pageKeys start limit) :
    limit ≤ (m.pageKeys start limit).length ∧ ∀ k' ∈ m.pageKeys start limit, k' < k := by
  have hmem : k ∈ m.keys.filter fun k => start.getD k ≤ k := by
    rw [List.mem_filter]
    cases start with
    | none => simpa using hk
    | some a => simpa using ⟨hk, hstart a rfl⟩
  rw [pageKeys] at hnot ⊢
  generalize hks : (m.keys.filter fun k => start.getD k ≤ k) = ks at hmem hnot ⊢
  have hsorted : ks.Pairwise (· < ·) := hks ▸ m.keys_increasing.filter _
  rw [← List.take_append_drop limit.toNat ks] at hmem hsorted
  have hdrop := (List.mem_append.mp hmem).resolve_left hnot
  refine ⟨?_, fun k' hk' => (List.pairwise_append.mp hsorted).2.2 k' hk' k hdrop⟩
  have hlen : limit.toNat < ks.length := by
    by_contra hle
    rw [List.drop_eq_nil_of_le (not_lt.mp hle)] at hdrop
    cases hdrop
  rw [List.length_take]
  omega

theorem page_columns (m : Memory t range) : (m.page start limit).columns = t.columns := by
  rw [DataFrame.columns, page, cellSchema, List.map_map]
  exact List.map_id _

/-- The rows of a page are the table's under its keys. -/
theorem row_of_page (hl : t.leading ∈ t.columns) {row : Row} (h : row ∈ (m.page start limit).rows) :
    ∃ k ∈ m.pageKeys start limit, row = (m.table k).getD [] ∧ cellOf t.columns row t.leading = .int k := by
  obtain ⟨k, hk, rfl⟩ := List.mem_map.mp h
  exact ⟨k, hk, rfl, (row_of_mem hl (mem_pageKeys hk).1).2.1⟩

/-- A page is ordered by key, from the start on. -/
theorem page_keyPage (hl : t.leading ∈ t.columns) (m : Memory t range) (hlimit : 1 ≤ limit) :
    KeyPage t.leading start limit (m.page start limit) where
  int_key row h := by
    obtain ⟨k, -, -, hk⟩ := row_of_page hl h
    exact ⟨k, m.page_columns ▸ hk⟩
  from_start row h a ha := by
    obtain ⟨k, hmem, -, hk⟩ := row_of_page hl h
    rw [page_columns, hk]
    exact (mem_pageKeys hmem).2 a ha
  increasing := by
    have hsorted : (m.pageKeys start limit).Pairwise (· < ·) :=
      (m.keys_increasing.filter _).sublist (List.take_sublist _ _)
    rw [page_columns, page, List.pairwise_map]
    refine hsorted.imp_of_mem fun {a b} ha hb hab => ?_
    rw [(row_of_mem hl (mem_pageKeys ha).1).2.1, (row_of_mem hl (mem_pageKeys hb).1).2.1]
    exact hab
  capped := by
    have := List.length_take_le limit.toNat (m.keys.filter fun k => start.getD k ≤ k)
    rw [page, List.length_map, pageKeys]
    omega

/-- A key that a page passes over is not in the table. -/
theorem page_absent (hl : t.leading ∈ t.columns) (m : Memory t range) {k : ℤ} (hstart : ∀ a ∈ start, a ≤ k)
    (hnot : ∀ row ∈ (m.page start limit).rows, keyOf (cellOf t.columns row t.leading) ≠ k)
    (hpassed : ((m.page start limit).rows.length : ℤ) < limit ∨
      ∃ row ∈ (m.page start limit).rows, k < keyOf (cellOf t.columns row t.leading)) :
    m.table k = none := by
  by_contra hsome
  obtain ⟨image, himage⟩ := Option.ne_none_iff_exists'.mp hsome
  have hout : k ∉ m.pageKeys start limit := by
    intro hk
    have := hnot _ (List.mem_map_of_mem hk)
    rw [(row_of_mem hl (mem_pageKeys hk).1).2.1] at this
    exact this rfl
  obtain ⟨hfull, hall⟩ := pageKeys_rest (mem_keys.mpr ⟨image, himage⟩) hstart hout
  rcases hpassed with hshort | ⟨row, hrow, hlt⟩
  · rw [page, List.length_map] at hshort
    omega
  · obtain ⟨k', hmem, -, hk'⟩ := row_of_page hl hrow
    rw [hk'] at hlt
    exact absurd (hall k' hmem) (not_lt.mpr (le_of_lt hlt))

/-- **A page of the table**, at the instant of the call. -/
theorem page_page (hl : t.leading ∈ t.columns) (m : Memory t range) (hlimit : 1 ≤ limit) :
    Page (fun _ => none) t (fun _ => m.source) start limit (m.page start limit) where
  toKeyPage := m.page_keyPage hl hlimit
  columns_eq := m.page_columns
  present row h := by
    obtain ⟨k, hmem, rfl, hk⟩ := row_of_page hl h
    obtain ⟨h1, -, h3⟩ := row_of_mem hl (mem_pageKeys hmem).1
    rw [page_columns, hk, h3]
    exact h1
  absent k hstart hnot hpassed := by
    rw [page_columns] at hnot hpassed
    exact m.page_absent hl hstart hnot hpassed

/-! ### The promises -/

/-- No primitive moves the source. -/
theorem moving {R : Memory t range → Memory t range → Prop} (refl : ∀ m, R m m)
    (trans : ∀ {a b c}, R a b → R b c → R a c) : Moving R (connector t range) where
  refl := refl
  trans := trans
  getMaxLsn := moves_ask refl fun m => .ok m.mark
  getMinLsn _ := moves_ask refl fun m => .ok m.floor
  watermark := moves_ask refl fun m => .ok m.clock
  awaitWatermark _ := moves_ask refl _
  inspect _ _ := moves_ask refl _
  readEventLog _ _ _ := moves_ask refl _
  toEvents _ _ _ := moves_ask refl _
  readTable _ start _ limit := moves_ask refl fun m => .ok (m.page start limit)
  incrementLsn _ := moves_ask refl _

theorem events_carries (m : Memory t range) (low high : LSN) :
    Carries t (m.source.window low high) (m.events low high) := by
  unfold events
  dsimp only
  split_ifs with h
  · exact h
  · refine ⟨?_, rfl⟩
    rw [DataFrame.columns, List.map_append, cellSchema, List.map_map]
    exact congrArg (metadataColumns ++ ·) (List.map_id _)

theorem inspect_ok {schema table : String} {spec' : TableSpec} {m m' : Memory t range}
    (h : (connector t range).inspect schema table m = .ok spec' m') :
    spec' = spec t ∧ schema = t.schema ∧ table = t.table := by
  simp only [connector, ask_ok] at h
  obtain ⟨h, -⟩ := h
  split_ifs at h with hname
  exact ⟨(Except.ok.inj h).symm, hname⟩

theorem logLaws (t : Target) (range : Set ℤ) : LogLaws (connector t range) source t where
  grows := moving (fun m => Grows.refl m.source) Grows.trans
  inspect_names h := by
    obtain ⟨rfl, rfl, rfl⟩ := inspect_ok h
    exact ⟨rfl, rfl⟩
  maxLsn_wide {m _ _} h := by
    simp only [connector, ask_ok] at h
    obtain ⟨h, -⟩ := h
    exact Except.ok.inj h ▸ m.mark_wide
  maxLsn_le h := by
    simp only [connector, ask_ok] at h
    obtain ⟨h, rfl⟩ := h
    exact (Except.ok.inj h).ge
  readEventLog {_ _ _ _ m _ _} _ _ h := by
    simp only [connector, ask_ok] at h
    obtain ⟨h, rfl⟩ := h
    split_ifs at h with hfloor
    refine ⟨m.source, Grows.refl _, Grows.refl _, hfloor, ?_⟩
    rw [retained_window (show m.source.floor _ ≤ _ from hfloor), ← Except.ok.inj h]
    exact m.events_carries _ _
  toEvents rows spec low m := by
    simp only [connector, ask]
    cases MSSQLConnector.toEvents rows spec low <;> rfl
  incrementLsn lsn m := by
    simp only [connector, ask]
    cases MSSQLConnector.incrementLsn lsn <;> rfl

theorem During.same (m : Memory t range) : During source m m m.source := ⟨Later.refl _, Later.refl _⟩

/-- **It keeps every promise.** -/
theorem laws (hpk : ∃ name, t.pk = [name]) : Laws (connector t range) source (fun _ => none) t where
  toLogLaws := logLaws t range
  later := moving (fun m => Later.refl m.source) Later.trans
  single_key := hpk
  int_keys m c hc := by
    obtain ⟨k, -, hk⟩ := m.keyed c hc
    exact ⟨k, hk⟩
  maxLsn_mark {m _ _} h := by
    simp only [connector, ask_ok] at h
    obtain ⟨h, rfl⟩ := h
    exact ⟨m.source, During.same m, (Except.ok.inj h).symm⟩
  minLsn_floor {_ m _ _} h := by
    simp only [connector, ask_ok] at h
    obtain ⟨h, rfl⟩ := h
    exact ⟨m.source, During.same m, (Except.ok.inj h).symm⟩
  watermark_clock {m _ _} h := by
    simp only [connector, ask_ok] at h
    obtain ⟨h, rfl⟩ := h
    exact ⟨m.source, During.same m, (Except.ok.inj h).symm⟩
  barrier h c hc hle := by
    simp only [connector, ask_ok] at h
    obtain ⟨h, rfl⟩ := h
    split_ifs at h with hpassed
    exact hpassed c hc hle
  readTable {_ _ _ m _ _} _ hlimit h := by
    obtain ⟨name, hname⟩ := hpk
    simp only [connector, ask_ok] at h
    obtain ⟨h, rfl⟩ := h
    obtain rfl := Except.ok.inj h
    exact ⟨fun _ => m.source, fun _ => During.same m, page_page (Target.leading_mem hname) m hlimit⟩

end Memory

/-! ### A table of items -/

def items : Target := ⟨"dbo", "items", ["id"], ["id", "name"], by decide, by decide⟩

/-- The source in memory of a table of items, numbered from 1 to 9. -/
abbrev Items := Memory items (Set.Icc 1 9)

/-- The position with a number. -/
def lsnAt (n : ℕ) : LSN := Bytes.BigEndian.digits lsnWidth n

def itemChange (n : ℕ) (operation : Operation) (id : ℤ) (name : String) : Change where
  startLsn := lsnAt n
  seqval := lsnAt n
  operation := operation
  updateMask := Bytes.BigEndian.digits 1 3
  commitTime := n
  cells column := if column = "id" then .int id else .str name

theorem itemChange_keyed {changes : List (ℕ × Operation × ℤ × String)} {c : Change}
    (hrange : ∀ x ∈ changes, 1 ≤ x.2.2.1 ∧ x.2.2.1 ≤ 9)
    (h : c ∈ changes.map fun (n, op, id, name) => itemChange n op id name) :
    ∃ k ∈ Set.Icc (1 : ℤ) 9, c.cells items.leading = .int k := by
  obtain ⟨⟨n, op, id, name⟩, hmem, rfl⟩ := List.mem_map.mp h
  exact ⟨id, hrange _ hmem, rfl⟩

/-- Two items, and a capture job that is past them. -/
def stock : Items where
  changes := [(1, .insert, 1, "bolt"), (2, .insert, 2, "nut")].map fun (n, op, id, name) =>
    itemChange n op id name
  mark := lsnAt 4
  floor := lsnAt 1
  clock := 4
  strict := by decide
  wide := by decide
  positive := by decide
  dated := by decide
  keyed _ := itemChange_keyed (by decide)
  mark_wide := by decide

/-- The bolt is gone, and the capture job is past that. -/
def sold : Items where
  changes := [(1, .insert, 1, "bolt"), (2, .insert, 2, "nut"), (6, .delete, 1, "bolt")].map
    fun (n, op, id, name) => itemChange n op id name
  mark := lsnAt 8
  floor := lsnAt 1
  clock := 8
  strict := by decide
  wide := by decide
  positive := by decide
  dated := by decide
  keyed _ := itemChange_keyed (by decide)
  mark_wide := by decide

/-- The bolt is gone, and the capture job has not got there. -/
def unread : Items := { sold with mark := lsnAt 5, mark_wide := by decide }

theorem stock_later_unread : Later stock.source unread.source where
  mark_le := by decide
  clock_le := by decide
  floor_le _ := le_rfl
  appended := ⟨[itemChange 6 .delete 1 "bolt"], rfl⟩
  above_mark := by decide
  above_floor c hc _ := by
    obtain rfl := List.mem_singleton.mp (show c ∈ [itemChange 6 .delete 1 "bolt"] from hc)
    show lsnAt 1 ≤ lsnAt 6
    decide

theorem unread_later_sold : Later unread.source sold.source where
  mark_le := by decide
  clock_le := le_rfl
  floor_le _ := le_rfl
  appended := List.prefix_rfl
  above_mark c hc := by cases (show c ∈ ([] : List Change) from hc)
  above_floor c hc := by cases (show c ∈ ([] : List Change) from hc)

theorem stock_later_sold : Later stock.source sold.source :=
  stock_later_unread.trans unread_later_sold

end PyDBLog.World.InMemory
