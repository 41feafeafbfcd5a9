import PyDBLog.Mssql.Connector
import PyDBLog.Replay.Cut
import Mathlib.Data.Prod.Lex

/-! # A table, its changes, and the map a consumer keeps

What a source holds at one instant (`Source`): the committed changes of one table in the order they
happened, how far the capture job has reported, the floors of the capture instances and the clock. A
source grows in two senses. `Grows` freezes only what lies at or below the position already
reported; `Later` is the source an honest log keeps: commits are appended, above everything reported
and above every floor. The table at an instant and at a position are replays of the changes over the
initial content, and a consumer's map is the replay of the frames it is handed. -/

namespace PyDBLog.World.Log

open PyDBLog.Model.Python PyDBLog.Model.Frame PyDBLog.Model.Types
open PyDBLog.Mssql.Schema PyDBLog.Mssql.Connector
open PyDBLog.Replay.Basic PyDBLog.Replay.Cut

/-! ### The table -/

/-- The table a run reads: its key columns and its captured columns, which hold the key and are not
named like the log's own. -/
structure Target where
  schema : String
  table : String
  pk : List String
  columns : List String
  pk_captured : ∀ name ∈ pk, name ∈ columns
  unshadowed : ∀ name ∈ columns, name ∉ metadataColumns

namespace Target

/-- The leading key column. -/
def leading (t : Target) : String := t.pk.headD ""

/-- A spec describes the table: its name, its key and its captured columns. Types, capture instance
and the columns the log does not carry are free. -/
def Describes (t : Target) (spec : TableSpec) : Prop :=
  spec.sourceSchema = t.schema ∧ spec.sourceTable = t.table ∧ spec.pkColumns = t.pk ∧
    spec.businessColumns = t.columns

/-- A spec of the table pages by its leading key column. -/
theorem Describes.leading_eq {t : Target} {spec : TableSpec} (h : t.Describes spec) :
    spec.pkColumns.headD "" = t.leading := by
  rw [h.2.2.1]
  rfl

theorem leading_mem {t : Target} {name : String} (h : t.pk = [name]) : t.leading ∈ t.columns :=
  t.pk_captured _ (by simp [leading, h])

end Target

/-! ### The changes -/

/-- What a change did to its row. -/
inductive Operation
  | delete
  | insert
  | update
  deriving DecidableEq

/-- The number the log marks it with. -/
def Operation.code : Operation → ℤ
  | .delete => opDelete
  | .insert => opInsert
  | .update => opUpdateAfter

/-- A committed change as the log records it: the cells are those of the row's image, null where the
column is computed. -/
structure Change where
  startLsn : LSN
  seqval : Bytes
  operation : Operation
  updateMask : Bytes
  commitTime : Datetime
  cells : String → Cell

/-- The captured columns of a row. -/
abbrev Image := List Cell

/-- The integer in a key cell. -/
def keyOf : Cell → ℤ
  | .int k => k
  | _ => 0

namespace Change

/-- `(start_lsn, seqval)` -/
def position (c : Change) : LSN ×ₗ Bytes := toLex (c.startLsn, c.seqval)

/-- The row of an event frame that carries the change. -/
def eventRow (columns : List String) (c : Change) : Row :=
  [.bytes c.startLsn, .bytes c.seqval, .int c.operation.code, .bytes c.updateMask,
    .datetime c.commitTime] ++ columns.map c.cells

/-- The change as an entry of the table's log. -/
def entry (t : Target) (c : Change) : Entry LSN ℤ Image where
  key := keyOf (c.cells t.leading)
  image := if c.operation = .delete then none else some (t.columns.map c.cells)
  pos := c.startLsn

end Change

/-! ### The consumer -/

/-- What a row of a frame does to the map: operation 1 deletes the key, every other operation stores
the captured columns. -/
def writeOf (t : Target) (columns : List String) (row : Row) : Write ℤ Image where
  key := keyOf (cellOf columns row t.leading)
  image := if cellOf columns row "operation" = .int opDelete then none
    else some (cellsOf columns row t.columns)

/-- The writes of a frame, in its order. -/
def writesOf (t : Target) (df : DataFrame) : List (Write ℤ Image) := df.rows.map (writeOf t df.columns)

/-- The map after a batch's frame, unchanged where there is none. -/
def applyFrame (t : Target) (m : Table ℤ Image) : Option DataFrame → Table ℤ Image
  | none => m
  | some df => replay m (writesOf t df)

section rows

variable {t : Target} {spec : TableSpec} {low : Option Datetime}

/-- The cells a dump row is stamped with. -/
def stamp (spec : TableSpec) (low : Option Datetime) : Row :=
  (MSSQLConnector.dumpLiterals spec low).map fun l => l.2.2

/-- What stamping rows that returns has built. -/
theorem toEvents_ok {rows events : DataFrame}
    (h : MSSQLConnector.toEvents rows spec low = .ok events) :
    events.columns = metadataColumns ++ rows.columns ∧ events.columns.Nodup ∧
      events.rows = rows.rows.map fun row => stamp spec low ++ row := by
  simp only [MSSQLConnector.toEvents, DataFrame.selectLiteralsAndAll, except_guard_ok, not_not] at h
  obtain ⟨hn, h⟩ := h
  obtain rfl := Except.ok.inj h
  exact ⟨by rw [DataFrame.columns, List.map_append]; rfl, hn, rfl⟩

theorem cellOf_operation (columns : List String) (a b d e f : Cell) (row : Row) :
    cellOf (metadataColumns ++ columns) ([a, b, d, e, f] ++ row) "operation" = d := by
  have hi : (metadataColumns ++ columns).idxOf "operation" = 2 := by
    rw [List.idxOf_append_of_mem (by decide)]
    decide
  rw [cellOf, hi]
  rfl

/-- An event writes what its change wrote. -/
theorem writeOf_eventRow {c : Change} (hk : t.leading ∈ t.columns) :
    writeOf t (metadataColumns ++ t.columns) (c.eventRow t.columns) = (c.entry t).toWrite := by
  have hkey : cellOf (metadataColumns ++ t.columns) (c.eventRow t.columns) t.leading =
      c.cells t.leading := by
    rw [Change.eventRow, cellOf_append (by rfl) (t.unshadowed _ hk), cellOf_map _ hk]
  have hcells : cellsOf (metadataColumns ++ t.columns) (c.eventRow t.columns) t.columns =
      t.columns.map c.cells := by
    rw [Change.eventRow, cellsOf_append (by rfl) t.unshadowed]
    exact List.map_congr_left fun _ h => cellOf_map _ h
  have hop : cellOf (metadataColumns ++ t.columns) (c.eventRow t.columns) "operation" =
      .int c.operation.code := cellOf_operation ..
  rw [writeOf, hkey, hcells, hop]
  cases hc : c.operation <;> simp [Change.entry, hc, Operation.code, opDelete, opInsert, opUpdateAfter]

/-- A dump row writes the row it was stamped on. -/
theorem writeOf_stamp {row : Row} {columns : List String} (hk : t.leading ∈ t.columns) :
    writeOf t (metadataColumns ++ columns) (stamp spec low ++ row) =
      ⟨keyOf (cellOf columns row t.leading), some (cellsOf columns row t.columns)⟩ := by
  have hop : cellOf (metadataColumns ++ columns) (stamp spec low ++ row) "operation" = .int opDump :=
    cellOf_operation ..
  rw [writeOf, cellOf_append (by rfl) (t.unshadowed _ hk), cellsOf_append (by rfl) t.unshadowed, hop]
  simp [opDump, opDelete]

/-- What a row in the columns of the table's events writes. -/
def eventWrite (t : Target) (row : Row) : Write ℤ Image := writeOf t (metadataColumns ++ t.columns) row

/-- A row that came off the table. -/
def DumpRow (row : Row) : Prop := ∃ spec low cells, row = stamp spec low ++ cells

theorem dumpRow_map (rows : List Row) : ∀ row ∈ rows.map fun row => stamp spec low ++ row, DumpRow row := by
  intro row h
  obtain ⟨cells, -, rfl⟩ := List.mem_map.mp h
  exact ⟨spec, low, cells, rfl⟩

end rows

/-! ### The source at an instant -/

/-- A source at one instant. -/
structure Source where
  changes : List Change
  mark : LSN
  floor : String → LSN
  clock : Datetime
  ordered : changes.Pairwise fun a b => a.position ≤ b.position
  wide : ∀ c ∈ changes, c.startLsn.length = lsnWidth
  dated : ∀ c ∈ changes, c.commitTime ≤ clock

namespace Source

/-- The changes as entries of the table's log. -/
def entries (t : Target) (s : Source) : List (Entry LSN ℤ Image) := s.changes.map (Change.entry t)

/-- The table as it stands at the instant. -/
def content (init : Table ℤ Image) (t : Target) (s : Source) : Table ℤ Image :=
  replay init (writes (s.entries t))

/-- The changes of an inclusive range of positions. -/
def window (s : Source) (low high : LSN) : List Change :=
  s.changes.filter fun c => low ≤ c.startLsn ∧ c.startLsn ≤ high

/-- What a capture instance holds: the changes at or above its floor. -/
def retained (s : Source) (captureInstance : String) : List Change :=
  s.changes.filter fun c => s.floor captureInstance ≤ c.startLsn

/-- The changes from the position `p` on and below `q`. -/
def segment (s : Source) (p q : LSN) : List Change :=
  s.changes.filter fun c => p ≤ c.startLsn ∧ c.startLsn < q

/-- The changes that came after an earlier instant. -/
def added (s s' : Source) : List Change := s'.changes.drop s.changes.length

/-- Nothing at or below the position already reported is added or taken away. -/
structure Grows (s s' : Source) : Prop where
  mark_le : s.mark ≤ s'.mark
  frozen : s'.changes.filter (fun c => c.startLsn ≤ s.mark) =
    s.changes.filter fun c => c.startLsn ≤ s.mark

/-- Commits are appended, above the position already reported and above every floor. -/
structure Later (s s' : Source) : Prop where
  mark_le : s.mark ≤ s'.mark
  clock_le : s.clock ≤ s'.clock
  floor_le : ∀ captureInstance, s.floor captureInstance ≤ s'.floor captureInstance
  appended : s.changes <+: s'.changes
  above_mark : ∀ c ∈ added s s', s.mark < c.startLsn
  above_floor : ∀ c ∈ added s s', ∀ captureInstance, s.floor captureInstance ≤ c.startLsn

variable {s s' s₁ s₂ s₃ : Source} {t : Target}

theorem ordered_lsn (s : Source) : s.changes.Pairwise fun a b => a.startLsn ≤ b.startLsn :=
  s.ordered.imp fun h => Prod.Lex.monotone_fst _ _ h

theorem ordered_entries (t : Target) (s : Source) : Ordered (s.entries t) :=
  List.pairwise_map.mpr s.ordered_lsn

theorem Grows.refl (s : Source) : Grows s s := ⟨le_rfl, rfl⟩

theorem Grows.trans (h₁ : Grows s₁ s₂) (h₂ : Grows s₂ s₃) : Grows s₁ s₃ where
  mark_le := h₁.mark_le.trans h₂.mark_le
  frozen := by
    have hsplit : ∀ cs : List Change, cs.filter (fun c => c.startLsn ≤ s₁.mark) =
        (cs.filter fun c => c.startLsn ≤ s₂.mark).filter fun c => c.startLsn ≤ s₁.mark := by
      intro cs
      rw [List.filter_filter]
      refine List.filter_congr fun c _ => ?_
      by_cases hc : c.startLsn ≤ s₁.mark
      · simp [hc, hc.trans h₁.mark_le]
      · simp [hc]
    rw [hsplit, h₂.frozen, ← hsplit, h₁.frozen]

theorem Later.eq_append (h : Later s s') : s'.changes = s.changes ++ added s s' :=
  (List.prefix_iff_eq_append.mp h.appended).symm

theorem Later.added_append (h₁ : Later s₁ s₂) (h₂ : Later s₂ s₃) :
    added s₁ s₃ = added s₁ s₂ ++ added s₂ s₃ := by
  rw [added, h₂.eq_append, h₁.eq_append, List.append_assoc, List.drop_left]

theorem mem_added_trans (h₁ : Later s₁ s₂) (h₂ : Later s₂ s₃) {c : Change} :
    c ∈ added s₁ s₃ ↔ c ∈ added s₁ s₂ ∨ c ∈ added s₂ s₃ := by
  rw [h₁.added_append h₂, List.mem_append]

theorem Later.refl (s : Source) : Later s s where
  mark_le := le_rfl
  clock_le := le_rfl
  floor_le _ := le_rfl
  appended := List.prefix_rfl
  above_mark c hc := by simp [added] at hc
  above_floor c hc := by simp [added] at hc

theorem Later.trans (h₁ : Later s₁ s₂) (h₂ : Later s₂ s₃) : Later s₁ s₃ where
  mark_le := h₁.mark_le.trans h₂.mark_le
  clock_le := h₁.clock_le.trans h₂.clock_le
  floor_le i := (h₁.floor_le i).trans (h₂.floor_le i)
  appended := h₁.appended.trans h₂.appended
  above_mark c hc := by
    rcases (mem_added_trans h₁ h₂).mp hc with h | h
    · exact h₁.above_mark c h
    · exact h₁.mark_le.trans_lt (h₂.above_mark c h)
  above_floor c hc i := by
    rcases (mem_added_trans h₁ h₂).mp hc with h | h
    · exact h₁.above_floor c h i
    · exact (h₁.floor_le i).trans (h₂.above_floor c h i)

theorem Later.mem (h : Later s s') {c : Change} : c ∈ s'.changes ↔ c ∈ s.changes ∨ c ∈ added s s' := by
  rw [h.eq_append, List.mem_append]

/-- The source of an honest log grows. -/
theorem Later.grows (h : Later s s') : Grows s s' where
  mark_le := h.mark_le
  frozen := by
    rw [h.eq_append, List.filter_append, List.append_right_eq_self, List.filter_eq_nil_iff]
    intro c hc
    simpa using h.above_mark c hc

/-- `q` is where a window that is closed at `high` ends: no position lies between the two. -/
def Closes (high q : LSN) : Prop := ∀ p : LSN, p.length = lsnWidth → (p < q ↔ p ≤ high)

theorem segment_of_closes {low high q : LSN} (h : Closes high q) : s.segment low q = s.window low high :=
  List.filter_congr fun c hc => by simp [h c.startLsn (s.wide c hc)]

theorem segment_of_le {p q : LSN} (h : q ≤ p) : s.segment p q = [] := by
  rw [segment, List.filter_eq_nil_iff]
  intro c _
  have : p ≤ c.startLsn → q ≤ c.startLsn := h.trans
  simpa using this

/-- What lies at or below a reported position is frozen. -/
theorem Grows.window_eq (h : Grows s s') {low high : LSN} (hhigh : high ≤ s.mark) :
    s'.window low high = s.window low high := by
  have hsplit : ∀ cs : List Change, cs.filter (fun c => low ≤ c.startLsn ∧ c.startLsn ≤ high) =
      (cs.filter fun c => c.startLsn ≤ s.mark).filter
        fun c => low ≤ c.startLsn ∧ c.startLsn ≤ high := by
    intro cs
    rw [List.filter_filter]
    refine List.filter_congr fun c _ => ?_
    by_cases hc : c.startLsn ≤ high
    · simp [hc, hc.trans hhigh]
    · simp [hc]
  rw [window, window, hsplit, h.frozen, ← hsplit]

/-- A range at or above the floor is held whole. -/
theorem retained_window {captureInstance : String} {low high : LSN}
    (h : s.floor captureInstance ≤ low) : (s.retained captureInstance).filter
      (fun c => low ≤ c.startLsn ∧ c.startLsn ≤ high) = s.window low high := by
  rw [retained, window, List.filter_filter]
  refine List.filter_congr fun c _ => ?_
  by_cases hc : low ≤ c.startLsn
  · simp [hc, h.trans hc]
  · simp [hc]

theorem mem_segment {p q : LSN} {c : Change} :
    c ∈ s.segment p q ↔ c ∈ s.changes ∧ p ≤ c.startLsn ∧ c.startLsn < q := by
  simp [segment]

/-- The entries between two positions are those of the changes between them. -/
theorem between_entries (t : Target) (s : Source) (p q : LSN) :
    between (s.entries t) p q = (s.segment p q).map (Change.entry t) := by
  rw [between, entries, List.filter_map, segment]
  exact congrArg _ (List.filter_congr fun _ _ => decide_eq_decide.mpr Iff.rfl)

/-- Segments that meet tile. -/
theorem segment_append {p q r : LSN} (hpq : p ≤ q) (hqr : q ≤ r) :
    s.segment p r = s.segment p q ++ s.segment q r := by
  simp only [segment]
  convert filter_between_append Change.startLsn hpq hqr s.ordered_lsn

end Source

end PyDBLog.World.Log
