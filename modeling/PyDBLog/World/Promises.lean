import PyDBLog.World.Log
import PyDBLog.Model.Worlds
import PyDBLog.Model.Returns

/-! # What is assumed of a source

A connector runs in a world `σ` that holds a source (`view`). `LogLaws` is what the log alone
promises: the source grows, a reported position is at or below the highest one reported, and a read
that returns carries exactly what the capture instance holds of its range, at an instant when its
floor was not above the range; a read below the floor raises. `Laws` adds the table, the clock and
the barrier, over a source that only appends. Nothing is assumed of what a call answers when it
raises, of how far the source moves during it, or of the instants at which a scan reads its rows. -/

namespace PyDBLog.World.Promises

open PyDBLog.Model.Python PyDBLog.Model.Frame PyDBLog.Model.Types PyDBLog.Model.Connector
open PyDBLog.Model.Worlds PyDBLog.Model.Returns
open PyDBLog.Mssql.Schema PyDBLog.Mssql.Connector
open PyDBLog.Replay.Basic PyDBLog.Replay.Cut PyDBLog.World.Log PyDBLog.World.Log.Source

variable {σ : Type}

/-- A frame in the columns of the table's events holds exactly these rows, none where there is no
frame. -/
def HasRows (t : Target) (rows : List Row) : Option DataFrame → Prop
  | none => rows = []
  | some df => df.columns = metadataColumns ++ t.columns ∧ df.rows = rows

/-- A window holds exactly these changes, in their order. -/
abbrev Carries (t : Target) (changes : List Change) (window : Option DataFrame) : Prop :=
  HasRows t (changes.map (Change.eventRow t.columns)) window

/-- What the change log promises. -/
structure LogLaws (C : SourceConnector σ) (view : σ → Source) (t : Target) : Prop where
  grows : Moving (fun w w' => Grows (view w) (view w')) C
  inspect_names : ∀ {schema table w spec w'}, C.inspect schema table w = .ok spec w' →
    spec.sourceSchema = schema ∧ spec.sourceTable = table
  maxLsn_wide : ∀ {w m w'}, C.getMaxLsn w = .ok m w' → m.length = lsnWidth
  maxLsn_le : ∀ {w m w'}, C.getMaxLsn w = .ok m w' → m ≤ (view w').mark
  readEventLog : ∀ {spec captureInstance fromLsn toLsn w window w'}, t.Describes spec →
    spec.captureInstance = some captureInstance →
    C.readEventLog spec fromLsn toLsn w = .ok window w' →
    ∃ s, Grows (view w) s ∧ Grows s (view w') ∧ s.floor captureInstance ≤ fromLsn ∧
      Carries t ((s.retained captureInstance).filter fun c => fromLsn ≤ c.startLsn ∧ c.startLsn ≤ toLsn)
        window
  toEvents : ∀ rows spec low w, C.toEvents rows spec low w =
    (ofExcept (MSSQLConnector.toEvents rows spec low) : Call σ DataFrame) w
  incrementLsn : ∀ lsn w, C.incrementLsn lsn w =
    (ofExcept (MSSQLConnector.incrementLsn lsn) : Call σ LSN) w

/-- An instant of a call from the world `w` to the world `w'`. -/
def During (view : σ → Source) (w w' : σ) (s : Source) : Prop := Later (view w) s ∧ Later s (view w')

/-- What the log promises together with the clock and the barrier, over a source that only appends
and whose table has one integer key column. -/
structure ClockLaws (C : SourceConnector σ) (view : σ → Source) (t : Target) : Prop
    extends LogLaws C view t where
  later : Moving (fun w w' => Later (view w) (view w')) C
  single_key : ∃ name, t.pk = [name]
  int_keys : ∀ w, ∀ c ∈ (view w).changes, ∃ k, c.cells t.leading = .int k
  maxLsn_mark : ∀ {w m w'}, C.getMaxLsn w = .ok m w' → ∃ s, During view w w' s ∧ m = s.mark
  minLsn_floor : ∀ {captureInstance w floor w'}, C.getMinLsn captureInstance w = .ok floor w' →
    ∃ s, During view w w' s ∧ floor = s.floor captureInstance
  watermark_clock : ∀ {w mark w'}, C.watermark w = .ok mark w' →
    ∃ s, During view w w' s ∧ mark = s.clock
  barrier : ∀ {mark w w'}, C.awaitWatermark mark w = .ok () w' →
    ∀ c ∈ (view w').changes, c.commitTime ≤ mark → c.startLsn ≤ (view w').mark

/-- A page of rows with integer keys: increasing, from the start key on, at most `limit` of them. -/
structure KeyPage (leading : String) (start : Option ℤ) (limit : ℤ) (df : DataFrame) : Prop where
  int_key : ∀ row ∈ df.rows, ∃ k, cellOf df.columns row leading = .int k
  from_start : ∀ row ∈ df.rows, ∀ a ∈ start, a ≤ keyOf (cellOf df.columns row leading)
  increasing : df.rows.Pairwise fun row row' =>
    keyOf (cellOf df.columns row leading) < keyOf (cellOf df.columns row' leading)
  capped : (df.rows.length : ℤ) ≤ limit

/-- **A page of the table**, the row of each key as the table held it at the instant `seen` says,
and no row of a key passed over as long as the table held none at that instant. -/
structure Page (init : Table ℤ Image) (t : Target) (seen : ℤ → Source) (start : Option ℤ) (limit : ℤ)
    (df : DataFrame) : Prop extends KeyPage t.leading start limit df where
  columns_eq : df.columns = t.columns
  present : ∀ row ∈ df.rows, (seen (keyOf (cellOf df.columns row t.leading))).content init t
    (keyOf (cellOf df.columns row t.leading)) = some (cellsOf df.columns row t.columns)
  absent : ∀ k, (∀ a ∈ start, a ≤ k) → (∀ row ∈ df.rows, keyOf (cellOf df.columns row t.leading) ≠ k) →
    ((df.rows.length : ℤ) < limit ∨ ∃ row ∈ df.rows, k < keyOf (cellOf df.columns row t.leading)) →
    (seen k).content init t k = none

/-- What a source promises whose table has one integer key column. -/
structure Laws (C : SourceConnector σ) (view : σ → Source) (init : Table ℤ Image) (t : Target) : Prop
    extends LogLaws C view t where
  later : Moving (fun w w' => Later (view w) (view w')) C
  single_key : ∃ name, t.pk = [name]
  int_keys : ∀ w, ∀ c ∈ (view w).changes, ∃ k, c.cells t.leading = .int k
  maxLsn_mark : ∀ {w m w'}, C.getMaxLsn w = .ok m w' → ∃ s, During view w w' s ∧ m = s.mark
  minLsn_floor : ∀ {captureInstance w floor w'}, C.getMinLsn captureInstance w = .ok floor w' →
    ∃ s, During view w w' s ∧ floor = s.floor captureInstance
  watermark_clock : ∀ {w mark w'}, C.watermark w = .ok mark w' →
    ∃ s, During view w w' s ∧ mark = s.clock
  barrier : ∀ {mark w w'}, C.awaitWatermark mark w = .ok () w' →
    ∀ c ∈ (view w').changes, c.commitTime ≤ mark → c.startLsn ≤ (view w').mark
  readTable : ∀ {spec start limit w df w'}, t.Describes spec → 1 ≤ limit →
    C.readTable spec start none limit w = .ok df w' →
    ∃ seen, (∀ k, During view w w' (seen k)) ∧ Page init t seen start limit df

/-! ### Consequences -/

variable {C : SourceConnector σ} {view : σ → Source} {init : Table ℤ Image} {t : Target} {w w' : σ}

/-- Scans aside. -/
theorem Laws.clocked (hC : Laws C view init t) : ClockLaws C view t where
  toLogLaws := hC.toLogLaws
  later := hC.later
  single_key := hC.single_key
  int_keys := hC.int_keys
  maxLsn_mark := hC.maxLsn_mark
  minLsn_floor := hC.minLsn_floor
  watermark_clock := hC.watermark_clock
  barrier := hC.barrier

theorem HasRows.rows {rows : List Row} {frame : Option DataFrame} (h : HasRows t rows frame) :
    windowRows frame = rows := by
  cases frame with
  | none => exact (show rows = [] from h).symm
  | some df => exact h.2

theorem LogLaws.toEvents_ok (hC : LogLaws C view t) {rows events : DataFrame} {spec : TableSpec}
    {low : Option Datetime} (h : C.toEvents rows spec low w = .ok events w') :
    MSSQLConnector.toEvents rows spec low = .ok events ∧ w = w' := by
  rw [hC.toEvents] at h
  exact ofExcept_ok.mp h

/-- The next position: nothing lies strictly between. -/
theorem LogLaws.incrementLsn_ok (hC : LogLaws C view t) {lsn next : LSN}
    (h : C.incrementLsn lsn w = .ok next w') :
    lsn < next ∧ w = w' ∧ ∀ p : LSN, p.length = lsnWidth → (p < next ↔ p ≤ lsn) := by
  rw [hC.incrementLsn] at h
  obtain ⟨hi, rfl⟩ := ofExcept_ok.mp h
  obtain ⟨hl, hs⟩ := MSSQLConnector.incrementLsn_ok.mp hi
  exact ⟨Bytes.BigEndian.lt_succ hl hs, rfl, fun p hp => Bytes.BigEndian.lt_succ_iff hl hp hs⟩

theorem During.later {s : Source} (h : During view w w' s) : Later (view w) (view w') :=
  h.1.trans h.2

end PyDBLog.World.Promises
