import PyDBLog.Model.Types

/-! # The primitives of a source

`SourceConnector` is the Protocol `dblog()` is typed against, over an arbitrary world `σ`: the
source, its writers and its capture job. Every primitive may raise, and may leave the world in any
state. Connecting, closing and `read_pk_range` are not reached from `dblog()`. -/

namespace PyDBLog.Model.Connector

open PyDBLog.Model.Python PyDBLog.Model.Frame PyDBLog.Model.Types

structure SourceConnector (σ : Type) where
  /-- Fetch the highest LSN in the database. -/
  getMaxLsn : Call σ LSN
  /-- Fetch the lowest LSN available for a capture instance. -/
  getMinLsn : (captureInstance : String) → Call σ LSN
  /-- Take a watermark from the source's own clock. -/
  watermark : Call σ Datetime
  /-- Block until the log consumer has processed everything committed by a watermark. -/
  awaitWatermark : (mark : Datetime) → Call σ Unit
  /-- Inspect a table's schema. -/
  inspect : (schema table : String) → Call σ TableSpec
  /-- Read the events of the inclusive LSN range, or None when there is none. -/
  readEventLog : (spec : TableSpec) → (fromLsn toLsn : LSN) → Call σ (Option DataFrame)
  /-- Stamp a chunk of table rows with the log's own columns. -/
  toEvents : (rows : DataFrame) → (spec : TableSpec) → (commitTimestamp : Option Datetime) →
    Call σ DataFrame
  /-- Read the half-open key range of the leading key, at most `limit` rows (0 for uncapped). -/
  readTable : (spec : TableSpec) → (startPk endPk : Option ℤ) → (limit : ℤ) → Call σ DataFrame
  /-- Return the next LSN after the given one. -/
  incrementLsn : (lsn : LSN) → Call σ LSN

end PyDBLog.Model.Connector
