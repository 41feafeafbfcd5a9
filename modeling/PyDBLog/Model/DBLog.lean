import PyDBLog.Model.Connector

/-! # The algorithm

`dblog()` and the functions under it, over a `SourceConnector`. The run is a value: a call is given
a `RunState` or none and hands back a frame and the state to carry on from. `now` is what
`datetime.now(UTC)` answers in the call, which asks at most once; log lines are left out. -/

namespace PyDBLog.Model.DBLog

open PyDBLog.Model.Python PyDBLog.Model.Frame PyDBLog.Model.Types PyDBLog.Model.Connector

def defaultChunkSize : ℤ := 1000

/-- One day. -/
def defaultInspectEvery : Timedelta := 86400000000

variable {σ : Type}

/-! ### Opening a run -/

/-- The table's capture instance, refused if it has none. -/
def requireCaptureInstance (spec : TableSpec) : Except PyError String :=
  match spec.captureInstance with
  | none => .error (.valueError
      s!"{spec.qualifiedName} has no capture instance: nothing to read a change log from")
  | some captureInstance => .ok captureInstance

/-- Open a fresh run on a table, at the present. -/
def seed (connector : SourceConnector σ) (now : ℤ) (schema table : String) : Call σ RunState := do
  let spec ← connector.inspect schema table
  let captureInstance ← ofExcept (requireCaptureInstance spec)
  let floor ← connector.getMinLsn captureInstance
  let maxLsn ← connector.getMaxLsn
  return { spec := spec, lastLsn := max maxLsn floor, lastInspect := .utc now, chunkKey := none,
           dumpDone := false }

/-- Refuse a state whose position has aged out of the log. -/
def checkRetention (connector : SourceConnector σ) (state : RunState) (captureInstance : String) :
    Call σ Unit := do
  let floor ← connector.getMinLsn captureInstance
  if state.lastLsn < floor then
    throw (.cdcRetentionExpiredError
      (s!"{state.spec.qualifiedName} no longer retains {hex state.lastLsn}: the log starts at " ++
        s!"{hex floor}. The gap cannot be read, so the table has to be dumped again."))
  else return ()

/-- Build a state that opens at a position the caller already knows. -/
def stateAtLsn (connector : SourceConnector σ) (now : ℤ) (schema table : String) (fromLsn : LSN)
    (dumpDone : Bool) : Call σ RunState := do
  let spec ← connector.inspect schema table
  let captureInstance ← ofExcept (requireCaptureInstance spec)
  let built : RunState :=
    { spec := spec, lastLsn := fromLsn, lastInspect := .utc now, chunkKey := none,
      dumpDone := dumpDone }
  checkRetention connector built captureInstance
  return built

/-- Refuse a state that belongs to another table. -/
def checkTable (state : RunState) (schema table : String) : Except PyError Unit :=
  let asked := s!"{schema}.{table}"
  if state.spec.qualifiedName ≠ asked then
    .error (.valueError
      (s!"state belongs to {state.spec.qualifiedName}, not {asked}: its chunk key " ++
        "is a position in a key space this table does not share"))
  else .ok ()

/-! ### Refreshing the spec -/

/-- A phrase naming what moved between two column lists. -/
def drift (before after : List String) : String :=
  let gained := ((after.dedup).filter (· ∉ before)).mergeSort (· ≤ ·)
  let lost := ((before.dedup).filter (· ∉ after)).mergeSort (· ≤ ·)
  let parts := (if gained.isEmpty then [] else [s!"gained {commaJoin gained}"]) ++
    (if lost.isEmpty then [] else [s!"lost {commaJoin lost}"])
  -- same names: what changed is a type
  let parts := if parts.isEmpty then ["changed the type of a column it still names the same"]
    else parts
  String.intercalate " and " parts

/-- What a re-read spec is refused for: another primary key, or other captured columns. -/
def checkSpec (was isNow : TableSpec) : Except PyError Unit :=
  if was.pkColumns ≠ isNow.pkColumns then
    .error (.schemaChangedError
      (s!"{isNow.qualifiedName} is now keyed on {commaJoin isNow.pkColumns} rather than " ++
        s!"{commaJoin was.pkColumns}: the chunk key this run is paging by is a " ++
        "position in the old key space, and events can no longer be matched " ++
        "against chunk rows on the same columns. The table has to be dumped again."))
  else if was.capturedColumns != isNow.capturedColumns then
    .error (.schemaChangedError
      (s!"the capture instance on {isNow.qualifiedName} " ++
        s!"{drift was.businessColumns isNow.businessColumns}: frames after " ++
        "this point would not stack with the ones this run has already emitted. " ++
        "The table has to be dumped again."))
  -- source columns that differ alone are a warning
  else .ok ()

/-- Re-read the table's spec if the one in the state has gone stale. -/
def refreshSpec (connector : SourceConnector σ) (now : ℤ) (state : RunState)
    (inspectEvery : Option Timedelta) : Call σ RunState :=
  match inspectEvery with
  | none => return state
  | some inspectEvery =>
    if now - state.lastInspect.instant < inspectEvery then return state
    else do
      let fresh ← connector.inspect state.spec.sourceSchema state.spec.sourceTable
      let _ ← ofExcept (requireCaptureInstance fresh)
      ofExcept (checkSpec state.spec fresh)
      return { state with spec := fresh, lastInspect := .utc now }

/-! ### Merging a chunk with its window -/

/-- Drop the chunk rows the window already carries. -/
def supersede (chunk : DataFrame) (window : Option DataFrame) (spec : TableSpec) :
    Except PyError DataFrame :=
  match window with
  | none => .ok chunk
  | some window =>
    if window.isEmpty then .ok chunk
    else do
      let keys := spec.pkColumns
      let superseded := (← window.select keys).unique
      let overlap ← (← chunk.select keys).semiJoin superseded keys
      if overlap.isEmpty then .ok chunk
      else chunk.antiJoin superseded keys

/-- Combine a chunk with the window bracketing it into one frame. -/
def mergeChunk (connector : SourceConnector σ) (chunk : DataFrame) (window : Option DataFrame)
    (low : Datetime) (spec : TableSpec) : Call σ DataFrame := do
  let survivors ← ofExcept (supersede chunk window spec)
  let events ← connector.toEvents survivors spec (some low)
  match window with
  | none => return events
  | some window =>
    if window.isEmpty then return events
    else ofExcept (DataFrame.concat [window, events])

/-! ### Reading a page and a window -/

/-- Where the page following `rows` opens. -/
def keyAfter (rows : DataFrame) (spec : TableSpec) : Except PyError ℤ := do
  let leading ← spec.pkColumns.head?.elim (.error (.indexError "list index out of range")) .ok
  let keys ← rows.column leading
  if keys.dedup.length ≠ rows.height then
    .error (.valueError
      (s!"{spec.qualifiedName} leading key {pyRepr leading} is not unique within a " ++
        "chunk: rows sharing a key would be split across chunks and the ones past " ++
        "the boundary dropped"))
  else match keys.getLast? with
    | none => .error (.indexError "index -1 is out of bounds for sequence of length 0")
    | some (.int last) => .ok (last + 1)
    | some last => .error (.typeError
        (s!"{spec.qualifiedName} leading key {pyRepr leading} must be an integer to page " ++
          s!"by, got {last.typeName}"))

/-- Read the next page of table rows and advance the state past its last row. -/
def nextChunk (connector : SourceConnector σ) (state : RunState) (chunkSize : ℤ) :
    Call σ (Option DataFrame × RunState) := do
  let rows ← connector.readTable state.spec state.chunkKey none chunkSize
  let done : Bool := (rows.height : ℤ) < chunkSize
  if rows.isEmpty then return (none, { state with dumpDone := done })
  else do
    let chunkKey ← ofExcept (keyAfter rows state.spec)
    return (some rows, { state with chunkKey := some chunkKey, dumpDone := done })

/-- Read one window of the change log and advance the state past its end. -/
def readWindow (connector : SourceConnector σ) (state : RunState) :
    Call σ (Option DataFrame × RunState) := do
  let high ← connector.getMaxLsn
  if state.lastLsn > high then return (none, state)
  else do
    let events ← connector.readEventLog state.spec state.lastLsn high
    let nextLsn ← connector.incrementLsn high
    return (events, { state with lastLsn := nextLsn })

/-! ### One call -/

/-- What a call does before it reads: open a run, or check and refresh the state it was given. -/
def openRun (connector : SourceConnector σ) (now : ℤ) (schema table : String)
    (state : Option RunState) (inspectEvery : Option Timedelta) : Call σ RunState :=
  match state with
  | none => seed connector now schema table
  | some state => do
    ofExcept (checkTable state schema table)
    let state ← refreshSpec connector now state inspectEvery
    let captureInstance ← ofExcept (requireCaptureInstance state.spec)
    checkRetention connector state captureInstance
    return state

/-- A window of the log alone, once the table is walked. -/
def tailBatch (connector : SourceConnector σ) (state : RunState) : Call σ BatchResult := do
  let (window, state) ← readWindow connector state
  return ⟨window, state⟩

/-- A chunk of rows and the window bracketing the read of it. -/
def dumpBatch (connector : SourceConnector σ) (state : RunState) (chunkSize : ℤ) :
    Call σ BatchResult := do
  let low ← connector.watermark
  let (chunk, state) ← nextChunk connector state chunkSize
  let high ← connector.watermark
  -- the window may only close once the log consumer has passed the high watermark
  connector.awaitWatermark high
  let (window, state) ← readWindow connector state
  match chunk with
  | none => return ⟨window, state⟩
  | some chunk => do
    let frame ← mergeChunk connector chunk window low state.spec
    return ⟨some frame, state⟩

/-- **Read one batch of a table's changes**, with a chunk of its rows or without. -/
def dblog (connector : SourceConnector σ) (now : ℤ) (schema table : String)
    (state : Option RunState) (chunkSize : ℤ) (inspectEvery : Option Timedelta) :
    Call σ BatchResult :=
  if chunkSize < 1 then
    throw (.valueError s!"chunk_size must be at least 1, got {chunkSize}")
  else do
    let state ← openRun connector now schema table state inspectEvery
    if state.dumpDone then tailBatch connector state else dumpBatch connector state chunkSize

end PyDBLog.Model.DBLog
