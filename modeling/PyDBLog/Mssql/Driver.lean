import PyDBLog.Model.Links
import PyDBLog.Mssql.Texts

/-! # What the connector takes from its driver

The methods of the connector reach the world through their driver alone: a relation that executing a
text, reading the clock and sleeping respect is respected by every primitive (`moving_source`), an
exception that is not the driver's is one of those the methods raise themselves (`only_source`), and
over a driver that does what another does every primitive does what it does over the other
(`simulates_source`). -/

namespace PyDBLog.Mssql.Driver

open PyDBLog.Model.Python PyDBLog.Model.Frame PyDBLog.Model.Types PyDBLog.Model.Connector
open PyDBLog.Model.Worlds PyDBLog.Model.Raises PyDBLog.Model.Links
open PyDBLog.Mssql.Schema PyDBLog.Mssql.Connector PyDBLog.Mssql.Connector.MSSQLConnector
open PyDBLog.Mssql.ReadTable PyDBLog.Mssql.Texts

variable {σ τ α β : Type} {conn : MSSQLConnector σ}

/-! ### The world -/

/-- A question about some table. -/
def Sends (pagination : Pagination) (entry : Executed) : Prop :=
  ∃ schema table, Asks pagination schema table entry

/-- Executing what may be sent, reading the clock and sleeping move the world by a reflexive and
transitive relation. -/
structure DriverMoves (sent : Executed → Prop) (R : σ → σ → Prop) (conn : MSSQLConnector σ) : Prop where
  refl : ∀ w, R w w
  trans : ∀ {w₁ w₂ w₃}, R w₁ w₂ → R w₂ w₃ → R w₁ w₃
  execute : ∀ {text params}, sent (text, params) → Moves R (conn.execute text params)
  monotonic : Moves R conn.monotonic
  sleep : ∀ time, Moves R (conn.sleep time)

namespace DriverMoves

variable {sent : Executed → Prop} {R : σ → σ → Prop} (hR : DriverMoves sent R conn)

include hR

/-- Of fewer texts. -/
theorem mono {sent' : Executed → Prop} (h : ∀ entry, sent' entry → sent entry) :
    DriverMoves sent' R conn :=
  { hR with execute := fun hsent => hR.execute (h _ hsent) }

theorem bind {x : Call σ α} {f : α → Call σ β} (hx : Moves R x) (hf : ∀ a, Moves R (f a)) :
    Moves R (x >>= f) := Moves.bind (R := R) hR.trans hx hf

theorem pure (a : α) : Moves R (Pure.pure a : Call σ α) := Moves.pure hR.refl a

theorem throw (e : PyError) : Moves R (throw e : Call σ α) := Moves.throw hR.refl e

theorem ofExcept (x : Except PyError α) : Moves R (ofExcept x : Call σ α) := Moves.ofExcept hR.refl x

/-- What follows a check that returns. -/
theorem checked {x : Except PyError α} {f : α → Call σ β} (h : ∀ a, x = .ok a → Moves R (f a)) :
    Moves R (MonadExcept.ofExcept x >>= f) := by
  cases x with
  | ok a => exact h a rfl
  | error e =>
    have hthrow : Moves R (MonadExcept.throw e : Call σ β) := hR.throw e
    exact hthrow

/-- A text is executed, and what it answers is looked at. -/
theorem asks {text : String} {params : List Cell} {f : ResultSet → Call σ α} (hsent : sent (text, params))
    (hf : ∀ a, Moves R (f a)) : Moves R (conn.execute text params >>= f) := hR.bind (hR.execute hsent) hf

theorem getMinLsn {captureInstance : String}
    (hsent : sent ("SELECT sys.fn_cdc_get_min_lsn(?) as min_lsn", [.str captureInstance])) :
    Moves R (conn.getMinLsn captureInstance) := by
  refine hR.asks hsent fun result => ?_
  dsimp only
  split_ifs
  · exact hR.throw _
  · exact hR.ofExcept _

theorem getMaxLsn (hsent : sent ("SELECT sys.fn_cdc_get_max_lsn() as max_lsn", [])) :
    Moves R conn.getMaxLsn := by
  refine hR.asks hsent fun result => ?_
  dsimp only
  split_ifs
  · exact hR.throw _
  · exact hR.ofExcept _

theorem watermark (hsent : sent ("SELECT SYSDATETIME()", [])) : Moves R conn.watermark := by
  refine hR.asks hsent fun result => ?_
  split
  · exact hR.throw _
  · exact hR.pure _
  · exact hR.throw _

section await

variable {mark : Datetime} (hsent : sent (capturePassedQuery, [.datetime mark, .datetime mark]))

include hsent

theorem capturePassed : Moves R (conn.capturePassed mark) := hR.asks hsent fun _ => hR.pure _

theorem awaitLoop (deadline : ℤ) : ∀ polls, Moves R (conn.awaitLoop mark deadline polls)
  | 0 => hR.pure _
  | polls + 1 => by
    refine hR.bind hR.monotonic fun time => ?_
    split_ifs
    · refine hR.bind (hR.capturePassed hsent) fun passed => ?_
      split_ifs
      · exact hR.pure _
      · exact hR.bind (hR.sleep _) fun _ => awaitLoop deadline polls
    · exact hR.pure _

theorem awaitWatermark : Moves R (conn.awaitWatermark mark) := by
  refine hR.bind hR.monotonic fun started => hR.bind (hR.awaitLoop hsent _ _) fun passed => ?_
  split_ifs
  · exact hR.pure _
  · exact hR.throw _

end await

theorem readColumns {objectName : String} (hsent : sent (columnsQuery, [.str objectName])) :
    Moves R (conn.readColumns objectName) := hR.asks hsent fun _ => hR.ofExcept _

/-- The catalogue is read as the driver moves the world. -/
theorem readCatalogue {objectName captureSchema : String} (hkeys : sent (pkColumnsQuery, [.str objectName]))
    (hinstance : sent (captureInstanceQuery captureSchema, [.str objectName]))
    (hcolumns : sent (columnsQuery, [.str objectName]))
    (hcaptured : ∀ name, isIdentifier name = true →
      sent (columnsQuery, [.str s!"{captureSchema}.{name}_CT"])) :
    Moves R (conn.readCatalogue objectName captureSchema) := by
  have hpk : Moves R (conn.readPkColumns objectName) := by
    refine hR.asks hkeys fun result => ?_
    dsimp only
    split_ifs
    · exact hR.throw _
    · exact hR.pure _
  have hci : Moves R (conn.readCaptureInstance objectName captureSchema) := by
    rw [captureInstanceQuery_eq] at hinstance
    exact hR.asks hinstance fun _ => hR.pure _
  refine hR.bind hpk fun _ => hR.bind hci fun ci => hR.bind (hR.readColumns hcolumns) fun _ => ?_
  split_ifs
  · exact hR.pure _
  · have hchange : Moves R (conn.readCapturedColumns ci captureSchema) :=
      hR.checked fun name hname => hR.bind
        (hR.readColumns (hcaptured name (validateInstance_ok.mp hname).2)) fun _ => hR.pure _
    exact hR.bind hchange fun _ => hR.pure _

theorem readEventLog {spec : TableSpec} {fromLsn toLsn : LSN}
    (hsent : ∀ {captureInstance query}, eventLogQuery spec captureInstance = .ok query →
      sent (query, [.bytes fromLsn, .bytes toLsn])) :
    Moves R (conn.readEventLog spec fromLsn toLsn) := by
  unfold MSSQLConnector.readEventLog
  split
  · exact hR.throw _
  · refine hR.checked fun _ hquery => hR.asks (hsent hquery) fun result => ?_
    split_ifs
    · exact hR.pure _
    · exact hR.bind (hR.ofExcept _) fun _ => hR.bind (hR.ofExcept _) fun _ => hR.pure _

theorem readTable {spec : TableSpec} {startPk endPk : Option ℤ} {limit : ℤ}
    (hsent : ∀ {query params}, buildReadTableQuery conn.pagination spec startPk endPk limit =
      .ok (query, params) → sent (query, params.map .int)) :
    Moves R (conn.readTable spec startPk endPk limit) :=
  hR.checked fun _ hquery => hR.asks (hsent hquery) fun _ => hR.bind (hR.ofExcept _) fun _ =>
    hR.bind (hR.ofExcept _) fun _ => hR.pure _

theorem mapLsnToTimestamp {lsn : LSN} (hsent : sent ("SELECT sys.fn_cdc_map_lsn_to_time(?)", [.bytes lsn])) :
    Moves R (conn.mapLsnToTimestamp lsn) := hR.asks hsent fun _ => hR.pure _

theorem readPkRange {spec : TableSpec} (hsent : ∀ {query}, buildPkRangeQuery spec = .ok query →
    sent (query, [])) : Moves R (conn.readPkRange spec) := by
  refine hR.checked fun _ hquery => hR.asks (hsent hquery) fun result => ?_
  split_ifs
  · exact hR.pure _
  · dsimp only
    split
    · exact hR.throw _
    · split
      · exact hR.pure _
      · exact hR.throw _

omit hR in
/-- **The connector moves the world as its driver does**, asked what it asks of a table. -/
theorem moving_source (hR : DriverMoves (Sends conn.pagination) R conn) : Moving R conn.source where
  refl := hR.refl
  trans := hR.trans
  getMaxLsn := hR.getMaxLsn ⟨"", "", .maxLsn⟩
  getMinLsn _ := hR.getMinLsn ⟨"", "", .minLsn _⟩
  watermark := hR.watermark ⟨"", "", .clock⟩
  awaitWatermark _ := hR.awaitWatermark ⟨"", "", .scans _⟩
  inspect schema table :=
    hR.bind (hR.readCatalogue ⟨schema, table, .keys⟩ ⟨schema, table, .captureInstance⟩
      ⟨schema, table, .columns⟩ fun _ hname => ⟨schema, table, .changeTable hname⟩) fun _ => hR.ofExcept _
  readEventLog _ _ _ := hR.readEventLog fun hquery => ⟨"", "", .of_eventLogQuery hquery _ _⟩
  toEvents _ _ _ := hR.ofExcept _
  readTable spec _ _ _ := hR.readTable fun hquery => by
    obtain ⟨haccepts, rfl, rfl⟩ := buildReadTableQuery_ok.mp hquery
    exact ⟨_, _, .page haccepts rfl rfl⟩
  incrementLsn _ := hR.ofExcept _

end DriverMoves

/-! ### Exceptions -/

/-- The exceptions the methods of the connector raise themselves. -/
inductive Own : PyError → Prop
  | valueError (message) : Own (.valueError message)
  | typeError (message) : Own (.typeError message)
  | indexError (message) : Own (.indexError message)
  | keyError (message) : Own (.keyError message)
  | runtimeError (message) : Own (.runtimeError message)
  | timeoutError (message) : Own (.timeoutError message)
  | polarsError (message) : Own (.polarsError message)

section own

variable {P : PyError → Prop} (own : ∀ e, Own e → P e)

include own

theorem only_asBytes (cell : Cell) : OnlyPure P (asBytes cell) := by
  unfold asBytes
  split
  · exact .ok _
  · exact .error (own _ (.typeError _))

theorem only_asStr (cell : Cell) : OnlyPure P (asStr cell) := by
  unfold asStr
  split
  · exact .ok _
  · exact .error (own _ (.typeError _))

theorem only_str (lib : Libraries) (model : String) (cell : Cell) : OnlyPure P (lib.str model cell) := by
  unfold Libraries.str
  split
  · exact .ok _
  · exact .error (own _ (.valueError _))

theorem only_int (lib : Libraries) (model : String) (cell : Cell) : OnlyPure P (lib.int model cell) := by
  unfold Libraries.int
  split
  · exact .ok _
  · exact .error (own _ (.valueError _))

theorem only_optionalStr (lib : Libraries) (model : String) (cell : Cell) :
    OnlyPure P (lib.optionalStr model cell) :=
  .ite (.ok _) ((only_str own lib model cell).bind fun _ => .ok _)

theorem only_columnOfRow (lib : Libraries) (row : Row) : OnlyPure P (columnOfRow lib row) := by
  have hstr := only_str own lib
  have hint := only_int own lib
  unfold columnOfRow
  split
  · exact (hstr _ _).bind fun _ => (hstr _ _).bind fun _ => (hint _ _).bind fun _ =>
      (hint _ _).bind fun _ => (only_optionalStr own lib _ _).bind fun _ => .ok _
  · exact .error (own _ (.valueError _))

theorem only_arrowType (column : ColumnSpec) : OnlyPure P (arrowType column) := by
  unfold arrowType
  dsimp only
  split
  · exact .ok _
  split_ifs
  · exact .ite (.error (own _ (.valueError _))) (.ok _)
  · exact .ok _
  · exact .ok _
  · exact .ok _
  · exact .error (own _ (.valueError _))

theorem only_validate (spec : TableSpec) : OnlyPure P (validate spec) := by
  refine OnlyPure.bind (.forM (fun captured => ?_) _) fun _ => OnlyPure.bind (.forM (fun key => ?_) _)
    fun _ => OnlyPure.bind (.forM (fun name => ?_) _) fun _ => .forM (fun column => ?_) _
  · unfold validateCaptured
    split
    · exact .error (own _ (.valueError _))
    · refine (only_arrowType own _).bind fun was => (only_arrowType own _).bind fun isNow => ?_
      exact .ite (.error (own _ (.valueError _))) (.ok _)
  · unfold validateKey
    exact .ite (.error (own _ (.valueError _))) (.ite (.error (own _ (.valueError _))) (.ok _))
  · unfold validateName
    exact .ite (.error (own _ (.valueError _))) (.ok _)
  · exact (only_arrowType own _).bind fun _ => .ok _

theorem only_describeTable (lib : Libraries) (schema table : String) (read : CatalogueRead) :
    OnlyPure P (describeTable lib schema table read) :=
  (OnlyPure.mapM (fun _ => only_str own lib _ _) _).bind fun _ =>
    (only_optionalStr own lib _ _).bind fun _ =>
      .ite (.ok _) ((only_validate own _).bind fun _ => .ok _)

theorem only_fields (columns : List ColumnSpec) : OnlyPure P (fields columns) :=
  .mapM (fun column => (only_arrowType own column).bind fun _ => .ok _) _

theorem only_conform (lib : Libraries) (table : ArrowTable) (schema : List ArrowField)
    (context : String) :
    OnlyPure P (conform lib table schema context) := by
  unfold conform
  dsimp only
  refine .ite (.error (own _ (.valueError _))) (.ite (.error (own _ (.valueError _)))
    (.ite (.error (own _ (.keyError _))) ?_))
  refine .mapM (fun field => ?_) _
  unfold castColumn lookupColumn
  refine OnlyPure.bind ?_ fun column => ?_
  · split
    · exact .error (own _ (.keyError _))
    · exact .ok _
  · split
    · exact .ok _
    · exact .error (own _ (.valueError _))

theorem only_validateIdentifier (name kind : String) : OnlyPure P (validateIdentifier name kind) := by
  unfold validateIdentifier
  exact .ite (.error (own _ (.valueError _))) (.ok _)

theorem only_quoteIdentifier (name kind : String) : OnlyPure P (quoteIdentifier name kind) :=
  (only_validateIdentifier own name kind).bind fun _ => .ok _

theorem only_eventLogQuery (spec : TableSpec) (captureInstance : String) :
    OnlyPure P (eventLogQuery spec captureInstance) :=
  (only_validateIdentifier own _ _).bind fun _ =>
    (OnlyPure.mapM (fun _ => only_quoteIdentifier own _ _) _).bind fun _ => .ok _

theorem only_buildReadTableQuery (pagination : Pagination) (spec : TableSpec) (startPk endPk : Option ℤ)
    (limit : ℤ) : OnlyPure P (buildReadTableQuery pagination spec startPk endPk limit) := by
  have hbuild : OnlyPure P (buildReadTableQuery.build pagination spec startPk endPk limit) :=
    (only_quoteIdentifier own _ _).bind fun _ => (only_quoteIdentifier own _ _).bind fun _ =>
      (OnlyPure.mapM (fun _ => (only_quoteIdentifier own _ _).bind fun _ => .ok _) _).bind fun _ =>
        (OnlyPure.mapM (fun _ => only_quoteIdentifier own _ _) _).bind fun _ => .ok _
  refine OnlyPure.bind ?_ fun _ => ?_
  · unfold validateReadSpec
    exact .ite (.error (own _ (.valueError _))) (.ite (.error (own _ (.valueError _))) (.ok _))
  refine .ite (.error (own _ (.valueError _))) ?_
  split
  · exact .ite (.error (own _ (.valueError _))) hbuild
  · exact hbuild

theorem only_toEvents (rows : DataFrame) (spec : TableSpec) (low : Option Datetime) :
    OnlyPure P (toEvents rows spec low) := by
  unfold MSSQLConnector.toEvents DataFrame.selectLiteralsAndAll
  exact .ite (.error (own _ (.polarsError _))) (.ok _)

theorem only_incrementLsn (lsn : LSN) : OnlyPure P (incrementLsn lsn) := by
  unfold MSSQLConnector.incrementLsn
  refine .ite (.error (own _ (.valueError _))) ?_
  split
  · exact .ok _
  · exact .error (own _ (.valueError _))

end own

/-- Whatever executing, reading the clock and sleeping raise has a property that the exceptions of
the methods have, too. -/
structure DriverRaises (P : PyError → Prop) (conn : MSSQLConnector σ) : Prop where
  own : ∀ e, Own e → P e
  execute : ∀ text params, Only P (conn.execute text params)
  monotonic : Only P conn.monotonic
  sleep : ∀ time, Only P (conn.sleep time)

namespace DriverRaises

variable {P : PyError → Prop} (hP : DriverRaises P conn)

include hP

theorem asks {text : String} {params : List Cell} {f : ResultSet → Call σ α} (hf : ∀ a, Only P (f a)) :
    Only P (conn.execute text params >>= f) := (hP.execute text params).bind hf

theorem getMinLsn (captureInstance : String) : Only P (conn.getMinLsn captureInstance) := by
  refine hP.asks fun result => ?_
  dsimp only
  split_ifs
  · exact .throw (hP.own _ (.valueError _))
  · exact .ofExcept (only_asBytes hP.own _)

theorem getMaxLsn : Only P conn.getMaxLsn := by
  refine hP.asks fun result => ?_
  dsimp only
  split_ifs
  · exact .throw (hP.own _ (.valueError _))
  · exact .ofExcept (only_asBytes hP.own _)

theorem watermark : Only P conn.watermark := by
  refine hP.asks fun result => ?_
  split
  · exact .throw (hP.own _ (.runtimeError _))
  · exact .pure _
  · exact .throw (hP.own _ (.typeError _))

theorem capturePassed (mark : Datetime) : Only P (conn.capturePassed mark) := hP.asks fun _ => .pure _

theorem awaitLoop (mark : Datetime) (deadline : ℤ) : ∀ polls, Only P (conn.awaitLoop mark deadline polls)
  | 0 => .pure _
  | polls + 1 => by
    refine hP.monotonic.bind fun time => ?_
    split_ifs
    · refine (hP.capturePassed mark).bind fun passed => ?_
      split_ifs
      · exact .pure _
      · exact (hP.sleep _).bind fun _ => awaitLoop mark deadline polls
    · exact .pure _

theorem awaitWatermark (mark : Datetime) : Only P (conn.awaitWatermark mark) := by
  refine hP.monotonic.bind fun started => (hP.awaitLoop _ _ _).bind fun passed => ?_
  split_ifs
  · exact .pure _
  · exact .throw (hP.own _ (.timeoutError _))

theorem readColumns (objectName : String) : Only P (conn.readColumns objectName) :=
  hP.asks fun _ => .ofExcept (.mapM (only_columnOfRow hP.own _) _)

theorem inspect (schema table captureSchema : String) :
    Only P (conn.inspect schema table captureSchema) := by
  have hpk : Only P (conn.readPkColumns s!"{schema}.{table}") := by
    refine hP.asks fun result => ?_
    dsimp only
    split_ifs
    · exact .throw (hP.own _ (.valueError _))
    · exact .pure _
  have hinstance : ∀ cell, OnlyPure P (validateInstance cell) := fun cell =>
    (only_asStr hP.own cell).bind fun _ => only_validateIdentifier hP.own _ _
  refine Only.bind (hpk.bind fun _ => Only.bind (hP.asks fun _ => .pure _) fun ci =>
    (hP.readColumns _).bind fun columns => ?_) fun _ => .ofExcept (only_describeTable hP.own _ _ _ _)
  split_ifs
  · exact .pure _
  · exact Only.bind ((Only.ofExcept (hinstance ci)).bind fun _ => (hP.readColumns _).bind fun _ => .pure _)
      fun _ => .pure _

theorem readEventLog (spec : TableSpec) (fromLsn toLsn : LSN) :
    Only P (conn.readEventLog spec fromLsn toLsn) := by
  unfold MSSQLConnector.readEventLog
  split
  · exact .throw (hP.own _ (.valueError _))
  · refine (Only.ofExcept (only_eventLogQuery hP.own _ _)).bind fun _ => hP.asks fun result => ?_
    split_ifs
    · exact .pure _
    · have hschema : OnlyPure P (eventSchema spec) := (only_fields hP.own _).bind fun _ => .ok _
      exact (Only.ofExcept hschema).bind fun _ =>
        (Only.ofExcept (only_conform hP.own _ _ _ _)).bind fun _ => .pure _

theorem readTable (spec : TableSpec) (startPk endPk : Option ℤ) (limit : ℤ) :
    Only P (conn.readTable spec startPk endPk limit) :=
  (Only.ofExcept (only_buildReadTableQuery hP.own _ _ _ _ _)).bind fun _ => hP.asks fun _ =>
    (Only.ofExcept (only_fields hP.own _)).bind fun _ =>
      (Only.ofExcept (only_conform hP.own _ _ _ _)).bind fun _ => .pure _

/-- **What comes out of the connector** is the driver's or its own. -/
theorem only_source {e : PyError} (h : FromSource conn.source e) : P e := by
  cases h with
  | getMaxLsn raised => exact hP.getMaxLsn _ _ _ raised
  | getMinLsn raised => exact hP.getMinLsn _ _ _ _ raised
  | watermark raised => exact hP.watermark _ _ _ raised
  | awaitWatermark raised => exact hP.awaitWatermark _ _ _ _ raised
  | inspect raised => exact hP.inspect _ _ _ _ _ _ raised
  | readEventLog raised => exact hP.readEventLog _ _ _ _ _ _ raised
  | toEvents raised => exact Only.ofExcept (only_toEvents hP.own _ _ _) _ _ _ raised
  | readTable raised => exact hP.readTable _ _ _ _ _ _ _ raised
  | incrementLsn raised => exact Only.ofExcept (only_incrementLsn hP.own _) _ _ _ raised

end DriverRaises

/-! ### Another driver -/

/-- Two connectors with the same settings, the driver of one doing what that of the other does. -/
structure DriverFollows (link : Link σ τ) (conn : MSSQLConnector σ) (other : MSSQLConnector τ) :
    Prop where
  execute : ∀ text params, Follows link (conn.execute text params) (other.execute text params)
  monotonic : Follows link conn.monotonic other.monotonic
  sleep : ∀ time, Follows link (conn.sleep time) (other.sleep time)
  lib : conn.lib = other.lib
  pagination : conn.pagination = other.pagination
  watermarkTimeout : conn.watermarkTimeout = other.watermarkTimeout
  watermarkPoll : conn.watermarkPoll = other.watermarkPoll
  maxPolls : conn.maxPolls = other.maxPolls
  isoformat : conn.isoformat = other.isoformat
  seconds : conn.seconds = other.seconds

namespace DriverFollows

variable {link : Link σ τ} {other : MSSQLConnector τ} (h : DriverFollows link conn other)

include h

theorem asks {text : String} {params : List Cell} {f : ResultSet → Call σ α} {g : ResultSet → Call τ α}
    (hf : ∀ result, Follows link (f result) (g result)) :
    Follows link (conn.execute text params >>= f) (other.execute text params >>= g) :=
  (h.execute text params).bind hf

theorem getMinLsn (captureInstance : String) :
    Follows link (conn.getMinLsn captureInstance) (other.getMinLsn captureInstance) :=
  h.asks fun _ => (Follows.throw _).ite (.ofExcept _)

theorem getMaxLsn : Follows link conn.getMaxLsn other.getMaxLsn :=
  h.asks fun _ => (Follows.throw _).ite (.ofExcept _)

theorem watermark : Follows link conn.watermark other.watermark := by
  refine h.asks fun result => ?_
  split
  · exact .throw _
  · exact .pure _
  · exact .throw _

theorem capturePassed (mark : Datetime) :
    Follows link (conn.capturePassed mark) (other.capturePassed mark) := h.asks fun _ => .pure _

theorem awaitLoop (mark : Datetime) (deadline : ℤ) : ∀ polls,
    Follows link (conn.awaitLoop mark deadline polls) (other.awaitLoop mark deadline polls)
  | 0 => .pure _
  | polls + 1 => by
    refine h.monotonic.bind fun time => Follows.ite ?_ (.pure _)
    refine (h.capturePassed mark).bind fun passed => (Follows.pure _).ite ?_
    rw [h.watermarkPoll]
    exact (h.sleep _).bind fun _ => awaitLoop mark deadline polls

theorem awaitWatermark (mark : Datetime) :
    Follows link (conn.awaitWatermark mark) (other.awaitWatermark mark) := by
  unfold MSSQLConnector.awaitWatermark
  rw [h.watermarkTimeout, h.maxPolls, h.isoformat, h.seconds]
  exact h.monotonic.bind fun started => (h.awaitLoop mark _ _).bind fun passed =>
    (Follows.pure _).ite (.throw _)

theorem readColumns (objectName : String) :
    Follows link (conn.readColumns objectName) (other.readColumns objectName) := by
  unfold MSSQLConnector.readColumns
  rw [h.lib]
  exact h.asks fun _ => .ofExcept _

theorem readCatalogue (objectName captureSchema : String) :
    Follows link (conn.readCatalogue objectName captureSchema)
      (other.readCatalogue objectName captureSchema) := by
  have hpk : Follows link (conn.readPkColumns objectName) (other.readPkColumns objectName) :=
    h.asks fun _ => (Follows.throw _).ite (.pure _)
  have hci : Follows link (conn.readCaptureInstance objectName captureSchema)
      (other.readCaptureInstance objectName captureSchema) := h.asks fun _ => .pure _
  have hchange : ∀ ci, Follows link (conn.readCapturedColumns ci captureSchema)
      (other.readCapturedColumns ci captureSchema) := fun ci =>
    (Follows.ofExcept _).bind fun _ => (h.readColumns _).bind fun _ => .pure _
  exact hpk.bind fun _ => hci.bind fun ci => (h.readColumns _).bind fun _ =>
    (Follows.pure _).ite ((hchange ci).bind fun _ => .pure _)

theorem inspect (schema table captureSchema : String) :
    Follows link (conn.inspect schema table captureSchema)
      (other.inspect schema table captureSchema) := by
  unfold MSSQLConnector.inspect
  rw [h.lib]
  exact (h.readCatalogue _ _).bind fun _ => .ofExcept _

theorem readEventLog (spec : TableSpec) (fromLsn toLsn : LSN) :
    Follows link (conn.readEventLog spec fromLsn toLsn) (other.readEventLog spec fromLsn toLsn) := by
  unfold MSSQLConnector.readEventLog
  split
  · exact .throw _
  · rw [h.lib]
    exact (Follows.ofExcept _).bind fun _ => h.asks fun result => (Follows.pure _).ite
      ((Follows.ofExcept _).bind fun _ => (Follows.ofExcept _).bind fun _ => .pure _)

theorem readTable (spec : TableSpec) (startPk endPk : Option ℤ) (limit : ℤ) :
    Follows link (conn.readTable spec startPk endPk limit)
      (other.readTable spec startPk endPk limit) := by
  unfold MSSQLConnector.readTable
  rw [h.lib, h.pagination]
  exact (Follows.ofExcept _).bind fun _ => h.asks fun _ => (Follows.ofExcept _).bind fun _ =>
    (Follows.ofExcept _).bind fun _ => .pure _

/-- **The connector does what it does over the other driver.** -/
theorem simulates_source : Simulates link conn.source other.source where
  getMaxLsn := h.getMaxLsn
  getMinLsn := h.getMinLsn
  watermark := h.watermark
  awaitWatermark := h.awaitWatermark
  inspect _ _ := h.inspect _ _ _
  readEventLog := h.readEventLog
  toEvents _ _ _ := .ofExcept _
  readTable := h.readTable
  incrementLsn _ := .ofExcept _

end DriverFollows

end PyDBLog.Mssql.Driver
