import PyDBLog.Mssql.Driver

/-! # Connections and cursors

The connector with the connection it keeps and a cursor for each read. It reaches the server through
its process alone (`Process`): what `mssql_python` does when it is asked, and the clock. Whatever
that raises, and wherever, no two cursors are open at once, no statement runs on another one than
the open one, and every call leaves none open (`handles_returned`). -/

namespace PyDBLog.Mssql.Handles

open PyDBLog.Model.Python PyDBLog.Model.Frame PyDBLog.Model.Types PyDBLog.Model.Connector
open PyDBLog.Model.DBLog PyDBLog.Model.Worlds PyDBLog.Model.Raises PyDBLog.Mssql.Schema
  PyDBLog.Mssql.Connector
open PyDBLog.Mssql.Connector.MSSQLConnector PyDBLog.Mssql.Driver

variable {σ τ α β Connection Cursor : Type}

/-- What the connector asks of its process: to connect, for a cursor, to execute a text on a cursor
and fetch what it holds, to close either, and for the time. -/
structure Process (σ Connection Cursor : Type) where
  connect : (connStr : String) → Call σ Connection
  cursor : Connection → Call σ Cursor
  execute : Cursor → String → List Cell → Call σ ResultSet
  closeCursor : Cursor → Call σ Unit
  close : Connection → Call σ Unit
  monotonic : Call σ ℤ
  sleep : ℤ → Call σ Unit

/-- What the constructor keeps. -/
structure Settings where
  host : String
  user : String
  password : String
  database : String
  port : String
  encrypt : String
  trustServerCertificate : String
  lib : Libraries
  pagination : Pagination
  watermarkTimeout : ℤ
  watermarkPoll : ℤ
  maxPolls : ℕ
  isoformat : Datetime → String
  seconds : ℤ → String

/-- The keyword arguments of the constructor, with its defaults, times in microseconds. -/
structure Kwargs where
  encrypt : String := "yes"
  trustServerCertificate : String := "yes"
  watermarkTimeout : ℤ := watermarkTimeoutSeconds * 1000000
  watermarkPoll : ℤ := watermarkPollSeconds * 1000000
  pagination : String := "fetch"

/-- The constructor. -/
def Settings.init (host user password database port : String) (kwargs : Kwargs) (lib : Libraries)
    (maxPolls : ℕ) (isoformat : Datetime → String) (seconds : ℤ → String) : Except PyError Settings := do
  let pagination ← Pagination.parse kwargs.pagination
  return { host, user, password, database, port, lib, pagination, maxPolls, isoformat, seconds,
           encrypt := kwargs.encrypt
           trustServerCertificate := kwargs.trustServerCertificate
           watermarkTimeout := kwargs.watermarkTimeout
           watermarkPoll := kwargs.watermarkPoll }

/-- The constructor refuses a pagination that is neither of the two, and nothing else. -/
theorem Settings.init_ok_iff {host user password database port : String} {kwargs : Kwargs}
    {lib : Libraries} {maxPolls : ℕ} {isoformat : Datetime → String} {seconds : ℤ → String} :
    (∃ settings, Settings.init host user password database port kwargs lib maxPolls isoformat seconds =
      .ok settings) ↔ kwargs.pagination = "fetch" ∨ kwargs.pagination = "top" := by
  unfold Settings.init Pagination.parse
  by_cases hfetch : kwargs.pagination = "fetch"
  · rw [if_pos hfetch]
    exact iff_of_true ⟨_, rfl⟩ (Or.inl hfetch)
  by_cases htop : kwargs.pagination = "top"
  · rw [if_neg hfetch, if_pos htop]
    exact iff_of_true ⟨_, rfl⟩ (Or.inr htop)
  · rw [if_neg hfetch, if_neg htop]
    refine iff_of_false ?_ (not_or.mpr ⟨hfetch, htop⟩)
    rintro ⟨settings, h⟩
    cases h

/-- The methods over what executing a text answers. -/
def Settings.over (settings : Settings) (execute : String → List Cell → Call σ ResultSet)
    (monotonic : Call σ ℤ) (sleep : ℤ → Call σ Unit) : MSSQLConnector σ where
  execute := execute
  monotonic := monotonic
  sleep := sleep
  lib := settings.lib
  pagination := settings.pagination
  watermarkTimeout := settings.watermarkTimeout
  watermarkPoll := settings.watermarkPoll
  maxPolls := settings.maxPolls
  isoformat := settings.isoformat
  seconds := settings.seconds

def Settings.connStr (settings : Settings) : String :=
  s!"SERVER={settings.host},{settings.port};DATABASE={settings.database};" ++
    s!"Uid={settings.user};Pwd={settings.password};" ++
    s!"Encrypt={settings.encrypt};TrustServerCertificate={settings.trustServerCertificate};"

/-- A world with the connection a connector keeps. -/
structure Session (σ Connection : Type) where
  world : σ
  conn : Option Connection

/-- A call of the process, from a session. -/
def onWorld (x : Call σ α) : Call (Session σ Connection) α := fun s =>
  match x s.world with
  | .ok a w => .ok a ⟨w, s.conn⟩
  | .error e w => .error e ⟨w, s.conn⟩

/-! ### The connector -/

/-- The connector in its process. -/
structure SessionConnector (σ Connection Cursor : Type) where
  process : Process σ Connection Cursor
  settings : Settings

namespace SessionConnector

variable (self : SessionConnector σ Connection Cursor)

/-- Open the connection, if there is not one already. -/
def connect : Call (Session σ Connection) Unit := do
  match (← get).conn with
  | some _ => return ()
  | none => do
    let conn ← onWorld (self.process.connect self.settings.connStr)
    modify fun s => { s with conn := some conn }

/-- Close the connection. One that raises is kept. -/
def close : Call (Session σ Connection) Unit := do
  match (← get).conn with
  | none => return ()
  | some conn => do
    onWorld (self.process.close conn)
    modify fun s => { s with conn := none }

/-- Open a cursor, connecting first if there is no connection yet. -/
def cursor : Call (Session σ Connection) Cursor := do
  self.connect
  match (← get).conn with
  | none => throw (.runtimeError "connect() returned without opening a connection")
  | some conn => onWorld (self.process.cursor conn)

/-- A cursor that closes even when the query raises. -/
def openCursor (body : Cursor → Call (Session σ Connection) α) : Call (Session σ Connection) α := do
  let cur ← self.cursor
  try body cur finally onWorld (self.process.closeCursor cur)

/-- The block of a `with` statement on the connector. -/
def within (body : Call (Session σ Connection) α) : Call (Session σ Connection) α := do
  self.connect
  try body finally self.close

/-- The methods on an open cursor. -/
def onCursor (cur : Cursor) : MSSQLConnector (Session σ Connection) :=
  self.settings.over (fun text params => onWorld (self.process.execute cur text params))
    (onWorld self.process.monotonic) fun time => onWorld (self.process.sleep time)

/-- The methods that open a cursor for their one statement. -/
def statements : MSSQLConnector (Session σ Connection) :=
  self.settings.over
    (fun text params => self.openCursor fun cur => onWorld (self.process.execute cur text params))
    (onWorld self.process.monotonic) fun time => onWorld (self.process.sleep time)

/-- Read the metadata every read of a table is driven from, on one cursor. -/
def inspect (schema table captureSchema : String) : Call (Session σ Connection) TableSpec := do
  let read ← self.openCursor fun cur =>
    (self.onCursor cur).readCatalogue s!"{schema}.{table}" captureSchema
  ofExcept (describeTable self.settings.lib schema table read)

/-- Block until the capture job has processed everything committed by `mark`, asking on one
cursor. -/
def awaitWatermark (mark : Datetime) : Call (Session σ Connection) Unit := do
  let started ← onWorld self.process.monotonic
  let passed ← self.openCursor fun cur =>
    (self.onCursor cur).awaitLoop mark (started + self.settings.watermarkTimeout) self.settings.maxPolls
  if passed then return ()
  else throw (.timeoutError
    (s!"the capture job did not pass the watermark {self.settings.isoformat mark} within " ++
      s!"{self.settings.seconds self.settings.watermarkTimeout}s; is the SQL Server Agent running and the " ++
      "capture job started?"))

/-- The connector as the source `dblog()` is given. -/
def source : SourceConnector (Session σ Connection) :=
  { self.statements.source with
    inspect := fun schema table => self.inspect schema table "cdc"
    awaitWatermark := self.awaitWatermark }

end SessionConnector

/-! ### What is held -/

/-- What a process notes of the handles it is asked for. -/
inductive Event (Connection Cursor : Type)
  | connected (conn : Connection)
  | opened (conn : Connection) (cur : Cursor)
  | executed (cur : Cursor)
  | closed (cur : Cursor)
  | disconnected (conn : Connection)

/-- A connection and a cursor that are open. -/
structure Held (Connection Cursor : Type) where
  conn : Option Connection
  cur : Option Cursor

/-- **One handle of a kind at a time**, each used while it is open. -/
inductive Held.Step : Held Connection Cursor → Event Connection Cursor → Held Connection Cursor → Prop
  | connected {conn} : Step ⟨none, none⟩ (.connected conn) ⟨some conn, none⟩
  | opened {conn cur} : Step ⟨some conn, none⟩ (.opened conn cur) ⟨some conn, some cur⟩
  | executed {conn cur} : Step ⟨conn, some cur⟩ (.executed cur) ⟨conn, some cur⟩
  | closed {conn cur} : Step ⟨conn, some cur⟩ (.closed cur) ⟨conn, none⟩
  | disconnected {conn} : Step ⟨some conn, none⟩ (.disconnected conn) ⟨none, none⟩

/-- What is held after some events, one after the other. -/
inductive Held.Path :
    Held Connection Cursor → List (Event Connection Cursor) → Held Connection Cursor → Prop
  | nil {held} : Path held [] held
  | cons {held event held' events last} (step : held.Step event held') (path : Path held' events last) :
      Path held (event :: events) last

theorem Held.Path.append {held held' last : Held Connection Cursor}
    {events more : List (Event Connection Cursor)} (path : held.Path events held')
    (rest : held'.Path more last) : held.Path (events ++ more) last := by
  induction path with
  | nil => exact rest
  | cons step _ ih => exact .cons step (ih rest)

theorem Held.Step.path {held held' : Held Connection Cursor} {event : Event Connection Cursor}
    (step : held.Step event held') : held.Path [event] held' := .cons step .nil

/-! ### A process that keeps notes -/

/-- A call on the world beside something else. -/
def beside (x : Call σ α) : Call (σ × τ) α := fun s =>
  match x s.1 with
  | .ok a w => .ok a (w, s.2)
  | .error e w => .error e (w, s.2)

/-- An event is noted when the call returns. -/
def noting (x : Call σ α) (event : α → Event Connection Cursor) :
    Call (σ × List (Event Connection Cursor)) α := fun s =>
  match x s.1 with
  | .ok a w => .ok a (w, s.2 ++ [event a])
  | .error e w => .error e (w, s.2)

/-- An event is noted, also where the call raises. -/
def attempting (x : Call σ α) (event : Event Connection Cursor) :
    Call (σ × List (Event Connection Cursor)) α := fun s => beside x (s.1, s.2 ++ [event])

/-- The process, noting which handles it hands out, runs a text on and takes back. -/
def Process.noted (process : Process σ Connection Cursor) :
    Process (σ × List (Event Connection Cursor)) Connection Cursor where
  connect connStr := noting (process.connect connStr) .connected
  cursor conn := noting (process.cursor conn) (.opened conn)
  execute cur text params := attempting (process.execute cur text params) (.executed cur)
  closeCursor cur := attempting (process.closeCursor cur) (.closed cur)
  close conn := noting (process.close conn) fun _ => .disconnected conn
  monotonic := beside process.monotonic
  sleep time := beside (process.sleep time)

def SessionConnector.noted (self : SessionConnector σ Connection Cursor) :
    SessionConnector (σ × List (Event Connection Cursor)) Connection Cursor where
  process := self.process.noted
  settings := self.settings

abbrev Noted (σ Connection Cursor : Type) : Type :=
  Session (σ × List (Event Connection Cursor)) Connection

/-- The notes go on from what is held to what is held then, with one cursor open before, or none,
and one after. -/
def Along (cur cur' : Option Cursor) (s s' : Noted σ Connection Cursor) : Prop :=
  ∃ more, s'.world.2 = s.world.2 ++ more ∧ Held.Path ⟨s.conn, cur⟩ more ⟨s'.conn, cur'⟩

theorem Along.refl (cur : Option Cursor) (s : Noted σ Connection Cursor) : Along cur cur s s :=
  ⟨[], by simp, .nil⟩

theorem Along.trans {cur₁ cur₂ cur₃ : Option Cursor} {s₁ s₂ s₃ : Noted σ Connection Cursor}
    (h : Along cur₁ cur₂ s₁ s₂) (h' : Along cur₂ cur₃ s₂ s₃) : Along cur₁ cur₃ s₁ s₃ := by
  obtain ⟨more, heq, hpath⟩ := h
  obtain ⟨rest, heq', hrest⟩ := h'
  exact ⟨more ++ rest, by rw [heq', heq, List.append_assoc], hpath.append hrest⟩

section noted

variable {self : SessionConnector σ Connection Cursor} {s s' : Noted σ Connection Cursor} {a : α} {w : σ}
  {e : PyError} {cur : Cursor}

theorem beside_along (held : Option Cursor) (x : Call σ α) :
    Moves (Along held held) (onWorld (beside x) : Call (Noted σ Connection Cursor) α) := by
  intro s
  unfold onWorld beside
  cases x s.world.1 <;> exact Along.refl held s

theorem noting_ok {x : Call σ α} {event : α → Event Connection Cursor} (h : x s.world.1 = .ok a w) :
    onWorld (noting x event) s = .ok a ⟨(w, s.world.2 ++ [event a]), s.conn⟩ := by
  simp only [onWorld, noting, h]

theorem noting_error {x : Call σ α} {event : α → Event Connection Cursor}
    (h : x s.world.1 = .error e w) :
    onWorld (noting x event) s = .error e ⟨(w, s.world.2), s.conn⟩ := by
  simp only [onWorld, noting, h]

/-- What the process attempts is noted whether it returns or raises. -/
theorem attempting_along {cur cur' : Option Cursor} {event : Event Connection Cursor} (x : Call σ α)
    (step : ∀ conn, Held.Step ⟨conn, cur⟩ event ⟨conn, cur'⟩) :
    Moves (Along cur cur') (onWorld (attempting x event) : Call (Noted σ Connection Cursor) α) := by
  intro s
  refine ⟨[event], ?_⟩
  simp only [onWorld, attempting, beside]
  cases x s.world.1 <;> exact ⟨rfl, (step s.conn).path⟩

/-! ### Opening and closing -/

theorem connect_along : Moves (Along none none) self.noted.connect := by
  intro s
  obtain ⟨world, conn⟩ := s
  cases conn with
  | some conn => exact Along.refl none _
  | none =>
    show Along none none _ (leaves ((onWorld (noting _ _) >>= _) _))
    cases h : self.process.connect self.settings.connStr world.1 with
    | ok conn w =>
      rw [leaves_bind_ok (noting_ok h)]
      exact ⟨[.connected conn], rfl, Held.Step.connected.path⟩
    | error e w =>
      rw [leaves_bind_error (noting_error h)]
      exact Along.refl none _

theorem close_along : Moves (Along none none) self.noted.close := by
  intro s
  obtain ⟨world, conn⟩ := s
  cases conn with
  | none => exact Along.refl none _
  | some conn =>
    show Along none none _ (leaves ((onWorld (noting _ _) >>= _) _))
    cases h : self.process.close conn world.1 with
    | ok _ w =>
      rw [leaves_bind_ok (noting_ok h)]
      exact ⟨[.disconnected conn], rfl, Held.Step.disconnected.path⟩
    | error e w =>
      rw [leaves_bind_error (noting_error h)]
      exact Along.refl none _

/-- A connection is there once connecting has returned. -/
theorem connect_keeps {self : SessionConnector τ Connection Cursor} {s s' : Session τ Connection}
    (h : self.connect s = .ok () s') : ∃ conn, s'.conn = some conn := by
  obtain ⟨world, conn⟩ := s
  cases conn with
  | some conn =>
    cases h
    exact ⟨conn, rfl⟩
  | none =>
    have hopens : (onWorld (self.process.connect self.settings.connStr) >>= fun conn =>
        modify fun s => { s with conn := some conn }) ⟨world, none⟩ = .ok () s' := h
    obtain ⟨conn, s₁, -, hkeeps⟩ := bind_ok.mp hopens
    cases hkeeps
    exact ⟨conn, rfl⟩

/-- Connecting that raises connects to nothing. -/
theorem connect_raises {self : SessionConnector τ Connection Cursor} {s s' : Session τ Connection}
    (h : self.connect s = .error e s') : s'.conn = none ∧
      self.process.connect self.settings.connStr s.world = .error e s'.world := by
  obtain ⟨world, conn⟩ := s
  cases conn with
  | some conn => cases h
  | none =>
    have hopens : (onWorld (self.process.connect self.settings.connStr) >>= fun conn =>
        modify fun s => { s with conn := some conn }) ⟨world, none⟩ = .error e s' := h
    rcases bind_error.mp hopens with hraises | ⟨conn, s₁, -, hkeeps⟩
    · simp only [onWorld] at hraises
      cases hconnect : self.process.connect self.settings.connStr world with
      | ok conn w => simp [hconnect] at hraises
      | error e' w =>
        simp only [hconnect] at hraises
        cases hraises
        exact ⟨rfl, rfl⟩
    · cases hkeeps

/-- A cursor is asked for on the connection that is kept. -/
theorem cursor_eq {self : SessionConnector τ Connection Cursor} {s s₁ : Session τ Connection}
    (h : self.connect s = .ok () s₁) : ∃ conn, s₁.conn = some conn ∧
      self.cursor s = onWorld (self.process.cursor conn) s₁ := by
  obtain ⟨conn, hconn⟩ := connect_keeps h
  refine ⟨conn, hconn, ?_⟩
  show EStateM.bind self.connect _ s = _
  rw [EStateM.bind, h]
  obtain ⟨world, _⟩ := s₁
  cases hconn
  rfl

theorem cursor_along (h : self.noted.cursor s = .ok cur s') : Along none (some cur) s s' := by
  obtain ⟨_, s₁, hconnect, -⟩ := bind_ok.mp h
  refine (connect_along.ok hconnect).trans ?_
  obtain ⟨conn, hconn, heq⟩ := cursor_eq hconnect
  rw [heq] at h
  obtain ⟨world, _⟩ := s₁
  cases hconn
  cases hopens : self.process.cursor conn world.1 with
  | ok _ w =>
    cases (noting_ok hopens).symm.trans h
    exact ⟨[.opened conn cur], rfl, Held.Step.opened.path⟩
  | error e w => cases (noting_error hopens).symm.trans h

theorem cursor_fails (h : self.noted.cursor s = .error e s') : Along none none s s' := by
  cases hconnect : self.noted.connect s with
  | error e₁ s₁ =>
    have hfails : leaves (self.noted.cursor s) = s₁ := leaves_bind_error hconnect
    have heq : s' = s₁ := by rwa [h] at hfails
    exact heq ▸ connect_along.error hconnect
  | ok _ s₁ =>
    refine (connect_along.ok hconnect).trans ?_
    obtain ⟨conn, hconn, heq⟩ := cursor_eq hconnect
    rw [heq] at h
    cases hopens : self.process.cursor conn s₁.world.1 with
    | ok _ w => cases (noting_ok hopens).symm.trans h
    | error e w =>
      cases (noting_error hopens).symm.trans h
      exact Along.refl none _


/-- What comes after a call, whether that returns or raises. -/
theorem leaves_finally (x : Call τ α) (done : Call τ Unit) (w : τ) :
    leaves (tryFinally x done w) = leaves (done (leaves (x w))) := by
  show leaves (EStateM.map Prod.fst (tryFinally' x fun _ => done) w) = _
  unfold EStateM.map
  simp only [tryFinally']
  cases hx : x w with
  | ok a w₁ => cases hdone : done w₁ <;> simp only [leaves, hdone]
  | error e w₁ => cases hdone : done w₁ <;> simp only [leaves, hdone]

/-- **A cursor is closed again**, whatever is done on it. -/
theorem openCursor_along {body : Cursor → Call (Noted σ Connection Cursor) α}
    (hbody : ∀ cur, Moves (Along (some cur) (some cur)) (body cur)) :
    Moves (Along none none) (self.noted.openCursor body) := by
  intro s
  cases h : self.noted.cursor s with
  | error e s₁ =>
    have hleaves : leaves (self.noted.openCursor body s) = s₁ := leaves_bind_error h
    rw [hleaves]
    exact cursor_fails h
  | ok cur s₁ =>
    have hleaves : leaves (self.noted.openCursor body s) = _ :=
      (leaves_bind_ok h).trans (leaves_finally _ _ s₁)
    rw [hleaves]
    exact (cursor_along h).trans ((hbody cur s₁).trans (attempting_along _ (fun _ => .closed) _))

theorem onCursor_along (cur : Cursor) :
    DriverMoves (fun _ => True) (Along (some cur) (some cur)) (self.noted.onCursor cur) where
  refl := Along.refl (some cur)
  trans := Along.trans
  execute _ := attempting_along _ fun _ => .executed
  monotonic := beside_along (some cur) _
  sleep _ := beside_along (some cur) _

theorem statements_along : DriverMoves (fun _ => True) (Along none none) self.noted.statements where
  refl := Along.refl none
  trans := Along.trans
  execute _ := openCursor_along fun _ => attempting_along _ fun _ => .executed
  monotonic := beside_along none _
  sleep _ := beside_along none _

theorem inspect_along (schema table captureSchema : String) :
    Moves (Along none none) (self.noted.inspect schema table captureSchema) := by
  have hnone : DriverMoves (fun _ => True) (Along none none) self.noted.statements := statements_along
  exact hnone.bind (openCursor_along fun cur =>
    (onCursor_along cur).readCatalogue trivial trivial trivial fun _ _ => trivial) fun _ => hnone.ofExcept _

theorem awaitWatermark_along (mark : Datetime) : Moves (Along none none)
    (self.noted.awaitWatermark mark) := by
  have hnone : DriverMoves (fun _ => True) (Along none none) self.noted.statements := statements_along
  refine hnone.bind (beside_along none _) fun started =>
    hnone.bind (openCursor_along fun cur => (onCursor_along cur).awaitLoop trivial _ _) fun passed => ?_
  split_ifs
  · exact hnone.pure _
  · exact hnone.throw _

theorem source_along : Moving (Along none none) self.noted.source :=
  { (statements_along.mono fun _ _ => trivial).moving_source with
    inspect := fun schema table => inspect_along schema table "cdc"
    awaitWatermark := awaitWatermark_along }

theorem within_along {body : Call (Noted σ Connection Cursor) α} (hbody : Moves (Along none none) body) :
    Moves (Along none none) (self.noted.within body) := by
  intro s
  cases h : self.noted.connect s with
  | error e s₁ =>
    have hleaves : leaves (self.noted.within body s) = s₁ := leaves_bind_error h
    rw [hleaves]
    exact connect_along.error h
  | ok _ s₁ =>
    have hleaves : leaves (self.noted.within body s) = _ :=
      (leaves_bind_ok h).trans (leaves_finally _ _ s₁)
    rw [hleaves]
    exact (connect_along.ok h).trans ((hbody s₁).trans (close_along _))

end noted

/-! ### Whatever a caller does -/

/-- What a caller asks the connector for, or the library on it. -/
inductive Operation
  | connect
  | close
  | getMinLsn (captureInstance : String)
  | getMaxLsn
  | inspect (schema table captureSchema : String)
  | readEventLog (spec : TableSpec) (fromLsn toLsn : LSN)
  | watermark
  | awaitWatermark (mark : Datetime)
  | mapLsnToTimestamp (lsn : LSN)
  | readTable (spec : TableSpec) (startPk endPk : Option ℤ) (limit : ℤ)
  | readPkRange (spec : TableSpec)
  | stateAtLsn (now : ℤ) (schema table : String) (fromLsn : LSN) (dumpDone : Bool)
  | dblog (now : ℤ) (schema table : String) (state : Option RunState) (chunkSize : ℤ)
      (inspectEvery : Option Timedelta)

/-- What an operation leaves of a session, returning or raising. -/
def Operation.leavesFrom (self : SessionConnector σ Connection Cursor) (s : Session σ Connection) :
    Operation → Session σ Connection
  | .connect => leaves (self.connect s)
  | .close => leaves (self.close s)
  | .getMinLsn captureInstance => leaves (self.statements.getMinLsn captureInstance s)
  | .getMaxLsn => leaves (self.statements.getMaxLsn s)
  | .inspect schema table captureSchema => leaves (self.inspect schema table captureSchema s)
  | .readEventLog spec fromLsn toLsn => leaves (self.statements.readEventLog spec fromLsn toLsn s)
  | .watermark => leaves (self.statements.watermark s)
  | .awaitWatermark mark => leaves (self.awaitWatermark mark s)
  | .mapLsnToTimestamp lsn => leaves (self.statements.mapLsnToTimestamp lsn s)
  | .readTable spec startPk endPk limit => leaves (self.statements.readTable spec startPk endPk limit s)
  | .readPkRange spec => leaves (self.statements.readPkRange spec s)
  | .stateAtLsn now schema table fromLsn dumpDone =>
    leaves (Model.DBLog.stateAtLsn self.source now schema table fromLsn dumpDone s)
  | .dblog now schema table state chunkSize inspectEvery =>
    leaves (Model.DBLog.dblog self.source now schema table state chunkSize inspectEvery s)

/-- What a caller leaves who goes on after each exception. -/
def uses (self : SessionConnector σ Connection Cursor) (s : Session σ Connection)
    (ops : List Operation) :
    Session σ Connection := ops.foldl (Operation.leavesFrom self) s

theorem Operation.along (self : SessionConnector σ Connection Cursor) (op : Operation)
    (s : Noted σ Connection Cursor) : Along none none s (op.leavesFrom self.noted s) := by
  have hstatements : DriverMoves (fun _ => True) (Along none none) self.noted.statements := statements_along
  have hsource : Moving (Along none none) self.noted.source := source_along
  cases op with
  | connect => exact connect_along s
  | close => exact close_along s
  | getMinLsn captureInstance => exact hstatements.getMinLsn trivial s
  | getMaxLsn => exact hstatements.getMaxLsn trivial s
  | inspect schema table captureSchema => exact inspect_along schema table captureSchema s
  | readEventLog spec fromLsn toLsn => exact hstatements.readEventLog (fun _ => trivial) s
  | watermark => exact hstatements.watermark trivial s
  | awaitWatermark mark => exact awaitWatermark_along mark s
  | mapLsnToTimestamp lsn => exact hstatements.mapLsnToTimestamp trivial s
  | readTable spec startPk endPk limit => exact hstatements.readTable (fun _ => trivial) s
  | readPkRange spec => exact hstatements.readPkRange (fun _ => trivial) s
  | stateAtLsn now schema table fromLsn dumpDone =>
      exact hsource.stateAtLsn now schema table fromLsn dumpDone s
  | dblog now schema table state chunkSize inspectEvery =>
    exact hsource.dblog now schema table state chunkSize inspectEvery s

theorem uses_along (self : SessionConnector σ Connection Cursor) (ops : List Operation)
    (s : Noted σ Connection Cursor) : Along none none s (uses self.noted s ops) := by
  induction ops generalizing s with
  | nil => exact Along.refl none s
  | cons op ops ih => exact (op.along self s).trans (ih _)

/-! ### A `with` block -/

/-- A `with` block on the connector, that ends with its operations done or is left by an
exception. -/
def block (self : SessionConnector σ Connection Cursor) (ops : List Operation)
    (raised : Option PyError) :
    Call (Session σ Connection) Unit :=
  self.within fun s => raised.elim (.ok () (uses self s ops)) fun e => .error e (uses self s ops)

theorem leaves_block_body (self : SessionConnector σ Connection Cursor) (ops : List Operation)
    (raised : Option PyError) (s : Session σ Connection) :
    leaves (raised.elim (.ok () (uses self s ops)) fun e => .error e (uses self s ops) :
      EStateM.Result PyError _ Unit) = uses self s ops := by
  cases raised <;> rfl

/-- Every connection is closed without an exception. -/
def Closes (process : Process σ Connection Cursor) : Prop :=
  ∀ conn w, ∃ w', process.close conn w = .ok () w'

theorem close_disconnects {self : SessionConnector σ Connection Cursor} (h : Closes self.process)
    (s : Session σ Connection) : (leaves (self.close s)).conn = none := by
  obtain ⟨world, conn⟩ := s
  cases conn with
  | none => rfl
  | some conn =>
    obtain ⟨w, hclose⟩ := h conn world
    have hworld : onWorld (self.process.close conn) ⟨world, some conn⟩ = .ok () ⟨w, some conn⟩ := by
      simp only [onWorld, hclose]
    show (leaves ((onWorld (self.process.close conn) >>= _) _)).conn = none
    rw [leaves_bind_ok hworld]
    rfl

/-- A block leaves no connection behind. -/
theorem within_disconnects {self : SessionConnector σ Connection Cursor} (h : Closes self.process)
    (body : Call (Session σ Connection) α) (s : Session σ Connection) :
    (leaves (self.within body s)).conn = none := by
  cases hconnect : self.connect s with
  | error e s₁ =>
    have hleaves : leaves (self.within body s) = s₁ := leaves_bind_error hconnect
    rw [hleaves]
    exact (connect_raises hconnect).1
  | ok _ s₁ =>
    have hleaves : leaves (self.within body s) = _ :=
      (leaves_bind_ok hconnect).trans (leaves_finally _ _ s₁)
    rw [hleaves]
    exact close_disconnects h _

/-- **No handle leaks**, whatever the process raises, and wherever. A caller who does any operations
with a connector, going on after each exception, has had one connection at a time and one cursor at a
time, each asked to close before the next one is opened and none used but the open one, and is left
with no cursor; and a `with` block, ended or left by an exception, leaves no connection either where
closing one does not raise. A cursor whose close raises is noted as closed: it is not used again. -/
theorem handles_returned (self : SessionConnector σ Connection Cursor) (ops : List Operation)
    (raised : Option PyError) (w : σ) :
    Held.Path ⟨none, none⟩ (uses self.noted ⟨(w, []), none⟩ ops).world.2
        ⟨(uses self.noted ⟨(w, []), none⟩ ops).conn, none⟩ ∧
      (Closes self.process →
        Held.Path ⟨none, none⟩ (leaves (block self.noted ops raised ⟨(w, []), none⟩)).world.2
          ⟨none, none⟩) := by
  constructor
  · obtain ⟨more, hnotes, hpath⟩ := uses_along self ops ⟨(w, []), none⟩
    rw [hnotes]
    exact hpath
  · intro hcloses
    have hnoted : Closes self.noted.process := fun conn w => by
      obtain ⟨w', hclose⟩ := hcloses conn w.1
      exact ⟨(w', w.2 ++ [.disconnected conn]), by simp only [SessionConnector.noted, Process.noted,
        noting, hclose]⟩
    have hblock : Moves (Along none none) (block self.noted ops raised) := within_along fun s => by
      rw [leaves_block_body]
      exact uses_along self ops s
    obtain ⟨more, hnotes, hpath⟩ := hblock ⟨(w, []), none⟩
    rw [hnotes]
    have hconn : (leaves (block self.noted ops raised ⟨(w, []), none⟩)).conn = none :=
      within_disconnects hnoted _ _
    rwa [hconn] at hpath

/-! ### A process with a table of cursors -/

/-- The cursors that are open on a server, and how many of the next ones it refuses. -/
structure Desk where
  cursors : List ℕ
  refusals : ℕ

/-- A process on a server, which numbers the cursors it hands out, keeps those that are open and
refuses any other. -/
def tabled (plain : MSSQLConnector σ) : Process (σ × Desk) Unit ℕ where
  connect _ := return ()
  cursor _ := fun (w, desk) =>
    match desk.refusals with
    | 0 => .ok desk.cursors.length (w, { desk with cursors := desk.cursors.length :: desk.cursors })
    | refusals + 1 => .error (.driverError "no cursor") (w, { desk with refusals := refusals })
  execute cur text params := fun w =>
    if cur ∈ w.2.cursors then beside (plain.execute text params) w
      else .error (.driverError "the cursor is closed") w
  closeCursor cur := fun (w, desk) =>
    if cur ∈ desk.cursors then .ok () (w, { desk with cursors := desk.cursors.erase cur })
      else .error (.driverError "the cursor is closed") (w, desk)
  close _ := return ()
  monotonic := beside plain.monotonic
  sleep time := beside (plain.sleep time)

/-- A connector with the settings of another, over such a process. -/
def tabledConnector (plain : MSSQLConnector σ) : SessionConnector (σ × Desk) Unit ℕ where
  process := tabled plain
  settings :=
    { host := "localhost", user := "sa", password := "", database := "dblog_lab", port := "1433",
      encrypt := "yes", trustServerCertificate := "yes", lib := plain.lib,
      pagination := plain.pagination,
      watermarkTimeout := plain.watermarkTimeout, watermarkPoll := plain.watermarkPoll,
      maxPolls := plain.maxPolls, isoformat := plain.isoformat, seconds := plain.seconds }

theorem tabled_closes (plain : MSSQLConnector σ) : Closes (tabled plain) := fun _ w => ⟨w, rfl⟩

/-- Three questions to a server that has no answer: the first is refused its cursor, the others are
asked. -/
def threeAsked : Session ((Unit × Desk) × List (Event Unit ℕ)) Unit :=
  uses (tabledConnector (serverOf fun query _ => throw (.driverError query))).noted
    ⟨(((), ⟨[], 1⟩), []), none⟩ [.getMaxLsn, .inspect "dbo" "items" "cdc", .watermark]

example : threeAsked.world.2 = [.connected (), .opened () 0, .executed 0, .closed 0, .opened () 0,
    .executed 0, .closed 0] := rfl

theorem handles_returned_three : Held.Path ⟨none, none⟩ threeAsked.world.2 ⟨threeAsked.conn, none⟩ ∧
    Held.Path ⟨none, none⟩ (leaves (block
      (tabledConnector (serverOf fun query _ => throw (.driverError query))).noted
      [.getMaxLsn, .watermark] (some (.valueError "")) ⟨(((), ⟨[], 1⟩), []), none⟩)).world.2 ⟨none, none⟩ :=
  ⟨(handles_returned _ _ none _).1, (handles_returned _ _ _ _).2 (tabled_closes _)⟩

end PyDBLog.Mssql.Handles
