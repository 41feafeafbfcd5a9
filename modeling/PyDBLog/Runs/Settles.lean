import PyDBLog.Mssql.Refresh
import PyDBLog.Runs.Backfill
import PyDBLog.Runs.CaughtUp
import PyDBLog.Runs.LoopOnServer

/-! # The consumer loop comes to rest

The first loop of the README as the program it is (`consume`), from any configuration its steps can
reach. Once the server has reported all it ever will, a state it refuses is refused in a way the
loop catches, every call that returns leaves the log behind it, a call on a walked state with the
log behind it has no frame, and a call that has no frame has walked the table. So the loop breaks
within the width of the key space, and the map is the table as it is (`consumer_settles`). -/

namespace PyDBLog.Runs.Settles

open PyDBLog.Model.Python PyDBLog.Model.Frame PyDBLog.Model.Types PyDBLog.Model.Connector
open PyDBLog.Model.DBLog PyDBLog.Model.Returns PyDBLog.Model.Worlds PyDBLog.Model.Raises
open PyDBLog.Mssql PyDBLog.Mssql.Connector PyDBLog.Mssql.Driver PyDBLog.Mssql.Server
  PyDBLog.Mssql.Answering
open PyDBLog.Replay.Basic PyDBLog.Replay.Cut PyDBLog.Replay.Dump
open PyDBLog.World.Log PyDBLog.World.Log.Source PyDBLog.World.Promises
open PyDBLog.Runs.Window PyDBLog.Runs.Calls PyDBLog.Runs.Page PyDBLog.Runs.Consumer
  PyDBLog.Runs.Reconstructs
open PyDBLog.Runs.Progress PyDBLog.Runs.CaughtUp PyDBLog.Runs.Recovery PyDBLog.Runs.OnServer
  PyDBLog.Runs.Backfill
open PyDBLog.Runs.LoopOnServer

variable {σ V : Type}

/-! ### The loop -/

/-- The `try` of the loop: none where it raises what the loop catches. -/
def attempt (call : Call σ BatchResult) : Call σ (Option BatchResult) := fun w =>
  match call w with
  | .ok b w' => .ok (some b) w'
  | .error e w' => if caught e then .ok none w' else .error e w'

/-- `while True` of the loop, at most `calls` times round: whether it broke, the state it saved
last, and the frames it wrote. -/
def consume (connector : SourceConnector σ) (schema table : String) (chunkSize : ℤ)
    (inspectEvery : Option Timedelta) (now : ℕ → ℤ) :
    ℕ → Option RunState → Call σ (Bool × Option RunState × List DataFrame)
  | 0, state => return (false, state, [])
  | calls + 1, state => do
    let result ← attempt (dblog connector (now calls) schema table state chunkSize inspectEvery)
    match result with
    | none => consume connector schema table chunkSize inspectEvery now calls none
    | some result =>
      if result.frame = none then return (true, some result.state, [])
      else
        let (broke, last, frames) ←
          consume connector schema table chunkSize inspectEvery now calls (some result.state)
        return (broke, last, result.frame.toList ++ frames)

section loop

variable {C : SourceConnector σ} {schema table : String} {c : ℤ} {inspectEvery : Option Timedelta}
  {now : ℕ → ℤ} {calls : ℕ} {state : Option RunState} {b : BatchResult} {w w₁ w' : σ}

theorem attempt_ok {call : Call σ BatchResult} (h : call w = .ok b w₁) :
    attempt call w = .ok (some b) w₁ := by
  unfold attempt
  rw [h]

theorem attempt_caught {call : Call σ BatchResult} {e : PyError} (h : call w = .error e w₁)
    (he : caught e = true) : attempt call w = .ok none w₁ := by
  unfold attempt
  rw [h]
  exact if_pos he

/-- The loop starts over off a call it catches. -/
theorem consume_recovers {e : PyError}
    (raised : dblog C (now calls) schema table state c inspectEvery w = .error e w₁)
    (he : caught e = true) : consume C schema table c inspectEvery now (calls + 1) state w =
      consume C schema table c inspectEvery now calls none w₁ := by
  rw [consume]
  show EStateM.bind _ _ w = _
  rw [EStateM.bind, attempt_caught raised he]

/-- The loop breaks off a call with no frame. -/
theorem consume_breaks
    (returned : dblog C (now calls) schema table state c inspectEvery w = .ok b w₁)
    (hframe : b.frame = none) :
    consume C schema table c inspectEvery now (calls + 1) state w = .ok (true, some b.state, []) w₁ := by
  refine bind_ok.mpr ⟨some b, w₁, attempt_ok returned, ?_⟩
  dsimp only
  rw [if_pos hframe]
  exact pure_ok.mpr ⟨rfl, rfl⟩

/-- And goes on from any other with what it handed back. -/
theorem consume_goesOn {broke : Bool} {last : Option RunState} {more : List DataFrame}
    (returned : dblog C (now calls) schema table state c inspectEvery w = .ok b w₁)
    (hframe : b.frame ≠ none)
    (hrest : consume C schema table c inspectEvery now calls (some b.state) w₁ =
      .ok (broke, last, more) w') :
    consume C schema table c inspectEvery now (calls + 1) state w =
      .ok (broke, last, b.frame.toList ++ more) w' := by
  refine bind_ok.mpr ⟨some b, w₁, attempt_ok returned, ?_⟩
  dsimp only
  rw [if_neg hframe]
  exact bind_ok.mpr ⟨_, w', hrest, pure_ok.mpr ⟨rfl, rfl⟩⟩

end loop

/-! ### A call on a source that has reported all -/

section call

variable {R : σ → σ → Prop} {C : SourceConnector σ} {now chunkSize : ℤ} {schema table : String}
  {inspectEvery : Option Timedelta} {state : Option RunState} {opened : RunState} {rows : List Row}
  {high : LSN} {window : Option DataFrame} {b : BatchResult} {w w' : σ}

/-- Every call closes its window at a position it asks for on the way. -/
theorem BatchRead.closes (hC : Moving R C)
    (h : BatchRead C now schema table chunkSize inspectEvery state w opened rows high window b w') :
    ∃ st w₁ w₂, R w w₁ ∧ WindowRead C st w₁ high window b.state w₂ := by
  have hopen : ∀ {w₁}, openRun C now schema table state inspectEvery w = .ok opened w₁ → R w w₁ :=
    fun ho => (hC.openRun _ _ _ _ _).ok ho
  have hbracket : ∀ {low mark page w₁ w₂ w₃ w₄ w₅}, R w w₁ → C.watermark w₁ = .ok low w₂ →
      nextChunk C opened chunkSize w₂ = .ok page w₃ → C.watermark w₃ = .ok mark w₄ →
      C.awaitWatermark mark w₄ = .ok () w₅ → R w w₅ := by
    intro low mark page w₁ w₂ w₃ w₄ w₅ h1 hlow hp hmark ha
    have h2 := hC.trans h1 (hC.watermark.ok hlow)
    have h3 := hC.trans h2 ((hC.nextChunk _ _).ok hp)
    have h4 := hC.trans h3 (hC.watermark.ok hmark)
    exact hC.trans h4 ((hC.awaitWatermark _).ok ha)
  cases h with
  | tail ho hdone hw => exact ⟨_, _, _, hopen ho, hw⟩
  | last ho hwalking hlow hp hmark ha hw =>
    exact ⟨_, _, _, hbracket (hopen ho) hlow (nextChunk_ok.mpr ⟨_, hp⟩) hmark ha, hw⟩
  | chunk ho hwalking hlow hp hmark ha hw hmerge =>
    exact ⟨_, _, _, hbracket (hopen ho) hlow (nextChunk_ok.mpr ⟨_, hp⟩) hmark ha, hw⟩

/-- A call that has no frame has walked the table. -/
theorem BatchRead.walked_of_none (hc : 1 ≤ chunkSize)
    (h : BatchRead C now schema table chunkSize inspectEvery state w opened rows high window b w')
    (hframe : b.frame = none) : b.state.dumpDone = true := by
  have hread := h
  cases h with
  | tail => exact BatchRead.walked hc hread
  | last => exact BatchRead.walked hc hread
  | chunk => cases hframe

/-- A window over SQL Server is closed at the position the server reported, below the one it hands
back. -/
theorem WindowRead.reported {conn : MSSQLConnector σ} {st st' : RunState}
    (h : WindowRead conn.source st w high window st' w') :
    (∃ w₁, conn.getMaxLsn w = .ok high w₁) ∧ high < st'.lastLsn := by
  cases h with
  | past hm hlt => exact ⟨⟨_, hm⟩, hlt⟩
  | read hm hle he hn =>
    obtain ⟨hn, -⟩ := ofExcept_ok.mp hn
    obtain ⟨hlength, hsucc⟩ := MSSQLConnector.incrementLsn_ok.mp hn
    exact ⟨⟨_, hm⟩, Bytes.BigEndian.lt_succ hlength hsucc⟩

end call

variable [LinearOrder V] {db : Database σ V} {conn : MSSQLConnector σ} {spec : TableSpec}
  {captureInstance : String} {floor : LSN} {Q : σ → Prop} {lo hi c : ℤ} {inspectEvery : Option Timedelta}
  {now : ℕ → ℤ} {w w' : σ} {req : Request} {b : BatchResult} {st : RunState}

/-- **All is reported**: in the worlds of `Q` no change of the table is above the position the
server reports, and what the connector does leaves the table as it is. -/
structure Settled (db : Database σ V) (conn : MSSQLConnector σ) (Q : σ → Prop) : Prop where
  reported : ∀ w, Q w → ∀ ch ∈ (db.view w).changes, ch.startLsn ≤ (db.view w).mark
  still : DriverMoves (Sends conn.pagination)
    (fun w w' => Q w → Q w' ∧ (db.view w').changes = (db.view w).changes) conn

/-- The log of the table lies behind the state. -/
def Behind (db : Database σ V) (w : σ) (st : RunState) : Prop :=
  ∀ ch ∈ (db.view w).changes, ch.startLsn < st.lastLsn

/-- A call leaves the log behind it. -/
theorem call_behind (h : Serves db conn) (hs : Settled db conn Q) (hw : Q w)
    (returned : (interleaved db conn).call req w = .ok b w') :
    (Q w' ∧ (db.view w').changes = (db.view w).changes) ∧ Behind db w' b.state := by
  have hmoves := hs.still.moving_source
  have hquiet := Driver.returned_moves (d := interleaved db conn) hmoves returned hw
  obtain ⟨-, opened, rows, high, window, hr⟩ := Driver.call_ok.mp returned
  obtain ⟨st, w₁, w₂, hmoved, hclose⟩ := BatchRead.closes hmoves hr
  obtain ⟨h1, hsame⟩ := hmoved hw
  obtain ⟨⟨w₃, hmax⟩, hlt⟩ := WindowRead.reported hclose
  obtain ⟨s, hs', -, rfl⟩ := h.getMaxLsn_ok hmax
  refine ⟨hquiet, fun ch hch => ?_⟩
  have hch : ch ∈ (db.view w₁).changes := by rw [hsame, ← hquiet.2]; exact hch
  have hle : ch.startLsn ≤ s.mark := (hs.reported w₁ h1 ch hch).trans hs'.1.mark_le
  exact hle.trans_lt hlt

/-- A call, taken apart over the source that is read under right specs alone. -/
theorem call_reads (h : Serves db conn) (hstate : ∀ st ∈ req.state, db.Right st.spec)
    (returned : (interleaved db conn).call req w = .ok b w') : ∃ opened w₁ rows high window,
      1 ≤ req.chunkSize ∧ (interleaved db conn).opens req w = .ok opened w₁ ∧
      (under db.Right (interleaved db conn)).Reads req w opened rows high window b w' ∧
      db.target.Describes opened.spec ∧ b.state.spec = opened.spec ∧
      ∀ st ∈ req.state, opened.lastLsn = st.lastLsn ∧ opened.chunkKey = st.chunkKey ∧
        opened.dumpDone = st.dumpDone := by
  have hopens : OpensUnder db.Right (interleaved db conn) := opens_right h rfl rfl
  have hlaws : LogLaws (under db.Right (interleaved db conn)).connector db.view db.target :=
    (laws_guarded h).toLogLaws
  have hguarded := (call_under hopens hstate).trans returned
  obtain ⟨hc, opened, rows, high, window, hr⟩ := Driver.call_ok.mp hguarded
  obtain ⟨w₁, ho⟩ := Driver.Reads.opens hr
  have hd := (hopens _ _ _ _ hstate ho).describes
  refine ⟨opened, w₁, rows, high, window, hc, ho, hr, hd, (BatchRead.window hlaws hd hr).2,
    fun st hst => ?_⟩
  obtain ⟨opened', _, _, _, _, -, ho', -, -, hsame⟩ :=
    Driver.carried (d := under db.Right (interleaved db conn))
      hlaws (hstate st hst).describes hst hguarded
  rw [ho] at ho'
  cases ho'
  exact hsame

/-- A call on a walked state that has the log behind it has no frame. -/
theorem call_idle (h : Serves db conn) (hst : db.Right st.spec) (given : req.state = some st)
    (hdone : st.dumpDone = true) (hbehind : Behind db w' st)
    (returned : (interleaved db conn).call req w = .ok b w') : b.frame = none := by
  have hlaws : LogLaws (under db.Right (interleaved db conn)).connector db.view db.target :=
    (laws_guarded h).toLogLaws
  obtain ⟨opened, w₁, rows, high, window, -, ho, hr, hd, -, hcarried⟩ :=
    call_reads h (given_some given hst) returned
  obtain ⟨hlsn, -, hwalked⟩ := hcarried st given
  have hsegment : (db.view w').segment opened.lastLsn b.state.lastLsn = [] := by
    refine List.filter_eq_nil_iff.mpr fun ch hch hin => ?_
    have hle := (of_decide_eq_true hin).1
    rw [hlsn] at hle
    exact absurd (hbehind ch hch) (not_lt.mpr hle)
  have hcarries := (BatchRead.window hlaws hd hr).1.carries
  rw [hsegment] at hcarries
  have hrows : windowRows window = [] := HasRows.rows hcarries
  obtain ⟨-, opened', rows', high', window', hr'⟩ := Driver.call_ok.mp returned
  obtain rfl := Driver.Reads.opened_eq hr' ho
  have hne := BatchRead.window_nonempty rfl hr'
  have hdone' := hwalked.trans hdone
  cases hr with
  | last _ hwalking => rw [hdone'] at hwalking; cases hwalking
  | chunk _ hwalking => rw [hdone'] at hwalking; cases hwalking
  | tail _ _ _ =>
    cases hr' with
    | last _ hwalking => rw [hdone'] at hwalking; cases hwalking
    | chunk _ hwalking => rw [hdone'] at hwalking; cases hwalking
    | tail _ _ _ =>
      cases window with
      | none => rfl
      | some df => exact absurd hrows (hne df rfl)

/-- One page of a walk from anywhere takes up the room of its rows. -/
theorem Advance.spent {opened : RunState} {rows : List Row} {dumped : List ℤ}
    (h : Advance (Set.Icc lo hi) c opened st rows dumped) : Spent lo hi c 1 st := by
  cases h with
  | ended _ hdone => exact Or.inl hdone
  | paged hwalking hpage hlen hin hkey hfull hsub =>
    rename_i keys key
    by_cases hdone : st.dumpDone = true
    · exact Or.inl hdone
    have hlast := (hin _ hpage.last).2
    have hroom := hpage.room fun k hk => (hin k hk).1
    have hlength := hfull (eq_false_of_ne_true hdone)
    exact Or.inr ⟨key, hkey, by push_cast; omega, by omega⟩

/-- A call takes one page of the walk. -/
theorem call_spent (h : Serves db conn) (hkeys : KeysIn db lo hi) (size : req.chunkSize = c)
    (hstate : ∀ st ∈ req.state, db.Right st.spec)
    (returned : (interleaved db conn).call req w = .ok b w') :
    Spent lo hi c 1 b.state ∧ ∀ st ∈ req.state, ∀ n, Spent lo hi c n st →
      Spent lo hi c (n + 1) b.state := by
  have hlaws : LogLaws (under db.Right (interleaved db conn)).connector db.view db.target :=
    (laws_guarded h).toLogLaws
  obtain ⟨name, hname⟩ := db.single_key
  obtain ⟨opened, w₁, rows, high, window, hc, -, hr, hd, -, hcarried⟩ := call_reads h hstate returned
  obtain ⟨-, hdone, hadvance⟩ := BatchRead.advance hlaws hname (pagesIn h hkeys) hd hc hr
  rw [size] at hadvance
  refine ⟨Advance.spent hadvance, fun st hst n hspent => ?_⟩
  obtain ⟨-, hkey, hwalked⟩ := hcarried st hst
  refine Spent.call (Or.inl ?_) subset_rfl le_rfl hdone hadvance
  rw [Spent, hkey, hwalked]
  exact hspent

/-- The table is what its changes make it. -/
theorem content_still {w₁ w₂ : σ} (h : (db.view w₁).changes = (db.view w₂).changes) :
    (db.view w₁).content db.init db.target = (db.view w₂).content db.init db.target := by
  rw [Source.content, Source.entries, h]
  rfl

/-- The table at a position above the whole log is the table. -/
theorem tableAt_behind (h : Behind db w st) :
    tableAt db.init ((db.view w).entries db.target) st.lastLsn =
      (db.view w).content db.init db.target := by
  have hbelow : ∀ e ∈ (db.view w).entries db.target, e.pos < st.lastLsn := by
    intro e he
    obtain ⟨ch, hch, rfl⟩ := List.mem_map.mp he
    exact h ch hch
  rw [tableAt, below_of_forall_lt hbelow, Source.content]

/-! ### The loop on such a source -/

theorem applyFrames_append (t : Target) (m : Table ℤ Image) (frames more : List DataFrame) :
    applyFrames t m (frames ++ more) = applyFrames t (applyFrames t m frames) more := by
  rw [applyFrames, List.foldl_append]
  rfl

/-- **What turns of the loop do**: from one reachable configuration to another that has saved a
state with the log behind it, the frames written meanwhile. -/
structure Turned (db : Database σ V) (conn : MSSQLConnector σ) (c₀ : Config σ) (held : Option Held)
    (more : List DataFrame) (o : Origin LSN ℤ Image) (b : BatchResult) (c₁ : Config σ) : Prop where
  reachable : Reachable (interleaved db conn) c₁
  phase : c₁.phase = .stored o b
  map : c₁.map = applyFrames db.target c₀.map more
  behind : Behind db c₁.world b.state
  still : (db.view c₁.world).changes = (db.view c₀.world).changes
  origin : held = none ∧ o.held = c₀.map ∨ ∃ x ∈ held, o = x.1

/-- One turn. -/
theorem Turned.once (h : Serves db conn) (hs : Settled db conn Q) {c₀ : Config σ} {held : Option Held}
    (reachable : Reachable (interleaved db conn) c₀) (phase : c₀.phase = .looping held) (hw : Q c₀.world)
    (given : req.state = held.map Prod.snd)
    (returned : (interleaved db conn).call req c₀.world = .ok b w') :
    ∃ o c₁, c₁.world = w' ∧ Turned db conn c₀ held b.frame.toList o b c₁ := by
  obtain ⟨⟨-, hsame⟩, hbehind⟩ := call_behind h hs hw returned
  have hmap : applyFrame db.target c₀.map b.frame = applyFrames db.target c₀.map b.frame.toList :=
    (applyFrames_append_toList db.target c₀.map [] b.frame).symm
  cases held with
  | none =>
    obtain ⟨-, opened, rows, high, window, hr⟩ := Driver.call_ok.mp returned
    obtain ⟨w₁, ho⟩ := Driver.Reads.opens hr
    have received := reachable.step (.seeds phase given ho returned)
    have written := received.step (.writes rfl)
    exact ⟨_, _, rfl, written.step (.saves rfl), rfl, hmap, hbehind, hsame, Or.inl ⟨rfl, rfl⟩⟩
  | some x =>
    have received := reachable.step (.continues phase given returned)
    have written := received.step (.writes rfl)
    exact ⟨_, _, rfl, written.step (.saves rfl), rfl, hmap, hbehind, hsame, Or.inr ⟨x, rfl, rfl⟩⟩

/-- One after another. -/
theorem Turned.append {c₀ c₁ c₂ : Config σ} {held : Option Held} {frames more : List DataFrame}
    {o o' : Origin LSN ℤ Image} {b b' : BatchResult} (h : Turned db conn c₀ held frames o b c₁)
    (h' : Turned db conn { c₁ with phase := .looping (some (o, b.state)) }
      (some (o, b.state)) more o' b' c₂) :
    Turned db conn c₀ held (frames ++ more) o' b' c₂ := by
  refine ⟨h'.reachable, h'.phase, ?_, h'.behind, h'.still.trans h.still, ?_⟩
  · rw [h'.map, applyFrames_append, ← h.map]
  · obtain ⟨hno, -⟩ | ⟨_, ⟨⟩, rfl⟩ := h'.origin
    · cases hno
    · exact h.origin

/-- The state the loop is given opens a call, under the spec and at a position the server keeps. -/
def Opens (db : Database σ V) (conn : MSSQLConnector σ) (spec : TableSpec) (floor : LSN) (Q : σ → Prop)
    (inspectEvery : Option Timedelta) (now : ℤ) (state : Option RunState) (w : σ) : Prop :=
  ∃ opened w₁,
    openRun conn.source now db.target.schema db.target.table state inspectEvery w = .ok opened w₁ ∧
    Q w₁ ∧ Carried spec floor opened

/-- Where the loop is after `n` of its calls. -/
def Underway (db : Database σ V) (lo hi c : ℤ) (w : σ) (held : Option Held) : ℕ → Prop
  | 0 => True
  | n + 1 => ∃ x, held = some x ∧ Behind db w x.2 ∧ Spent lo hi c (n + 1) x.2

/-- A call with a frame, past the first, was of a walk that is not over. -/
theorem Underway.call (h : Serves db conn) (hs : Settled db conn Q) (hkeys : KeysIn db lo hi)
    (hc : 1 ≤ c) {held : Option Held} (hw : Q w) {n : ℕ} (hn : n ≤ ((hi + 1 - lo) / c).toNat + 1)
    (hright : ∀ st ∈ held.map Prod.snd, db.Right st.spec) (hunderway : Underway db lo hi c w held n)
    (given : req.state = held.map Prod.snd) (size : req.chunkSize = c)
    (returned : (interleaved db conn).call req w = .ok b w') (hframe : b.frame ≠ none) :
    Spent lo hi c (n + 1) b.state ∧ n + 1 ≤ ((hi + 1 - lo) / c).toNat + 1 := by
  rw [← given] at hright
  obtain ⟨hfirst, hnext⟩ := call_spent h hkeys size hright returned
  obtain ⟨⟨-, hsame⟩, -⟩ := call_behind h hs hw returned
  cases n with
  | zero => exact ⟨hfirst, by omega⟩
  | succ n =>
    obtain ⟨x, rfl, hbehind, hspent⟩ := hunderway
    refine ⟨hnext x.2 given _ hspent, ?_⟩
    by_contra hlate
    have hdone : x.2.dumpDone = true := hspent.done hc (by omega)
    have hbehind' : Behind db w' x.2 := by rw [Behind, hsame]; exact hbehind
    exact hframe (call_idle h (hright x.2 given) given hdone hbehind' returned)

section turn

variable {c₀ : Config σ} {held : Option Held} {n : ℕ} (h : Serves db conn)
  (hr : Responsive db conn spec captureInstance floor Q) (hs : Settled db conn Q)
  (hkeys : KeysIn db lo hi) (hc : 1 ≤ c) (reachable : Reachable (interleaved db conn) c₀)
  (phase : c₀.phase = .looping held) (hw : Q c₀.world) (hunderway : Underway db lo hi c c₀.world held n)
  (hn : n ≤ ((hi + 1 - lo) / c).toNat + 1)

include h hr hs hkeys hc reachable phase hw hunderway hn

/-- **Once round the loop**: the call returns; with no frame the table is walked, and with one there
is a page less to walk. -/
theorem turn {now : ℤ}
    (hopens : Opens db conn spec floor Q inspectEvery now (held.map Prod.snd) c₀.world) :
    ∃ o b c₁,
      dblog conn.source now db.target.schema db.target.table (held.map Prod.snd) c inspectEvery c₀.world =
        .ok b c₁.world ∧ Turned db conn c₀ held b.frame.toList o b c₁ ∧ Q c₁.world ∧
      Carried spec floor b.state ∧ (b.frame = none → b.state.dumpDone = true) ∧
      (b.frame ≠ none → Underway db lo hi c c₁.world (some (o, b.state)) (n + 1) ∧
        n + 1 ≤ ((hi + 1 - lo) / c).toNat + 1) := by
  obtain ⟨opened, w₁, hopen, h1, hopened⟩ := hopens
  obtain ⟨b, w₂, returned, h2, hcarried⟩ := hr.batch_returns h h1 hc hopen hopened
  have hcall : (interleaved db conn).call ⟨now, held.map Prod.snd, c, inspectEvery⟩ c₀.world =
      .ok b w₂ := returned
  obtain ⟨o, c₁, rfl, hturned⟩ := Turned.once h hs reachable phase hw rfl hcall
  have hkeeps := (LoopOnServer.Reachable.under rfl (opens_right h rfl rfl) reachable).2
  have hgiven : (⟨now, held.map Prod.snd, c, inspectEvery⟩ : Request).state = held.map Prod.snd := rfl
  have hright := hkeeps.given phase hgiven
  refine ⟨o, b, c₁, returned, hturned, h2, hcarried, fun hframe => ?_, fun hframe => ?_⟩
  · obtain ⟨-, opened', rows, high, window, hreads⟩ := Driver.call_ok.mp hcall
    exact BatchRead.walked_of_none hc hreads hframe
  · obtain ⟨hspent, hless⟩ := hunderway.call h hs hkeys hc hw hn hright rfl rfl hcall hframe
    exact ⟨⟨_, rfl, hturned.behind, hspent⟩, hless⟩

/-- **The loop ends**, after `n` of its calls. -/
theorem settles_after {now : ℕ → ℤ} {calls : ℕ}
    (hopens : Opens db conn spec floor Q inspectEvery (now calls) (held.map Prod.snd) c₀.world)
    (hcalls : ((hi + 1 - lo) / c).toNat + 1 ≤ calls + n) :
    ∃ o b more c₁, consume conn.source db.target.schema db.target.table c inspectEvery now (calls + 1)
        (held.map Prod.snd) c₀.world = .ok (true, some b.state, more) c₁.world ∧
      b.state.dumpDone = true ∧ Turned db conn c₀ held more o b c₁ := by
  induction calls generalizing c₀ held n with
  | zero =>
    obtain ⟨o, b, c₁, returned, hturned, -, -, hdone, hmore⟩ :=
      turn h hr hs hkeys hc reachable phase hw hunderway hn hopens
    by_cases hframe : b.frame = none
    · rw [hframe] at hturned
      exact ⟨o, b, [], c₁, consume_breaks returned hframe, hdone hframe, hturned⟩
    · have := (hmore hframe).2
      omega
  | succ calls ih =>
    obtain ⟨o, b, c₁, returned, hturned, h1, hcarried, hdone, hmore⟩ :=
      turn h hr hs hkeys hc reachable phase hw hunderway hn hopens
    by_cases hframe : b.frame = none
    · rw [hframe] at hturned
      exact ⟨o, b, [], c₁, consume_breaks returned hframe, hdone hframe, hturned⟩
    · obtain ⟨hunderway₁, hless⟩ := hmore hframe
      have hframed : b.frame.isSome = true := Option.isSome_iff_ne_none.mpr hframe
      have reachable₁ := hturned.reachable.step (.goesOn hturned.phase hframed)
      have hopens₁ : Opens db conn spec floor Q inspectEvery (now calls) (some b.state) c₁.world :=
        hr.openRun_returns h h1 (now calls) inspectEvery (by rintro _ ⟨⟩; exact hcarried)
      obtain ⟨o', b', more, c₂, hrest, hwalked, hturned'⟩ :=
        ih reachable₁ rfl h1 hunderway₁ hless hopens₁ (by omega)
      exact ⟨o', b', _, c₂, consume_goesOn returned hframe hrest, hwalked, hturned.append hturned'⟩

end turn

/-! ### What the loop is given -/

/-- What the loop may be given: a state under the spec the table has now, or one that is stale, and
at a position the server keeps, or one it has let go. -/
structure Known (db : Database σ V) (spec : TableSpec) (captureInstance : String) (floor : LSN)
    (inspectEvery : Option Timedelta) (now : ℤ) (w : σ) (st : RunState) : Prop where
  spec_eq : st.spec = spec ∨
    ∃ every : ℤ, inspectEvery = some every ∧ every ≤ now - st.lastInspect.instant
  kept : floor ≤ st.lastLsn ∨ st.lastLsn < (db.view w).floor captureInstance

section known

variable {now : ℤ} (h : Serves db conn) (hr : Responsive db conn spec captureInstance floor Q)
  (hright : db.Right st.spec)

include h hr hright

omit h in
/-- A refresh of such a state makes it one of the spec, or refuses it. -/
theorem refresh_ends (hw : Q w) (hst : Known db spec captureInstance floor inspectEvery now w st) :
    ∃ w₁, Q w₁ ∧ ((∃ opened, refreshSpec conn.source now st inspectEvery w = .ok opened w₁ ∧
        opened.spec = spec ∧ opened.lastLsn = st.lastLsn) ∨
      ∃ e, refreshSpec conn.source now st inspectEvery w = .error e w₁ ∧ caught e = true) := by
  by_cases hstale : ∃ every : ℤ, inspectEvery = some every ∧ every ≤ now - st.lastInspect.instant
  · obtain ⟨every, rfl, hstale⟩ := hstale
    obtain ⟨w₁, hi⟩ := hr.inspects hw
    obtain ⟨hschema, htable, -, -⟩ := hright.describes
    have hinspect : conn.source.inspect st.spec.sourceSchema st.spec.sourceTable w = .ok spec w₁ := by
      rw [hschema, htable]
      exact hi
    refine ⟨w₁, (hr.stays.moving_source.inspect _ _).ok hi hw, ?_⟩
    rw [Refresh.refreshSpec_eq hstale hinspect hr.captured]
    by_cases hcheck : checkSpec st.spec spec = .ok ()
    · rw [hcheck]
      exact Or.inl ⟨_, rfl, rfl, rfl⟩
    · obtain ⟨message, hmessage⟩ := Refresh.checkSpec_error hcheck
      rw [hmessage]
      exact Or.inr ⟨_, rfl, rfl⟩
  · have hspec : st.spec = spec := hst.spec_eq.resolve_right hstale
    refine ⟨w, hw, Or.inl ⟨st, ?_, hspec, rfl⟩⟩
    unfold refreshSpec
    cases inspectEvery with
    | none => rfl
    | some every =>
      dsimp only
      rw [if_pos (not_le.mp fun hle => hstale ⟨every, rfl, hle⟩)]
      exact pure_ok.mpr ⟨rfl, rfl⟩

/-- So does the opening of a call on it. -/
theorem open_ends (hw : Q w) (hst : Known db spec captureInstance floor inspectEvery now w st) :
    ∃ w₁, Q w₁ ∧
      ((∃ opened,
        openRun conn.source now db.target.schema db.target.table (some st) inspectEvery w = .ok opened w₁ ∧
          Carried spec floor opened) ∨
      ∃ e, openRun conn.source now db.target.schema db.target.table (some st) inspectEvery w =
        .error e w₁ ∧ caught e = true) := by
  obtain ⟨hschema, htable, -, -⟩ := hright.describes
  have hname : checkTable st db.target.schema db.target.table = .ok () := by
    refine checkTable_ok.mpr ?_
    rw [TableSpec.qualifiedName, hschema, htable]
    rfl
  have hopen : openRun conn.source now db.target.schema db.target.table (some st) inspectEvery =
      ofExcept (checkTable st db.target.schema db.target.table) >>= fun _ =>
        refreshSpec conn.source now st inspectEvery >>= fun opened =>
          ofExcept (requireCaptureInstance opened.spec) >>= fun ci =>
            checkRetention conn.source opened ci >>= fun _ => pure opened := rfl
  obtain ⟨w₁, h1, ⟨opened, hrefresh, hspec, hlsn⟩ | ⟨e, hrefresh, he⟩⟩ := refresh_ends hr hright hw hst
  · obtain ⟨found, w₂, hmin, h2, hfound⟩ := hr.getMinLsn_returns h h1
    obtain ⟨s, hs, hfloor⟩ := h.getMinLsn_ok hmin
    have hci : requireCaptureInstance opened.spec = .ok captureInstance :=
      requireCaptureInstance_ok.mpr (by rw [hspec, hr.captured])
    have hlater : Later (db.view w) (db.view w₁) := (h.later.moving_source.refreshSpec _ _ _).ok hrefresh
    refine ⟨w₂, h2, ?_⟩
    rw [hopen]
    rcases hst.kept with hkept | hgone
    · -- the position is kept
      have hretained : checkRetention conn.source opened captureInstance w₁ = .ok () w₂ :=
        checkRetention_ok.mpr ⟨found, hmin, by rw [hlsn]; exact hfound.trans hkept⟩
      refine Or.inl ⟨opened, ?_, hspec, by rw [hlsn]; exact hkept⟩
      simp only [bind_ok, ofExcept_ok, pure_ok]
      exact ⟨(), w, ⟨hname, rfl⟩, opened, w₁, hrefresh, captureInstance, w₁, ⟨hci, rfl⟩, (), w₂,
        hretained, rfl, rfl⟩
    · -- the position has been let go
      have hbelow : opened.lastLsn < found := by
        rw [hlsn, hfloor]
        exact hgone.trans_le ((hlater.floor_le _).trans (hs.1.floor_le _))
      have hretained : checkRetention conn.source opened captureInstance w₁ =
          .error (expired opened found) w₂ :=
        checkRetention_error.mpr (Or.inr ⟨found, hmin, hbelow, rfl⟩)
      refine Or.inr ⟨expired opened found, ?_, rfl⟩
      refine bind_error.mpr (Or.inr ⟨(), w, ofExcept_ok.mpr ⟨hname, rfl⟩, ?_⟩)
      refine bind_error.mpr (Or.inr ⟨opened, w₁, hrefresh, ?_⟩)
      refine bind_error.mpr (Or.inr ⟨captureInstance, w₁, ofExcept_ok.mpr ⟨hci, rfl⟩, ?_⟩)
      exact bind_error.mpr (Or.inl hretained)
  · refine ⟨w₁, h1, Or.inr ⟨e, ?_, he⟩⟩
    rw [hopen]
    exact bind_error.mpr (Or.inr ⟨(), w, ofExcept_ok.mpr ⟨hname, rfl⟩, bind_error.mpr (Or.inl hrefresh)⟩)

end known

/-- A call on such a state returns, or is refused in a way the loop catches. -/
theorem call_ends {now : ℤ} (h : Serves db conn) (hr : Responsive db conn spec captureInstance floor Q)
    (hc : 1 ≤ c) (hw : Q w) (hright : db.Right st.spec)
    (hst : Known db spec captureInstance floor inspectEvery now w st) :
    Opens db conn spec floor Q inspectEvery now (some st) w ∨
      ∃ e w₁, dblog conn.source now db.target.schema db.target.table (some st) c inspectEvery w =
        .error e w₁ ∧ caught e = true ∧ Q w₁ := by
  obtain ⟨w₁, h1, ⟨opened, hopen, hopened⟩ | ⟨e, hopen, he⟩⟩ := open_ends h hr hright hw hst
  · exact Or.inl ⟨opened, w₁, hopen, h1, hopened⟩
  · refine Or.inr ⟨e, w₁, ?_, he, h1⟩
    rw [dblog, if_neg (not_lt.mpr hc)]
    exact bind_error.mpr (Or.inl hopen)

/-! ### The loop comes to rest -/

/-- The map of a configuration that has saved a walked state with the log behind it is the table,
but for keys the table does not have. -/
theorem Turned.map_eq (h : Serves db conn) {c₀ c₁ : Config σ} {held : Option Held}
    {more : List DataFrame} {o : Origin LSN ℤ Image} (hturned : Turned db conn c₀ held more o b c₁)
    (hdone : b.state.dumpDone = true) (k : ℤ) :
    c₁.map k = (db.view c₀.world).content db.init db.target k ∨
      (db.view c₀.world).content db.init db.target k = none ∧ c₁.map k = o.held k := by
  have hcontent : tableAt db.init ((db.view c₁.world).entries db.target) b.state.lastLsn =
      (db.view c₀.world).content db.init db.target := by
    rw [tableAt_behind hturned.behind, content_still hturned.still]
  obtain ⟨known, top, -, -, hphase⟩ :=
    Reachable.inv_server h rfl rfl (fun _ _ hmoved => hmoved) hturned.reachable
  rw [PhaseInv, hturned.phase] at hphase
  have hholds : Holds db.view db.init db.target c₁.world c₁.map o b.state := hphase.2
  rw [← hcontent]
  rcases hholds (db.view c₁.world) ⟨Later.refl _, db.int_keys _⟩ k (Or.inl hdone)
    with heq | ⟨-, hheld, hnone⟩
  · exact Or.inl heq
  · exact Or.inr ⟨hnone, hheld⟩

open PyDBLog.World.InMemory PyDBLog.Mssql.Capture PyDBLog.Mssql.InMemory

/-- The server in memory commits nothing by itself. -/
theorem items_settled : Settled database server Reported where
  reported m h := h.reported
  still :=
    { refl := fun m h => ⟨h, rfl⟩
      trans := fun h h' hQ => ⟨(h' (h hQ).1).1, (h' (h hQ).1).2.trans (h hQ).2⟩
      execute := by
        intro query params _ m
        simp only [server, serverOf]
        cases reply query params m <;> exact fun h => ⟨h.tick, rfl⟩
      monotonic := fun m h => ⟨h, rfl⟩
      sleep := fun _ m h => ⟨h, rfl⟩ }

/-- The state of the stock once walked, of a run opened on an empty map. -/
def servedHeld : Held := (⟨lsnAt 4, emptyMap⟩, ⟨itemsSpec, lsnAt 5, .utc 0, some 3, true⟩)

/-- The stock walked and written, saved and gone on with. -/
def servedSaved : Config Items where
  world := tick^[12] stock
  phase := .looping (some servedHeld)
  saved := some servedHeld
  map := applyFrame items emptyMap (some served)

end PyDBLog.Runs.Settles
