import PyDBLog.Mssql.Unseen
import PyDBLog.Runs.OnServer

/-! # Runs through connections and cursors

A run over a source that does what another does is a run over the other (`Run.follows`): where the
one fails on its own, the other has gone on without a call. So a run of a connector that opens a
connection and a cursor for each read, either of which may fail at any time, is a run over the
statements with the same states and frames, and what runs over SQL Server promise holds of it
(`session_dump_reconstructs`). -/

namespace PyDBLog.Runs.Sessions

open PyDBLog.Model.Python PyDBLog.Model.Frame PyDBLog.Model.Types PyDBLog.Model.Connector
open PyDBLog.Model.DBLog PyDBLog.Model.Returns PyDBLog.Model.Links
open PyDBLog.Mssql.Connector PyDBLog.Mssql.Server
open PyDBLog.Mssql.Handles PyDBLog.Mssql.Unseen
open PyDBLog.Replay.Basic PyDBLog.Replay.Cut PyDBLog.World.Log PyDBLog.World.Log.Source
  PyDBLog.World.Promises
open PyDBLog.Runs.Calls PyDBLog.Runs.Page PyDBLog.Runs.Consumer PyDBLog.Runs.Reconstructs
  PyDBLog.Runs.OnServer

variable {ρ σ τ V Connection Cursor : Type}

/-! ### Runs side by side -/

/-- Two drivers of runs, the source of one doing what that of the other does. -/
structure Beside (link : Link σ τ) (d : Driver σ) (d' : Driver τ) : Prop where
  simulates : Simulates link d.connector d'.connector
  target : d.target = d'.target
  resumes : ∀ {known st}, d.resumes known st → d'.resumes known st
  admits : ∀ {req s v}, link.related s v → d.admits req s → d'.admits req v
  moves : ∀ {s s' v}, link.related s v → d.moves s s' → ∃ v', link.related s' v' ∧ d'.moves v v'
  idles : ∀ {v v'}, link.moves v v' → d'.moves v v'
  total : ∀ s, ∃ v, link.related s v

section follows

variable {link : Link σ τ} {d : Driver σ} {d' : Driver τ} {L : LSN} {s : σ} {known : List RunState}
  {frames : List DataFrame}

theorem Beside.call (h : Beside link d d') (req : Request) : Follows link (d.call req)
    (d'.call req) := by
  unfold Driver.call
  rw [h.target]
  exact h.simulates.dblog ..

theorem Beside.opens (h : Beside link d d') (req : Request) : Follows link (d.opens req)
    (d'.opens req) := by
  unfold Driver.opens
  rw [h.target]
  exact h.simulates.openRun ..

/-- **A run over the one is a run over the other**, with the same states and frames. -/
theorem Run.follows (h : Beside link d d') (run : Run d (Fresh d) L s known frames) :
    ∃ v, link.related s v ∧ Run d' (Fresh d') L v known frames := by
  induction run with
  | begins begun =>
    obtain ⟨fresh, admitted, opens, returned⟩ := begun
    obtain ⟨v, hrel⟩ := h.total _
    obtain ⟨v₁, hopens, -⟩ := (h.opens _).returns hrel opens
    obtain ⟨v', hcall, hrel'⟩ := (h.call _).returns hrel returned
    exact ⟨v', hrel', .begins (.intro fresh (h.admits hrel admitted) hopens hcall)⟩
  | idles run moved ih =>
    obtain ⟨v, hrel, hrun⟩ := ih
    obtain ⟨v', hrel', hmoved⟩ := h.moves hrel moved
    exact ⟨v', hrel', .idles hrun hmoved⟩
  | raises run resumed given raised ih =>
    obtain ⟨v, hrel, hrun⟩ := ih
    obtain ⟨v', hcall | ⟨-, hmoved⟩, hrel'⟩ := (h.call _).raises hrel raised
    · exact ⟨v', hrel', .raises hrun (h.resumes resumed) given hcall⟩
    · exact ⟨v', hrel', .idles hrun (h.idles hmoved)⟩
  | returns run resumed given admitted returned ih =>
    obtain ⟨v, hrel, hrun⟩ := ih
    obtain ⟨v', hcall, hrel'⟩ := (h.call _).returns hrel returned
    exact ⟨v', hrel', .returns hrun (h.resumes resumed) given (h.admits hrel admitted) hcall⟩

end follows

/-! ### Over SQL Server -/

section transparent

variable [LinearOrder V] {db : Database σ V} {plain : MSSQLConnector σ} {leeway : Leeway σ}
  {server : ρ → σ} {live : ρ → Cursor → Prop} {connector : SessionConnector ρ Connection Cursor}
  {d : Driver (Session ρ Connection)} {L : LSN} {s : Session ρ Connection} {known : List RunState}
  {frames : List DataFrame}

/-- **A dump through connections and cursors is one over the statements**, with the same states and
frames, and reconstructs the table, wherever one of them fails. -/
theorem session_dump_reconstructs (hserves : Serves db plain)
    (h : Transparent leeway server live connector plain)
    (hlater : ∀ v v', leeway.moves v v' → Later (db.view v) (db.view v'))
    (hconn : d.connector = connector.source) (htarget : d.target = db.target)
    (hmoves : ∀ s s', d.moves s s' → Later (db.view (server s.world)) (db.view (server s'.world)))
    (hresumes : ∀ known st, d.resumes known st → fallsBack known st)
    (run : Run d (Fresh d) L s known frames) :
    Run (interleaved db plain) (Fresh (interleaved db plain)) L (server s.world) known frames ∧
      ∃ st, known.head? = some st ∧ ∀ k,
        st.dumpDone = true ∨ (∃ c, st.chunkKey = some c ∧ k < c) →
          applyFrames db.target emptyMap frames k =
            tableAt db.init ((db.view (server s.world)).entries db.target) st.lastLsn k := by
  have hbeside : Beside (sessionLink leeway server live none) d (interleaved db plain) :=
    { simulates := hconn ▸ session_simulates h
      target := htarget
      resumes := hresumes _ _
      admits := fun _ _ => trivial
      moves := fun ⟨hserver, _⟩ hmoved => ⟨_, ⟨rfl, by simp⟩, hserver ▸ hmoves _ _ hmoved⟩
      idles := hlater _ _
      total := fun s => ⟨server s.world, rfl, by simp⟩ }
  obtain ⟨v, ⟨rfl, -⟩, hrun⟩ := Run.follows hbeside run
  obtain ⟨st, hk, hholds⟩ := Run.holds hserves rfl rfl (fun _ _ h => h) (fun _ _ h => h) hrun
  exact ⟨hrun, st, hk, fun k hcov => reconstructed hholds hcov⟩

end transparent

/-! ### A dump through cursors on the server in memory -/

open PyDBLog.World.InMemory PyDBLog.Mssql.InMemory

/-- The items move as they are served, and a cursor may be refused. -/
def itemsLeeway : Leeway Items where
  own e := e = .driverError "no cursor"
  moves m m' := Mssql.Server.Follows m.source m'.source
  refl m := Mssql.Server.Follows.refl m.source
  trans := Mssql.Server.Follows.trans

def sessionDriver : Driver (Session (Items × Desk) Unit) where
  connector := (tabledConnector server).source
  target := items
  moves s s' := Later s.world.1.source s'.world.1.source
  resumes := fallsBack
  admits _ _ := True

theorem items_transparent : Transparent itemsLeeway Prod.fst openOn (tabledConnector server) server :=
  tabled_transparent moves rfl

/-- A session on some items, with its connection open and so many cursors to be refused. -/
def sessionOn (m : Items) (refusals : ℕ) : Session (Items × Desk) Unit := ⟨(m, ⟨[], refusals⟩), some ()⟩

/-- The rows of the stock. -/
def stockPage : DataFrame where
  schema := [("id", .int32), ("name", .other "large_string")]
  rows := [[.int 1, .str "bolt"], [.int 2, .str "nut"]]

/-- The sale of the bolt. -/
def servedSold : DataFrame := { served with rows := saleDeletes.rows }

/-- The stock is walked. -/
def stockWalked : RunState := ⟨itemsSpec, lsnAt 5, .utc 0, some 3, true⟩

set_option maxRecDepth 100000 in
theorem stock_opens : sessionDriver.opens ⟨0, none, 5, none⟩ ⟨(stock, ⟨[], 0⟩), none⟩ =
    .ok ⟨itemsSpec, lsnAt 4, .utc 0, none, false⟩ (sessionOn (tick^[6] stock) 0) := rfl

set_option maxRecDepth 100000 in
theorem stock_returned : sessionDriver.call ⟨0, none, 5, none⟩ ⟨(stock, ⟨[], 0⟩), none⟩ =
    .ok ⟨some served, stockWalked⟩ (sessionOn (tick^[12] stock) 0) := by
  have low : sessionDriver.connector.watermark (sessionOn (tick^[6] stock) 0) =
      .ok 10 (sessionOn (tick^[7] stock) 0) := rfl
  have asked : sessionDriver.connector.readTable itemsSpec none none 5 (sessionOn (tick^[7] stock) 0) =
      .ok stockPage (sessionOn (tick^[8] stock) 0) := rfl
  have high : sessionDriver.connector.watermark (sessionOn (tick^[8] stock) 0) =
      .ok 12 (sessionOn (tick^[9] stock) 0) := rfl
  have awaits : sessionDriver.connector.awaitWatermark 12 (sessionOn (tick^[9] stock) 0) =
      .ok () (sessionOn (tick^[10] stock) 0) := rfl
  have reported : sessionDriver.connector.getMaxLsn (sessionOn (tick^[10] stock) 0) =
      .ok (lsnAt 4) (sessionOn (tick^[11] stock) 0) := rfl
  have events : sessionDriver.connector.readEventLog itemsSpec (lsnAt 4) (lsnAt 4)
      (sessionOn (tick^[11] stock) 0) = .ok none (sessionOn (tick^[12] stock) 0) := rfl
  have next : ∀ {lsn next : LSN} {s}, MSSQLConnector.incrementLsn lsn = .ok next →
      sessionDriver.connector.incrementLsn lsn s = .ok next s := fun h => ofExcept_ok.mpr ⟨h, rfl⟩
  have succ : MSSQLConnector.incrementLsn (lsnAt 4) = .ok (lsnAt 5) :=
    MSSQLConnector.incrementLsn_ok.mpr ⟨by decide, by decide⟩
  have merged : mergeChunk sessionDriver.connector stockPage none 10 itemsSpec
      (sessionOn (tick^[12] stock) 0) = .ok served (sessionOn (tick^[12] stock) 0) := rfl
  have page : PageRead sessionDriver.connector 5 ⟨itemsSpec, lsnAt 4, .utc 0, none, false⟩
      (sessionOn (tick^[7] stock) 0) stockPage (some stockPage) ⟨itemsSpec, lsnAt 4, .utc 0, some 3, true⟩
      (sessionOn (tick^[8] stock) 0) := .rows asked (List.cons_ne_nil _ _) rfl
  exact Driver.call_ok.mpr ⟨by norm_num, _, _, _, _, .chunk stock_opens rfl low page high awaits
    (.read reported le_rfl events (next succ)) merged⟩

set_option maxRecDepth 100000 in
/-- The stock is walked and the bolt sold; the next call gets no cursor, and the one after it reads
the sale. -/
theorem sale_through_cursors : Run sessionDriver (Fresh sessionDriver) (lsnAt 4) (sessionOn (tick^[15] sold) 0)
    [saleWalked, stockWalked] [served, servedSold] := by
  have refused : sessionDriver.call ⟨0, some stockWalked, 5, none⟩ (sessionOn (tick^[12] sold) 1) =
      .error (.driverError "no cursor") (sessionOn (tick^[12] sold) 0) := rfl
  have retried : sessionDriver.call ⟨0, some stockWalked, 5, none⟩ (sessionOn (tick^[12] sold) 0) =
      .ok ⟨some servedSold, saleWalked⟩ (sessionOn (tick^[15] sold) 0) := rfl
  have begun : Run sessionDriver (Fresh sessionDriver) (lsnAt 4) (sessionOn (tick^[12] stock) 0)
      [stockWalked] [served] := .begins (.intro rfl trivial stock_opens stock_returned)
  have later : Later (tick^[12] stock).source (tick^[12] sold).source := later_ticks 12 stock_later_sold
  have moved : Run sessionDriver (Fresh sessionDriver) (lsnAt 4) (sessionOn (tick^[12] sold) 1)
      [stockWalked] [served] := begun.idles later
  exact (moved.raises List.mem_cons_self rfl refused).returns List.mem_cons_self rfl trivial retried

theorem session_dump_reconstructs_stock :
    Run (interleaved database server) (Fresh (interleaved database server)) (lsnAt 4) (tick^[15] sold)
        [saleWalked, stockWalked] [served, servedSold] ∧
      ∃ st : RunState, [saleWalked, stockWalked].head? = some st ∧ ∀ k,
        st.dumpDone = true ∨ (∃ c, st.chunkKey = some c ∧ k < c) →
          applyFrames items emptyMap [served, servedSold] k =
            tableAt (fun _ => none) ((tick^[15] sold).source.entries items) st.lastLsn k :=
  session_dump_reconstructs serves items_transparent (fun _ _ h => h.toLater) rfl rfl
    (fun _ _ h => h) (fun _ _ h => h) sale_through_cursors

end PyDBLog.Runs.Sessions
