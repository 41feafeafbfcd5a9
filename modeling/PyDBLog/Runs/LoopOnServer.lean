import PyDBLog.Runs.OnServer
import PyDBLog.Runs.Recovery

/-! # The consumer loop over SQL Server

The loop of the README, crashing and starting over as it may, holds no state but those of calls on
the connector, and each has a spec that is right about the table. So it is the loop over a source
that reads under right specs alone and inspects captured tables alone (`Reachable.under`), and it
recovers with nothing assumed but what SQL Server documents (`server_recovery_converges`). -/

namespace PyDBLog.Runs.LoopOnServer

open PyDBLog.Model.Python PyDBLog.Model.Frame PyDBLog.Model.Types PyDBLog.Model.Connector
open PyDBLog.Model.DBLog PyDBLog.Model.Worlds PyDBLog.Model.Guarded
open PyDBLog.Mssql.Connector PyDBLog.Mssql.Server
open PyDBLog.Replay.Basic PyDBLog.Replay.Cut PyDBLog.Replay.Dump
open PyDBLog.World.Log PyDBLog.World.Log.Source PyDBLog.World.Promises
open PyDBLog.Runs.Calls PyDBLog.Runs.Consumer PyDBLog.Runs.Reconstructs PyDBLog.Runs.Recovery
open PyDBLog.Runs.OnServer

variable {σ V : Type}

/-! ### What the loop holds -/

/-- The state the loop would go on with. -/
def stateOf : Phase → Option RunState
  | .down => none
  | .looping state => state.map Prod.snd
  | .received _ batch => some batch.state
  | .written _ batch => some batch.state
  | .stored _ batch => some batch.state

/-- Every state it has saved or goes on with has a spec with the property. -/
structure Keeps (P : TableSpec → Prop) (c : Config σ) : Prop where
  saved : ∀ x ∈ c.saved, P x.2.spec
  current : ∀ st ∈ stateOf c.phase, P st.spec

/-- A promise of the captured tables is as good as one of all. -/
theorem laws_insistent {C : SourceConnector σ} {view : σ → Source} {init : Table ℤ Image} {t : Target}
    (hC : Laws C view init t) : Laws (insistent C) view init t where
  grows := moving_insistent hC.grows
  inspect_names hi := hC.inspect_names (insistent_inspect_ok.mp hi).1
  maxLsn_wide := hC.maxLsn_wide
  maxLsn_le := hC.maxLsn_le
  readEventLog := hC.readEventLog
  toEvents := hC.toEvents
  incrementLsn := hC.incrementLsn
  later := moving_insistent hC.later
  single_key := hC.single_key
  int_keys := hC.int_keys
  maxLsn_mark := hC.maxLsn_mark
  minLsn_floor := hC.minLsn_floor
  watermark_clock := hC.watermark_clock
  barrier := hC.barrier
  readTable := hC.readTable

/-- The driver, its source read under the specs with a property and inspected where captured. -/
noncomputable def strict (P : TableSpec → Prop) (d : Driver σ) : Driver σ :=
  { d with connector := insistent (guarded P d.connector) }

/-- It opens with the same state there. -/
theorem opens_strict {P : TableSpec → Prop} {d : Driver σ} (req : Request) (w : σ) :
    (strict P d).opens req w = d.opens req w :=
  congrFun (openRun_insistent (C := guarded P d.connector) _ _) w

variable [LinearOrder V] {db : Database σ V} {conn : MSSQLConnector σ} {d : Driver σ} {c c' : Config σ}

/-- A call the loop makes is the same there. -/
theorem call_strict (hopens : OpensUnder db.Right d) {req : Request} {w : σ}
    (hstate : ∀ st ∈ req.state, db.Right st.spec) : (strict db.Right d).call req w = d.call req w := by
  rw [← call_under hopens hstate]
  exact congrFun (dblog_insistent (C := guarded db.Right d.connector) _ _) w

/-- The loop is given the state it goes on with. -/
theorem Keeps.given (h : Keeps db.Right c) {held : Option Held} {req : Request}
    (phase : c.phase = .looping held) (given : req.state = held.map Prod.snd) :
    ∀ st ∈ req.state, db.Right st.spec := by
  rw [given]
  have hcurrent := h.current
  rwa [phase] at hcurrent

/-- A call that returns hands back a right spec. -/
theorem call_right (hconn : d.connector = conn.source) (hopens : OpensUnder db.Right d) {req : Request}
    {w w' : σ} {b : BatchResult} (hstate : ∀ st ∈ req.state, db.Right st.spec)
    (returned : d.call req w = .ok b w') : db.Right b.state.spec := by
  obtain ⟨opened, w₁, opens, hspec⟩ := call_spec hconn returned
  rw [hspec]
  exact hopens _ _ _ _ hstate opens

/-- **A step of the loop is a step there**, and keeps what the loop holds right. -/
theorem Step.under (hconn : d.connector = conn.source) (hopens : OpensUnder db.Right d)
    (step : Step d c c') (h : Keeps db.Right c) : Step (strict db.Right d) c c' ∧ Keeps db.Right c' := by
  cases step with
  | env moved => exact ⟨.env moved, h.saved, h.current⟩
  | loads phase =>
    refine ⟨.loads phase, h.saved, fun st hst => ?_⟩
    obtain ⟨x, hx, rfl⟩ := Option.map_eq_some_iff.mp hst
    exact h.saved x hx
  | seeds phase given opens returned =>
    have hstate := given_none (P := db.Right) given
    have opened := (opens_strict (P := db.Right) _ _).trans opens
    refine ⟨.seeds phase given opened ((call_strict hopens hstate).trans returned), h.saved, ?_⟩
    rintro _ ⟨⟩
    exact call_right hconn hopens hstate returned
  | continues phase given returned =>
    have hstate := h.given phase given
    refine ⟨.continues phase given ((call_strict hopens hstate).trans returned), h.saved, ?_⟩
    rintro _ ⟨⟩
    exact call_right hconn hopens hstate returned
  | recovers phase given raised handled =>
    have hcall := call_strict hopens (w := c.world) (h.given phase given)
    exact ⟨.recovers phase given (hcall.trans raised) handled, h.saved, by simp [stateOf]⟩
  | fails phase given raised unhandled =>
    have hcall := call_strict hopens (w := c.world) (h.given phase given)
    exact ⟨.fails phase given (hcall.trans raised) unhandled, h.saved, by simp [stateOf]⟩
  | writes phase =>
    have hcurrent := h.current
    rw [phase] at hcurrent
    exact ⟨.writes phase, h.saved, hcurrent⟩
  | saves phase =>
    have hcurrent := h.current
    rw [phase] at hcurrent
    refine ⟨.saves phase, ?_, hcurrent⟩
    rintro _ ⟨⟩
    exact hcurrent _ rfl
  | goesOn phase more =>
    have hcurrent := h.current
    rw [phase] at hcurrent
    exact ⟨.goesOn phase more, h.saved, hcurrent⟩
  | breaks phase done => exact ⟨.breaks phase done, h.saved, by simp [stateOf]⟩
  | crashes => exact ⟨.crashes, h.saved, by simp [stateOf]⟩

theorem Reachable.under (hconn : d.connector = conn.source) (hopens : OpensUnder db.Right d)
    (reachable : Reachable d c) : Reachable (strict db.Right d) c ∧ Keeps db.Right c := by
  induction reachable with
  | start w => exact ⟨.start w, by simp [Config.start], by simp [Config.start, stateOf]⟩
  | step _ step ih =>
    obtain ⟨hstep, hkeeps⟩ := Step.under hconn hopens step ih.2
    exact ⟨.step ih.1 hstep, hkeeps⟩

/-- The invariant of the loop, over SQL Server. -/
theorem Reachable.inv_server (h : Serves db conn) (hconn : d.connector = conn.source)
    (htarget : d.target = db.target) (hmoves : ∀ w w', d.moves w w' → Later (db.view w) (db.view w'))
    (reachable : Reachable d c) : Inv db.view db.init (strict db.Right d) c := by
  have hlaws : Laws (strict db.Right d).connector db.view db.init d.target := by
    rw [htarget, strict, hconn]
    exact laws_insistent (laws_guarded h)
  refine Reachable.inv hlaws (fun hi => ?_) hmoves
    (Reachable.under hconn (opens_right h hconn htarget) reachable).1
  obtain ⟨hi, ci, hci⟩ := insistent_inspect_ok.mp hi
  rw [show (guarded db.Right d.connector).inspect = conn.source.inspect by rw [hconn]; rfl] at hi
  show d.target.Describes _
  rw [show (strict db.Right d).target = db.target from htarget] at hi
  rw [htarget]
  exact (h.inspect_right hi (by rw [hci]; simp)).describes

/-- **The consumer loop recovers over SQL Server**: whenever it has written a batch that hands back
a walked state, the map is the table at its position under every key but those the table does not
have there, that have not changed since the run opened, and under which the map is still as it was
then. -/
theorem server_recovery_converges (h : Serves db conn) (hconn : d.connector = conn.source)
    (htarget : d.target = db.target) (hmoves : ∀ w w', d.moves w w' → Later (db.view w) (db.view w'))
    (reachable : Reachable d c) {o : Origin LSN ℤ Image} {b : BatchResult}
    (hphase : c.phase = .written o b ∨ c.phase = .stored o b) (hdone : b.state.dumpDone = true) (k : ℤ) :
    c.map k = tableAt db.init ((db.view c.world).entries db.target) b.state.lastLsn k ∨
      tableAt db.init ((db.view c.world).entries db.target) b.state.lastLsn k = none ∧
        Quiet ((db.view c.world).entries db.target) k o.pos b.state.lastLsn ∧ c.map k = o.held k := by
  obtain ⟨held, top, -, -, hinv⟩ := Reachable.inv_server h hconn htarget hmoves reachable
  have hholds : Holds db.view db.init db.target c.world c.map o b.state := by
    rw [← htarget]
    rcases hphase with hp | hp <;> rw [PhaseInv, hp] at hinv <;> exact hinv.2
  rcases hholds (db.view c.world) ⟨Later.refl _, db.int_keys _⟩ k (Or.inl hdone)
    with heq | ⟨hq, hheld, hnone⟩
  · exact Or.inl heq
  · exact Or.inr ⟨hnone, hq, hheld⟩

/-! ### The loop on the items -/

open PyDBLog.World.InMemory PyDBLog.Mssql.InMemory

/-- The stock is walked and written, and the process dies before it saves. -/
def servedUnsaved : Config Items where
  world := tick^[12] stock
  phase := .written ⟨lsnAt 4, emptyMap⟩ ⟨some served, ⟨itemsSpec, lsnAt 5, .utc 0, some 3, true⟩⟩
  saved := none
  map := applyFrame items emptyMap (some served)

theorem servedUnsaved_reachable : Reachable serverDriver servedUnsaved := by
  have started : Reachable serverDriver (Config.start stock) := .start stock
  have looping := started.step (.loads rfl)
  have received := looping.step (.seeds rfl rfl OnServer.stock_opens OnServer.stock_returned)
  exact received.step (.writes rfl)

/-- The nut as a dump row. -/
def servedNut : DataFrame := { served with rows := (itemDumps 26 [(2, "nut")]).rows }

/-- The process restarts with no state once the bolt is sold and the capture job is past that, and
walks and writes the table anew. -/
def servedAnew : Config Items where
  world := tick^[24] sold
  phase := .written ⟨lsnAt 8, servedUnsaved.map⟩ ⟨some servedNut, saleWalked⟩
  saved := none
  map := applyFrame items servedUnsaved.map (some servedNut)

set_option maxRecDepth 100000 in
theorem servedAnew_reachable : Reachable serverDriver servedAnew := by
  have opens : serverDriver.opens ⟨0, none, 5, none⟩ (tick^[12] sold) =
      .ok ⟨itemsSpec, lsnAt 8, .utc 0, none, false⟩ (tick^[18] sold) := rfl
  have returned : serverDriver.call ⟨0, none, 5, none⟩ (tick^[12] sold) =
      .ok ⟨some servedNut, saleWalked⟩ (tick^[24] sold) := rfl
  have down := servedUnsaved_reachable.step .crashes
  have moved : Reachable serverDriver ⟨tick^[12] sold, .down, none, servedUnsaved.map⟩ :=
    down.step (.env (later_ticks 12 stock_later_sold))
  have looping := moved.step (.loads rfl)
  have received := looping.step (.seeds rfl rfl opens returned)
  exact received.step (.writes rfl)

theorem server_recovery_converges_stock :
    (servedAnew.map 1 = tableAt (fun _ => none) ((tick^[24] sold).source.entries items) (lsnAt 9) 1 ∨
      tableAt (fun _ => none) ((tick^[24] sold).source.entries items) (lsnAt 9) 1 = none ∧
        Quiet ((tick^[24] sold).source.entries items) 1 (lsnAt 8) (lsnAt 9) ∧
          servedAnew.map 1 = servedUnsaved.map 1) ∧
    (servedAnew.map 2 = tableAt (fun _ => none) ((tick^[24] sold).source.entries items) (lsnAt 9) 2 ∨
      tableAt (fun _ => none) ((tick^[24] sold).source.entries items) (lsnAt 9) 2 = none ∧
        Quiet ((tick^[24] sold).source.entries items) 2 (lsnAt 8) (lsnAt 9) ∧
          servedAnew.map 2 = servedUnsaved.map 2) := by
  have h := server_recovery_converges serves (d := serverDriver) rfl rfl (fun _ _ h => h)
    servedAnew_reachable (Or.inl rfl) rfl
  exact ⟨h 1, h 2⟩

end PyDBLog.Runs.LoopOnServer
