import PyDBLog.Mssql.InMemory
import PyDBLog.Runs.Reconstructs

/-! # Runs over SQL Server

A run over the connector reads under specs the connector inspected itself, each of them right about
the table. It is a run over the source that is read under such specs alone, state by state and frame
by frame (`Run.under`), and what runs promise over a source that keeps its promises holds of it with
nothing assumed but what SQL Server documents of the texts the connector executes
(`server_dump_reconstructs`). -/

namespace PyDBLog.Runs.OnServer

open PyDBLog.Model.Python PyDBLog.Model.Frame PyDBLog.Model.Types PyDBLog.Model.Connector
open PyDBLog.Model.DBLog PyDBLog.Model.Returns PyDBLog.Model.Guarded
open PyDBLog.Mssql.Connector PyDBLog.Mssql.Server
open PyDBLog.Mssql.OneSchema hiding itemsSpec
open PyDBLog.Replay.Basic PyDBLog.Replay.Cut PyDBLog.World.Log PyDBLog.World.Log.Source
open PyDBLog.World.Promises PyDBLog.Runs.Calls PyDBLog.Runs.Page PyDBLog.Runs.Consumer
  PyDBLog.Runs.Reconstructs

variable {σ V : Type}

/-! ### Under some specs alone -/

/-- The driver, its source read under the specs with a property alone. -/
noncomputable def under (P : TableSpec → Prop) (d : Driver σ) : Driver σ :=
  { d with connector := guarded P d.connector }

/-- A run opened on nothing: its first returning call. -/
inductive Fresh (d : Driver σ) : LSN → σ → List RunState → List DataFrame → Prop
  | intro {req w opened w₁ b w'} (fresh : req.state = none) (admitted : d.admits req w)
      (opens : d.opens req w = .ok opened w₁) (returned : d.call req w = .ok b w') :
      Fresh d opened.lastLsn w' [b.state] b.frame.toList

section under

variable {P : TableSpec → Prop} {d : Driver σ} {req : Request} {w w' : σ}

/-- Every call opens under such a spec that is given a state with one, or none. -/
def OpensUnder (P : TableSpec → Prop) (d : Driver σ) : Prop :=
  ∀ req w opened w₁, (∀ st ∈ req.state, P st.spec) → d.opens req w = .ok opened w₁ → P opened.spec

theorem given_none (fresh : req.state = none) : ∀ st ∈ req.state, P st.spec := by
  rw [fresh]
  simp

theorem given_some {st : RunState} (given : req.state = some st) (h : P st.spec) :
    ∀ st ∈ req.state, P st.spec := by
  rw [given]
  rintro _ ⟨⟩
  exact h

/-- A call is the same there. -/
theorem call_under (h : OpensUnder P d) (hstate : ∀ st ∈ req.state, P st.spec) :
    (under P d).call req w = d.call req w :=
  dblog_guarded fun _ _ ho => h _ _ _ _ hstate ho

end under

/-! ### A run over the connector -/

variable [LinearOrder V] {db : Database σ V} {conn : MSSQLConnector σ} {d : Driver σ} {L : LSN}
  {w w' : σ} {known : List RunState} {frames : List DataFrame} {req : Request} {b : BatchResult}

/-- A call hands back the spec it opened with. -/
theorem call_spec (hconn : d.connector = conn.source) (h : d.call req w = .ok b w') :
    ∃ opened w₁, d.opens req w = .ok opened w₁ ∧ b.state.spec = opened.spec := by
  obtain ⟨-, opened, rows, high, window, hr⟩ := Driver.call_ok.mp h
  obtain ⟨w₁, ho⟩ := Driver.Reads.opens hr
  exact ⟨opened, w₁, ho, (BatchRead.schema hconn hr).1⟩

/-- What an inspection of the table returns is right about it, and a state is only opened under
that. -/
theorem opens_right (h : Serves db conn) (hconn : d.connector = conn.source)
    (htarget : d.target = db.target) :
    OpensUnder db.Right d := by
  intro req w opened w₁ hstate ho
  rw [Driver.opens, hconn, htarget] at ho
  cases hreq : req.state with
  | none =>
    rw [hreq] at ho
    obtain ⟨spec, ci, _, _, _, _, hi, hci, -, -, rfl⟩ := seed_ok.mp ho
    exact h.inspect_right hi (by rw [hci]; simp)
  | some st =>
    rw [hreq] at ho
    obtain ⟨w₂, ci, floor, -, hr, hci, -, -⟩ := openRun_some ho
    have hst := hstate st hreq
    rcases refreshSpec_ok hr with ⟨rfl, -⟩ | ⟨fresh, hi, -, -, rfl⟩
    · exact hst
    · rw [hst.describes.1, hst.describes.2.1] at hi
      exact h.inspect_right hi (by rw [hci]; simp)

/-- A run over the connector is a run over the source read under right specs alone, and holds no
other. -/
theorem Run.under (h : Serves db conn) (hconn : d.connector = conn.source)
    (htarget : d.target = db.target) (hresumes : ∀ known st, d.resumes known st → fallsBack known st)
    (run : Run d (Fresh d) L w known frames) :
    Run (under db.Right d) (Seeded (under db.Right d)) L w known frames ∧
      ∀ st ∈ known, db.Right st.spec := by
  have hopens := opens_right h hconn htarget
  induction run with
  | begins begun =>
    obtain ⟨fresh, admitted, opens, returned⟩ := begun
    have hstate := given_none (P := db.Right) fresh
    have hright := hopens _ _ _ _ hstate opens
    obtain ⟨opened', w₁', opens', hspec⟩ := call_spec hconn returned
    refine ⟨.begins (.intro fresh admitted opens (htarget ▸ hright.describes) ?_), fun st hst => ?_⟩
    · rw [call_under hopens hstate, returned]
    · rw [List.mem_singleton.mp hst, hspec]
      exact hopens _ _ _ _ hstate opens'
  | idles run moved ih => exact ⟨.idles ih.1 moved, ih.2⟩
  | raises run resumed given raised ih =>
    have hstate := given_some given (ih.2 _ (hresumes _ _ resumed))
    exact ⟨.raises ih.1 resumed given (by rw [call_under hopens hstate, raised]), ih.2⟩
  | returns run resumed given admitted returned ih =>
    have hstate := given_some given (ih.2 _ (hresumes _ _ resumed))
    obtain ⟨opened, w₁, opens, hspec⟩ := call_spec hconn returned
    refine ⟨.returns ih.1 resumed given admitted (by rw [call_under hopens hstate, returned]), ?_⟩
    rw [List.forall_mem_cons, hspec]
    exact ⟨hopens _ _ _ _ hstate opens, ih.2⟩

/-- Over SQL Server the map is right for the last state. -/
theorem Run.holds (h : Serves db conn) (hconn : d.connector = conn.source)
    (htarget : d.target = db.target) (hmoves : ∀ w w', d.moves w w' → Later (db.view w) (db.view w'))
    (hresumes : ∀ known st, d.resumes known st → fallsBack known st)
    (run : Run d (Fresh d) L w known frames) : ∃ st, known.head? = some st ∧
      Holds db.view db.init db.target w (applyFrames db.target emptyMap frames) ⟨L, emptyMap⟩ st := by
  have hlaws : Laws (OnServer.under db.Right d).connector db.view db.init d.target := by
    rw [htarget, OnServer.under, hconn]
    exact laws_guarded h
  have hrun := (Run.under h hconn htarget hresumes run).1
  obtain ⟨top, st, -, hk, hholds⟩ := Run.ledger hlaws hmoves hresumes hrun
  rw [← htarget]
  exact ⟨st, hk, hholds⟩

/-- A map that is right for a state, from an empty one, is the table under the keys the state has
walked. -/
theorem reconstructed {m : Table ℤ Image} {st : RunState}
    (hholds : Holds db.view db.init db.target w m ⟨L, emptyMap⟩ st) {k : ℤ} (hk : k ∈ covers st) :
    m k = tableAt db.init ((db.view w).entries db.target) st.lastLsn k := by
  rcases hholds (db.view w) ⟨Later.refl _, db.int_keys w⟩ k hk with heq | ⟨-, hheld, hnone⟩
  · exact heq
  · exact hheld.trans hnone.symm

/-- **A dump run over SQL Server reconstructs the table.** -/
theorem server_dump_reconstructs (h : Serves db conn) (hconn : d.connector = conn.source)
    (htarget : d.target = db.target) (hmoves : ∀ w w', d.moves w w' → Later (db.view w) (db.view w'))
    (hresumes : ∀ known st, d.resumes known st → fallsBack known st)
    (run : Run d (Fresh d) L w known frames) :
    ∃ st, known.head? = some st ∧ ∀ k,
      st.dumpDone = true ∨ (∃ c, st.chunkKey = some c ∧ k < c) →
        applyFrames db.target emptyMap frames k =
          tableAt db.init ((db.view w).entries db.target) st.lastLsn k := by
  obtain ⟨st, hk, hholds⟩ := Run.holds h hconn htarget hmoves hresumes run
  exact ⟨st, hk, fun k hcov => reconstructed hholds hcov⟩

/-- Calls on the connector, with any commit between them, from any state that was ever handed
back. -/
def interleaved (db : Database σ V) (conn : MSSQLConnector σ) : Driver σ where
  connector := conn.source
  target := db.target
  moves w w' := Later (db.view w) (db.view w')
  resumes := fallsBack
  admits _ _ := True

/-! ### A run on the server in memory -/

open PyDBLog.World.InMemory PyDBLog.Mssql.InMemory

/-- Calls on the server in memory, with any commit between them. -/
def serverDriver : Driver Items where
  connector := server.source
  target := items
  moves m m' := Later m.source m'.source
  resumes := fallsBack
  admits _ _ := True

/-- The items as dump rows, stamped at one instant. -/
def served : DataFrame where
  schema := (itemDumps 0 []).schema.take 5 ++ [("id", .int32), ("name", .other "large_string")]
  rows := (itemDumps 10 [(1, "bolt"), (2, "nut")]).rows

set_option maxRecDepth 100000 in
/-- The stock opened, each statement a tick of the clock. -/
theorem stock_opens : serverDriver.opens ⟨0, none, 5, none⟩ stock =
    .ok ⟨itemsSpec, lsnAt 4, .utc 0, none, false⟩ (tick^[6] stock) := rfl

set_option maxRecDepth 100000 in
theorem stock_returned : serverDriver.call ⟨0, none, 5, none⟩ stock =
    .ok ⟨some served, ⟨itemsSpec, lsnAt 5, .utc 0, some 3, true⟩⟩ (tick^[12] stock) := rfl

/-- The bolt as a dump row. -/
def servedBolt : DataFrame := { served with rows := (itemDumps 10 [(1, "bolt")]).rows }

/-- The sale of the bolt over the nut as a dump row. -/
def servedSale (low : Datetime) : DataFrame :=
  { served with rows := saleDeletes.rows ++ (itemDumps low [(2, "nut")]).rows }

/-- The bolt is walked. -/
def boltWalked : RunState := ⟨itemsSpec, lsnAt 5, .utc 0, some 2, false⟩

/-- The sale is read and the nut walked. -/
def saleWalked : RunState := ⟨itemsSpec, lsnAt 9, .utc 0, some 3, true⟩

set_option maxRecDepth 100000 in
/-- The bolt is read and sold, a call waits for the capture job in vain, and the one after it reads
the sale and the nut; its state is lost, and they are read once more. -/
theorem sale_served : Run serverDriver (Fresh serverDriver) (lsnAt 4) (tick^[150] sold)
    [saleWalked, saleWalked, boltWalked] [servedBolt, servedSale 145, servedSale 152] := by
  have opens : serverDriver.opens ⟨0, none, 1, none⟩ stock =
      .ok ⟨itemsSpec, lsnAt 4, .utc 0, none, false⟩ (tick^[6] stock) := rfl
  have returned : serverDriver.call ⟨0, none, 1, none⟩ stock =
      .ok ⟨some servedBolt, boltWalked⟩ (tick^[12] stock) := rfl
  have waits : serverDriver.call ⟨0, some boltWalked, 5, none⟩ (tick^[12] unread) =
      .error _ (tick^[136] unread) := rfl
  have retried : serverDriver.call ⟨0, some boltWalked, 5, none⟩ (tick^[136] sold) =
      .ok ⟨some (servedSale 145), saleWalked⟩ (tick^[143] sold) := rfl
  have again : serverDriver.call ⟨0, some boltWalked, 5, none⟩ (tick^[143] sold) =
      .ok ⟨some (servedSale 152), saleWalked⟩ (tick^[150] sold) := rfl
  have begun : Run serverDriver (Fresh serverDriver) (lsnAt 4) (tick^[12] stock) [boltWalked] [servedBolt] :=
    .begins (.intro rfl trivial opens returned)
  have committed := begun.idles (later_ticks 12 stock_later_unread)
  have captured := (committed.raises List.mem_cons_self rfl waits).idles (later_ticks 136 unread_later_sold)
  have read := captured.returns List.mem_cons_self rfl trivial retried
  exact read.returns (List.mem_cons_of_mem _ List.mem_cons_self) rfl trivial again

theorem server_dump_reconstructs_stock : ∃ st : RunState,
    [saleWalked, saleWalked, boltWalked].head? = some st ∧ ∀ k,
      st.dumpDone = true ∨ (∃ c, st.chunkKey = some c ∧ k < c) →
        applyFrames items emptyMap [servedBolt, servedSale 145, servedSale 152] k =
          tableAt (fun _ => none) ((tick^[150] sold).source.entries items) st.lastLsn k :=
  server_dump_reconstructs (d := serverDriver) serves rfl rfl (fun _ _ h => h)
    (fun _ _ h => h) sale_served

end PyDBLog.Runs.OnServer
