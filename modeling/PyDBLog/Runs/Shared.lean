import PyDBLog.Runs.OnServer

/-! # Consumers side by side

Nothing about where a run got to lives anywhere but in its state, so any number of consumers can
share a server, a connector and a table: their calls are taken in any order, with any commits around
them and in them, and what each has written is right for the table it reads
(`interleaved_reconstruct`). Two that read one table agree wherever they stand at one position
(`parties_agree`). -/

namespace PyDBLog.Runs.Shared

open PyDBLog.Model.Python PyDBLog.Model.Frame PyDBLog.Model.Types PyDBLog.Model.Connector
open PyDBLog.Model.DBLog PyDBLog.Model.Worlds
open PyDBLog.Mssql.Connector PyDBLog.Mssql.Driver PyDBLog.Mssql.Server
open PyDBLog.Replay.Basic PyDBLog.Replay.Cut PyDBLog.World.Log PyDBLog.World.Log.Source
open PyDBLog.Runs.Calls PyDBLog.Runs.Page PyDBLog.Runs.Consumer PyDBLog.Runs.Reconstructs
  PyDBLog.Runs.OnServer

variable {σ V ι : Type}

/-- A consumer that has begun: the position its run opened at, the states it was handed and the
frames it wrote. -/
structure Party where
  opened : LSN
  known : List RunState
  frames : List DataFrame

/-- **Consumers taking turns**, a call at a time. One that begins again drops what it wrote. -/
inductive Interleaved [DecidableEq ι] (d : ι → Driver σ) : σ → (ι → Option Party) → Prop
  | begins (w : σ) : Interleaved d w fun _ => none
  | idles {i w parties w'} (execution : Interleaved d w parties) (moved : (d i).moves w w') :
      Interleaved d w' parties
  | raises {i w parties req e w'} (execution : Interleaved d w parties)
      (raised : (d i).call req w = .error e w') : Interleaved d w' parties
  | starts {i w parties req opened w₁ b w'} (execution : Interleaved d w parties)
      (fresh : req.state = none) (admitted : (d i).admits req w)
        (opens : (d i).opens req w = .ok opened w₁)
      (returned : (d i).call req w = .ok b w') :
      Interleaved d w' (Function.update parties i (some ⟨opened.lastLsn, [b.state], b.frame.toList⟩))
  | returns {i w parties party state req b w'} (execution : Interleaved d w parties)
      (held : parties i = some party) (resumed : (d i).resumes party.known state)
      (given : req.state = some state) (admitted : (d i).admits req w)
      (returned : (d i).call req w = .ok b w') :
      Interleaved d w' (Function.update parties i
        (some ⟨party.opened, b.state :: party.known, party.frames ++ b.frame.toList⟩))

variable [LinearOrder V] [DecidableEq ι] {db : ι → Database σ V} {conn : ι → MSSQLConnector σ}
  {d : ι → Driver σ} {i j : ι} {w w' : σ} {parties : ι → Option Party} {party party' : Party}

/-- The driver alone with its table, where anything may happen between the calls that keeps the
log. -/
def alone (db : Database σ V) (d : Driver σ) : Driver σ :=
  { d with moves := fun w w' => Later (db.view w) (db.view w') }

omit [DecidableEq ι] in
/-- Whoever calls, the log of every table goes on. -/
theorem call_later (h : ∀ i j, Serves (db i) (conn j)) (hconn : ∀ i, (d i).connector = (conn i).source)
    (i j : ι) (req : Request) :
    Moves (fun w w' => Later ((db i).view w) ((db i).view w')) ((d j).call req) := by
  refine Driver.moves_call ?_ req
  rw [hconn j]
  exact (h i j).later.moving_source

/-- **What one consumer went through is a run of its own.** -/
theorem Interleaved.run (h : ∀ i j, Serves (db i) (conn j))
    (hconn : ∀ i, (d i).connector = (conn i).source)
    (hmoves : ∀ i j w w', (d j).moves w w' → Later ((db i).view w) ((db i).view w'))
    (execution : Interleaved d w parties) (held : parties i = some party) :
    Run (alone (db i) (d i)) (Fresh (alone (db i) (d i))) party.opened w party.known party.frames := by
  induction execution generalizing party with
  | begins w => cases held
  | idles execution moved ih => exact .idles (ih held) (hmoves i _ _ _ moved)
  | raises execution raised ih => exact .idles (ih held) ((call_later h hconn i _ _).error raised)
  | @starts j w parties req opened w₁ b w' execution fresh admitted opens returned ih =>
    by_cases hij : i = j
    · subst hij
      rw [Function.update_self] at held
      obtain rfl := Option.some.inj held
      exact .begins (.intro fresh admitted opens returned)
    · rw [Function.update_of_ne hij] at held
      exact .idles (ih held) ((call_later h hconn i j req).ok returned)
  | @returns j w parties party' state req b w' execution held' resumed given admitted returned ih =>
    by_cases hij : i = j
    · subst hij
      rw [Function.update_self] at held
      obtain rfl := Option.some.inj held
      exact .returns (ih held') resumed given admitted returned
    · rw [Function.update_of_ne hij] at held
      exact .idles (ih held) ((call_later h hconn i j req).ok returned)

/-- The map a consumer has made is right for its last state. -/
theorem Interleaved.holds (h : ∀ i j, Serves (db i) (conn j))
    (hconn : ∀ i, (d i).connector = (conn i).source) (htarget : ∀ i, (d i).target = (db i).target)
    (hmoves : ∀ i j w w', (d j).moves w w' → Later ((db i).view w) ((db i).view w'))
    (hresumes : ∀ i known st, (d i).resumes known st → fallsBack known st)
    (execution : Interleaved d w parties) (held : parties i = some party) :
    ∃ st, party.known.head? = some st ∧ ∀ k ∈ covers st,
      applyFrames (db i).target emptyMap party.frames k =
        tableAt (db i).init (((db i).view w).entries (db i).target) st.lastLsn k := by
  have run := execution.run h hconn hmoves held
  obtain ⟨st, hk, hholds⟩ :=
    Run.holds (d := alone (db i) (d i)) (h i i) (hconn i) (htarget i) (fun _ _ h => h) (hresumes i) run
  exact ⟨st, hk, fun k hcov => reconstructed hholds hcov⟩

/-- **Every consumer reconstructs its table**, whatever the others do. -/
theorem interleaved_reconstruct (h : ∀ i j, Serves (db i) (conn j))
    (hconn : ∀ i, (d i).connector = (conn i).source) (htarget : ∀ i, (d i).target = (db i).target)
    (hmoves : ∀ i j w w', (d j).moves w w' → Later ((db i).view w) ((db i).view w'))
    (hresumes : ∀ i known st, (d i).resumes known st → fallsBack known st)
    (execution : Interleaved d w parties) : ∀ i, ∀ party ∈ parties i,
      ∃ st, party.known.head? = some st ∧ ∀ k, st.dumpDone = true ∨ (∃ c, st.chunkKey = some c ∧ k < c) →
        applyFrames (db i).target emptyMap party.frames k =
          tableAt (db i).init (((db i).view w).entries (db i).target) st.lastLsn k :=
  fun _ _ held => execution.holds h hconn htarget hmoves hresumes held

/-- Two consumers of one table that are done with it and stand at one position have made the same
map. -/
theorem parties_agree (h : ∀ i j, Serves (db i) (conn j))
    (hconn : ∀ i, (d i).connector = (conn i).source) (htarget : ∀ i, (d i).target = (db i).target)
    (hmoves : ∀ i j w w', (d j).moves w w' → Later ((db i).view w) ((db i).view w'))
    (hresumes : ∀ i known st, (d i).resumes known st → fallsBack known st)
    (execution : Interleaved d w parties) (hdb : db i = db j) (hi : parties i = some party)
    (hj : parties j = some party') {st st' : RunState} (hst : party.known.head? = some st)
    (hst' : party'.known.head? = some st') (hdone : st.dumpDone = true) (hdone' : st'.dumpDone = true)
    (hpos : st.lastLsn = st'.lastLsn) :
    applyFrames (db i).target emptyMap party.frames =
      applyFrames (db i).target emptyMap party'.frames := by
  obtain ⟨_, hk, hmap⟩ := execution.holds h hconn htarget hmoves hresumes hi
  obtain ⟨_, hk', hmap'⟩ := execution.holds h hconn htarget hmoves hresumes hj
  obtain rfl := Option.some.inj (hst.symm.trans hk)
  obtain rfl := Option.some.inj (hst'.symm.trans hk')
  funext k
  rw [hmap k (Or.inl hdone), hpos, hdb]
  exact (hmap' k (Or.inl hdone')).symm

/-! ### Two consumers of the items -/

open PyDBLog.World.InMemory PyDBLog.Mssql.InMemory

/-- The items as dump rows, stamped when the second consumer reads them. -/
def servedAgain : DataFrame := { served with rows := (itemDumps 22 [(1, "bolt"), (2, "nut")]).rows }

/-- What the two hold once both have walked the stock. -/
def both : Bool → Option Party :=
  Function.update
    (Function.update (fun _ => none) false
      (some ⟨lsnAt 4, [⟨itemsSpec, lsnAt 5, .utc 0, some 3, true⟩], [served]⟩))
    true (some ⟨lsnAt 4, [⟨itemsSpec, lsnAt 5, .utc 0, some 3, true⟩], [servedAgain]⟩)

set_option maxRecDepth 100000 in
theorem both_interleaved : Interleaved (fun _ : Bool => serverDriver) (tick^[24] stock) both := by
  have opens : serverDriver.opens ⟨0, none, 5, none⟩ (tick^[12] stock) =
      .ok ⟨itemsSpec, lsnAt 4, .utc 0, none, false⟩ (tick^[18] stock) := rfl
  have returned : serverDriver.call ⟨0, none, 5, none⟩ (tick^[12] stock) =
      .ok ⟨some servedAgain, ⟨itemsSpec, lsnAt 5, .utc 0, some 3, true⟩⟩ (tick^[24] stock) := rfl
  have begun := Interleaved.begins (d := fun _ : Bool => serverDriver) stock
  have first := begun.starts (i := false) rfl trivial stock_opens stock_returned
  exact first.starts (i := true) rfl trivial opens returned

theorem interleaved_reconstruct_both : ∃ st : RunState,
    [⟨itemsSpec, lsnAt 5, .utc 0, some 3, true⟩].head? = some st ∧ ∀ k,
      st.dumpDone = true ∨ (∃ c, st.chunkKey = some c ∧ k < c) →
        applyFrames items emptyMap [servedAgain] k =
          tableAt (fun _ => none) ((tick^[24] stock).source.entries items) st.lastLsn k :=
  interleaved_reconstruct (fun _ _ => serves) (fun _ => rfl) (fun _ => rfl) (fun _ _ _ _ h => h)
    (fun _ _ _ h => h) both_interleaved true _ rfl

end PyDBLog.Runs.Shared
