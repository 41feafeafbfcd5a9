import PyDBLog.Runs.Reconstructs

/-! # A dump from a position the caller chose

`state_at_lsn()` admits a position the source has not reached. Until it is reached the calls read no
window, and a change below the position that commits to a key after the walk has read it is in
neither the chunks nor the log from there on. A run in which that does not happen (`Undisturbed`)
reconstructs the table (`positioned_dump_reconstructs`). -/

namespace PyDBLog.Runs.Positioned

open PyDBLog.Model.Python PyDBLog.Model.Frame PyDBLog.Model.Types PyDBLog.Model.Connector
open PyDBLog.Model.DBLog PyDBLog.Model.Returns PyDBLog.Model.Worlds
open PyDBLog.Replay.Basic PyDBLog.Replay.Cut PyDBLog.Replay.Dump
open PyDBLog.World.Log PyDBLog.World.Log.Source PyDBLog.World.Promises
open PyDBLog.Runs.Window PyDBLog.Runs.Calls PyDBLog.Runs.Page PyDBLog.Runs.Refines
open PyDBLog.Runs.Consumer PyDBLog.Runs.Reconstructs

variable {σ : Type} {d : Driver σ} {view : σ → Source} {init : Table ℤ Image}

/-- A call whose chunk scan is not disturbed: up to the instant `s` no change below `fromLsn`
commits to a key the scan covers after the scan has read the key. -/
def Undisturbed (d : Driver σ) (view : σ → Source) (init : Table ℤ Image) (fromLsn : LSN) (s : Source)
    (req : Request) (w : σ) : Prop :=
  ∀ opened w₁ low w₂, d.opens req w = .ok opened w₁ → d.connector.watermark w₁ = .ok low w₂ →
    ScanSafe d.connector view init d.target req.chunkSize opened fromLsn s w₂

/-- Where nothing commits below the position any more, no scan is disturbed. -/
theorem undisturbed_of_settled (hC : Laws d.connector view init d.target) {fromLsn : LSN} {s : Source}
    {req : Request} {w : σ} {st : RunState} (given : req.state = some st)
    (hd : d.target.Describes st.spec) (hc : 1 ≤ req.chunkSize) (hset : Settled (view w) fromLsn) :
    Undisturbed d view init fromLsn s req w := by
  intro opened w₁ low w₂ ho hlow
  have hw₁ : Later (view w) (view w₁) := (hC.later.openRun _ _ _ _ _).ok ho
  have hw₂ : Later (view w₁) (view w₂) := hC.later.watermark.ok hlow
  rw [Driver.opens, given] at ho
  have hopened := (openRun_carried hC.toLogLaws hd ho).1
  exact ScanSafe.of_settled hC hopened hc (hset.later (hw₁.trans hw₂))

/-- The map is right for the state, which is still at `fromLsn` or past a window that was read. -/
structure Stands (d : Driver σ) (view : σ → Source) (init : Table ℤ Image) (fromLsn : LSN) (s : Source)
    (w : σ) (m : Table ℤ Image) (st : RunState) : Prop where
  describes : d.target.Describes st.spec
  position : st.lastLsn = fromLsn ∨ Beyond (view w) st.lastLsn
  tracks : Tracks init (s.entries d.target) m st.lastLsn ⟨fromLsn, emptyMap⟩ (cursorOf st)
  holds : ∀ k ∈ covers st, m k = tableAt init (s.entries d.target) st.lastLsn k

theorem Stands.later {fromLsn : LSN} {s : Source} {w w' : σ} {m : Table ℤ Image} {st : RunState}
    (h : Stands d view init fromLsn s w m st) (hw : Later (view w) (view w')) :
    Stands d view init fromLsn s w' m st :=
  ⟨h.describes, h.position.imp id fun hb => hb.later hw, h.tracks, h.holds⟩

/-- One more call, undisturbed. -/
theorem Stands.returns (hC : Laws d.connector view init d.target) {fromLsn : LSN} {s : Source}
    {w w' : σ} {m : Table ℤ Image} {st : RunState} {req : Request} {b : BatchResult}
    (h : Stands d view init fromLsn s w m st) (hs : Future d.target (view w') s)
    (given : req.state = some st) (hclear : Undisturbed d view init fromLsn s req w)
    (returned : d.call req w = .ok b w') :
    Stands d view init fromLsn s w' (applyFrame d.target m b.frame) b.state := by
  obtain ⟨name, hpk⟩ := hC.single_key
  have hk := Target.leading_mem hpk
  have hlater := Driver.returned_moves hC.later returned
  obtain ⟨opened, w₁, rows, high, window, hc, ho, hr, hd, hlsn, hkey, hdone⟩ :=
    Driver.carried hC.toLogLaws h.describes given returned
  have hcursor : cursorOf opened = cursorOf st := cursorOf_congr hlsn hkey hdone
  obtain ⟨hread, hspec⟩ := BatchRead.window hC.toLogLaws hd hr
  -- at its first position the call is undisturbed, past a window nothing commits below it
  have hsafe : ∀ w₁ low w₂, d.opens req w = .ok opened w₁ → d.connector.watermark w₁ = .ok low w₂ →
      ScanSafe d.connector view init d.target req.chunkSize opened opened.lastLsn s w₂ := by
    intro w₁ low w₂ ho' hlow
    rcases h.position with hfrom | hbeyond
    · rw [hlsn, hfrom]; exact hclear opened w₁ low w₂ ho' hlow
    · refine ScanSafe.of_settled hC hd hc ?_
      rw [hlsn]
      refine hbeyond.settled.later (Later.trans ?_ (hC.later.watermark.ok hlow))
      exact (hC.later.openRun _ _ _ _ _).ok ho'
  obtain ⟨dumps, hrows, -, hbatch⟩ := BatchRead.refines hC hr hd hc hs.1 hs.2 hsafe
  rw [hcursor] at hbatch
  have hstill : ∀ a ∈ s.entries d.target, b.state.lastLsn ≤ a.pos → st.lastLsn ≤ a.pos :=
    fun a _ hle => (hlsn ▸ hread.le).trans hle
  have htracks := h.tracks.batch hbatch (s.ordered_entries _) hstill
  rw [← hcursor, ← frameWrites_delivered hk hrows, ← applyFrame_eq] at htracks
  refine ⟨hspec ▸ hd, ?_, ?_, fun k hcov => ?_⟩
  · rcases Read.beyond hread with hq | hbeyond
    · refine (h.position.imp (fun hp => ?_) fun hb => ?_)
      · rw [hq, hlsn, hp]
      · rw [hq, hlsn]; exact hb.later hlater
    · exact Or.inr hbeyond
  · rwa [show max st.lastLsn (cursorOf b.state).pos = b.state.lastLsn from
      max_eq_right (hlsn ▸ hread.le)] at htracks
  · have hcov' : k ∈ (cursorOf b.state).covers := hcov
    exact htracks.reconstructs (s.ordered_entries _) hstill (fun _ => rfl) hcov'

theorem Run.stands (hC : Laws d.connector view init d.target)
    (hmoves : ∀ w w', d.moves w w' → Later (view w) (view w'))
    (hthread : ∀ known st, d.resumes known st → threads known st) {fromLsn : LSN} {s : Source}
    (hadmits : ∀ req w, d.admits req w → Undisturbed d view init fromLsn s req w) {w : σ}
    {known : List RunState} {frames : List DataFrame} (run : Run d (Built d false) fromLsn w known frames)
    (hs : Future d.target (view w) s) :
    ∃ st, threads known st ∧
      Stands d view init fromLsn s w (applyFrames d.target emptyMap frames) st := by
  induction run with
  | begins h =>
    obtain ⟨hd, hb⟩ := h
    obtain ⟨spec, -, -, -, -, -, -, -, rfl⟩ := stateAtLsn_ok.mp hb
    have hnone : ∀ i, covers ⟨spec, fromLsn, .utc i, none, false⟩ = ∅ := by simp [covers]
    refine ⟨_, rfl, hd, Or.inl rfl, ?_, fun k hk => ?_⟩
    · exact Tracks.opening rfl le_rfl rfl (hnone _)
    · rw [hnone] at hk; exact absurd hk (Set.notMem_empty k)
  | idles run moved ih =>
    have hm := hmoves _ _ moved
    obtain ⟨st, hk, hst⟩ := ih (hs.later hm)
    exact ⟨st, hk, hst.later hm⟩
  | raises run resumed given raised ih =>
    have hm := Driver.raised_moves hC.later raised
    obtain ⟨st, hk, hst⟩ := ih (hs.later hm)
    exact ⟨st, hk, hst.later hm⟩
  | returns run resumed given admitted returned ih =>
    have hm := Driver.returned_moves hC.later returned
    obtain ⟨st, hk, hst⟩ := ih (hs.later hm)
    obtain rfl := Option.some.inj (hk.symm.trans (hthread _ _ resumed))
    rw [applyFrames_append_toList]
    exact ⟨_, rfl, hst.returns hC hs given (hadmits _ _ admitted) returned⟩

/-- **A dump from a position**: a run in which no chunk scan is disturbed leaves, once the dump is
done, the table at the position it got to. -/
theorem positioned_dump_reconstructs (hC : Laws d.connector view init d.target)
    (hmoves : ∀ w w', d.moves w w' → Later (view w) (view w'))
    (hthread : ∀ known st, d.resumes known st → threads known st) {fromLsn : LSN} {w : σ}
    (hadmits : ∀ req w₀, d.admits req w₀ → Undisturbed d view init fromLsn (view w) req w₀)
    {known : List RunState} {frames : List DataFrame}
    (run : Run d (Built d false) fromLsn w known frames) :
    ∃ st, threads known st ∧ (st.dumpDone = true → ∀ k,
      applyFrames d.target emptyMap frames k =
        tableAt init ((view w).entries d.target) st.lastLsn k) := by
  obtain ⟨st, hk, hst⟩ := Run.stands hC hmoves hthread hadmits run ⟨Later.refl _, hC.int_keys w⟩
  exact ⟨st, hk, fun hdone k => hst.holds k (Or.inl hdone)⟩

open PyDBLog.World.InMemory

/-- Calls on the items for as long as nothing can commit below the third position. -/
def settledDriver : Driver Items :=
  { itemsDriver threads with admits := fun req m => 1 ≤ req.chunkSize ∧
      (∃ st, req.state = some st ∧ items.Describes st.spec) ∧ Settled m.source (lsnAt 3) }

/-- A run on the stock from the position `n`. -/
theorem stock_built (d : Driver Items) (n : ℕ)
    (h : stateAtLsn d.connector 0 d.target.schema d.target.table (lsnAt n) false stock
      = .ok (openAt n) stock) (ht : d.target = items) :
    Run d (Built d false) (lsnAt n) stock [openAt n] [] :=
  .begins (.intro (ht ▸ Memory.spec_describes items) h)

/-- A walk of the stock from the third position. -/
theorem positioned_dump_reconstructs_stock : ∃ st, threads [walkedTo 5, openAt 3] st ∧
    (st.dumpDone = true → ∀ k, applyFrames items emptyMap [stockDumps] k =
      tableAt emptyMap (stock.source.entries items) st.lastLsn k) := by
  have hC : Laws settledDriver.connector Memory.source emptyMap items := Memory.laws ⟨"id", rfl⟩
  have built := stock_built settledDriver 3 rfl rfl
  have admitted : settledDriver.admits ⟨0, some (openAt 3), 5, none⟩ stock := by
    refine ⟨show (1 : ℤ) ≤ 5 by norm_num, ⟨_, rfl, Memory.spec_describes items⟩, fun s hs c hc => ?_⟩
    exact (show lsnAt 3 ≤ lsnAt 4 by decide).trans (hs.above_mark c hc).le
  have returned : settledDriver.call ⟨0, some (openAt 3), 5, none⟩ stock =
      .ok ⟨some stockDumps, walkedTo 5⟩ stock := rfl
  refine positioned_dump_reconstructs hC (fun _ _ h => h) (fun _ _ h => h) ?_
    (.returns built rfl rfl admitted returned)
  rintro req m ⟨hsize, ⟨st, given, hd⟩, hset⟩
  exact undisturbed_of_settled hC given hd hsize hset

/-- **What a position ahead of the source misses**: from the eighth position the walk of the stock
reads no window, and once it is over the sale of the bolt commits below the position. -/
theorem positioned_dump_misses_sale :
    Laws (itemsDriver threads).connector Memory.source emptyMap items ∧
    ∃ m known frames st, Run (itemsDriver threads) (Built (itemsDriver threads) false) (lsnAt 8) m
        known frames ∧
      threads known st ∧ st.dumpDone = true ∧ m.source.mark < st.lastLsn ∧
      ∃ k, applyFrames items emptyMap frames k ≠
        tableAt emptyMap (m.source.entries items) st.lastLsn k := by
  refine ⟨Memory.laws ⟨"id", rfl⟩, ?_⟩
  have built := stock_built (itemsDriver threads) 8 rfl rfl
  have admitted : ∀ st m, (itemsDriver threads).admits ⟨0, some st, 5, none⟩ m := fun _ _ =>
    show (5 : ℤ) ≤ 5 from le_rfl
  have walk : (itemsDriver threads).call ⟨0, some (openAt 8), 5, none⟩ stock =
      .ok ⟨some stockDumps, walkedTo 8⟩ stock := rfl
  have tail : (itemsDriver threads).call ⟨0, some (walkedTo 8), 5, none⟩ sold =
      .ok ⟨none, walkedTo 9⟩ sold := rfl
  have walked := Run.returns built rfl rfl (admitted _ _) walk
  have moved := Run.idles walked stock_later_sold
  refine ⟨sold, _, _, walkedTo 9, .returns moved rfl rfl (admitted _ _) tail, rfl, rfl, by decide, 1, ?_⟩
  decide

end PyDBLog.Runs.Positioned
