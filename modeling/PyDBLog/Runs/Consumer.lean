import PyDBLog.Runs.Refines

/-! # What a consumer may come back to

Two facts about positions carry every argument about runs. A position is `Settled` when nothing
commits below it any more; it is beyond an instant (`Beyond`) when nothing above the position
reported at that instant lies below it. The position a call opens at is settled (`opens_settled`),
the one it hands back is beyond the world it leaves (`BatchRead.beyond`), so that a call is a batch
of every log the source grows to (`BatchRead.batch`).

A `Ledger` holds the consumer's map against every state a caller may still use, each with the
position its run opened at and the map at that moment. Calls on any of them, and calls that open a
new run, keep it. -/

namespace PyDBLog.Runs.Consumer

open PyDBLog.Model.Python PyDBLog.Model.Frame PyDBLog.Model.Types PyDBLog.Model.Connector
open PyDBLog.Model.DBLog PyDBLog.Model.Returns PyDBLog.Model.Worlds
open PyDBLog.Replay.Basic PyDBLog.Replay.Cut PyDBLog.Replay.Dump
open PyDBLog.World.Log PyDBLog.World.Log.Source PyDBLog.World.Promises
open PyDBLog.Runs.Window PyDBLog.Runs.Calls PyDBLog.Runs.Page PyDBLog.Runs.Refines

/-- Nothing commits below the position any more. -/
def Settled (s : Source) (p : LSN) : Prop := ∀ s', Later s s' → ∀ c ∈ added s s', p ≤ c.startLsn

/-- Whatever lies above the position reported at the instant lies at or above `p`, now and later. -/
def Beyond (s : Source) (p : LSN) : Prop :=
  ∀ s', Later s s' → ∀ c ∈ s'.changes, s.mark < c.startLsn → p ≤ c.startLsn

/-- A later instant whose changes have integer keys. -/
def Future (t : Target) (s s' : Source) : Prop :=
  Later s s' ∧ ∀ c ∈ s'.changes, ∃ k, c.cells t.leading = .int k

section positions

variable {s s' : Source} {t : Target} {p q high : LSN} {window : Option DataFrame}

theorem Settled.later (h : Settled s p) (hs : Later s s') : Settled s' p :=
  fun s'' hs'' c hc => h s'' (hs.trans hs'') c ((mem_added_trans hs hs'').mpr (Or.inr hc))

theorem Beyond.settled (h : Beyond s p) : Settled s p :=
  fun s' hs c hc => h s' hs c (hs.mem.mpr (Or.inr hc)) (hs.above_mark c hc)

theorem Beyond.later (h : Beyond s p) (hs : Later s s') : Beyond s' p :=
  fun s'' hs'' c hc hlt => h s'' (hs.trans hs'') c hc (hs.mark_le.trans_lt hlt)

theorem Beyond.anti (h : Beyond s p) (hq : q ≤ p) : Beyond s q :=
  fun s' hs c hc hlt => hq.trans (h s' hs c hc hlt)

theorem Beyond.max (hp : Beyond s p) (hq : Beyond s q) : Beyond s (max p q) :=
  fun s' hs c hc hlt => max_le (hp s' hs c hc hlt) (hq s' hs c hc hlt)

theorem beyond_nil (s : Source) : Beyond s [] := fun _ _ c _ _ => not_lt.mp (List.not_lt_nil c.startLsn)

/-- The end of a window that was read is beyond. -/
theorem Read.beyond (hr : Read t p window high q s) : q = p ∨ Beyond s q := by
  refine hr.ends.imp id fun ⟨_, hc⟩ s' hs c hc' hlt => ?_
  exact not_lt.mp fun h => absurd ((hc c.startLsn (s'.wide c hc')).mp h)
    (not_le.mpr (hr.high_le.trans_lt hlt))

theorem Beyond.read (hp : Beyond s p) (hr : Read t p window high q s) : Beyond s q := by
  rcases Read.beyond hr with rfl | h
  · exact hp
  · exact h

theorem Future.later {s'' : Source} (h : Future t s' s'') (hs : Later s s') : Future t s s'' :=
  ⟨hs.trans h.1, h.2⟩

end positions

variable {σ : Type} {C : SourceConnector σ} {view : σ → Source} {init : Table ℤ Image} {t : Target}
  {w w' w₁ : σ} {now chunkSize : ℤ} {inspectEvery : Option Timedelta} {state : Option RunState}
  {opened : RunState} {rows : List Row} {high : LSN} {window : Option DataFrame} {b : BatchResult}

/-! ### Positions of a call -/

/-- A fresh run opens at the greater of a reported position and a floor. -/
theorem seed_position (hC : ClockLaws C view t)
    (h : openRun C now t.schema t.table none inspectEvery w = .ok opened w₁) :
    ∃ i j captureInstance, Later i j ∧ Later (view w) i ∧ Later j (view w₁) ∧
      opened.lastLsn = max j.mark (i.floor captureInstance) ∧ opened.chunkKey = none ∧
      opened.dumpDone = false := by
  obtain ⟨spec, ci, w₂, floor, w₃, m, hi, -, hf, hm, rfl⟩ := seed_ok.mp h
  obtain ⟨i, hi', rfl⟩ := hC.minLsn_floor hf
  obtain ⟨j, hj, rfl⟩ := hC.maxLsn_mark hm
  exact ⟨i, j, ci, hi'.2.trans hj.1, ((hC.later.inspect _ _).ok hi).trans hi'.1, hj.2, rfl, rfl, rfl⟩

/-- **The position a call opens at is settled.** -/
theorem opens_settled (hC : ClockLaws C view t) (hd : ∀ st ∈ state, t.Describes st.spec)
    (hb : ∀ st ∈ state, Beyond (view w) st.lastLsn)
    (h : openRun C now t.schema t.table state inspectEvery w = .ok opened w₁) :
    Settled (view w₁) opened.lastLsn := by
  cases state with
  | none =>
    obtain ⟨i, j, ci, hij, -, hj, hl, -, -⟩ := seed_position hC h
    intro s hs c hc
    rw [hl]
    refine max_le ?_ ?_
    · exact ((hj.trans hs).above_mark c ((mem_added_trans hj hs).mpr (Or.inr hc))).le
    · have hi := hij.trans hj
      exact (hi.trans hs).above_floor c ((mem_added_trans hi hs).mpr (Or.inr hc)) ci
  | some st =>
    rw [(openRun_carried hC.toLogLaws (hd st rfl) h).2.1]
    exact (hb st rfl).settled.later ((hC.later.openRun _ _ _ _ _).ok h)

/-- The source is later after a page, and later again once the high watermark is awaited. -/
theorem bracket_later (hC : ClockLaws C view t) {st : RunState} {page : Option DataFrame × RunState}
    {low mark : Datetime} {w₂ w₃ w₄ w₅ : σ} (hlow : C.watermark w₁ = .ok low w₂)
    (hp : nextChunk C st chunkSize w₂ = .ok page w₃) (hmark : C.watermark w₃ = .ok mark w₄)
    (ha : C.awaitWatermark mark w₄ = .ok () w₅) :
    Later (view w₁) (view w₃) ∧ Later (view w₁) (view w₅) := by
  have hpage : Later (view w₁) (view w₃) :=
    (hC.later.watermark.ok hlow).trans ((hC.later.nextChunk _ _).ok hp)
  have hwait : Later (view w₃) (view w₅) :=
    (hC.later.watermark.ok hmark).trans ((hC.later.awaitWatermark _).ok ha)
  exact ⟨hpage, hpage.trans hwait⟩

/-- The steps of a call that positions depend on: it opens, and closes its window on a source that,
in a dump call, has reported everything committed when it opened. -/
theorem BatchRead.steps (hC : ClockLaws C view t)
    (h : BatchRead C now t.schema t.table chunkSize inspectEvery state w opened rows high window b w') :
    ∃ w₁ w₅ w₆ paged, openRun C now t.schema t.table state inspectEvery w = .ok opened w₁ ∧
      Later (view w₁) (view w₅) ∧ WindowRead C paged w₅ high window b.state w₆ ∧
      Later (view w₆) (view w') ∧ (opened.dumpDone = false →
        ∀ i, Later i (view w₁) → ∀ c ∈ i.changes, c.startLsn ≤ (view w₅).mark) := by
  cases h with
  | tail ho hdone hw =>
    exact ⟨_, _, _, _, ho, Later.refl _, hw, Later.refl _, fun h => by rw [h] at hdone; cases hdone⟩
  | last ho hwalking hlow hp hmark ha hw =>
    obtain ⟨hpage, hwait⟩ := bracket_later hC hlow (nextChunk_ok.mpr ⟨_, hp⟩) hmark ha
    exact ⟨_, _, _, _, ho, hwait, hw, Later.refl _,
      fun _ i hi => committed_le hC (hi.trans hpage) hmark ha⟩
  | chunk ho hwalking hlow hp hmark ha hw hmerge =>
    obtain ⟨hpage, hwait⟩ := bracket_later hC hlow (nextChunk_ok.mpr ⟨_, hp⟩) hmark ha
    exact ⟨_, _, _, _, ho, hwait, hw, (hC.later.mergeChunk _ _ _ _).ok hmerge,
      fun _ i hi => committed_le hC (hi.trans hpage) hmark ha⟩

theorem WindowRead.later (hC : ClockLaws C view t) {st st' : RunState}
    (h : WindowRead C st w high window st' w') : Later (view w) (view w') :=
  (hC.later.readWindow _).ok (readWindow_ok.mpr ⟨_, h⟩)

/-- The position reported when the window closes is at or above the one reported before the call. -/
theorem BatchRead.mark_le (hC : ClockLaws C view t)
    (h : BatchRead C now t.schema t.table chunkSize inspectEvery state w opened rows high window b w') :
    (view w).mark ≤ high := by
  obtain ⟨w₁, w₅, w₆, paged, ho, h15, hw, -, -⟩ := BatchRead.steps hC h
  exact (((hC.later.openRun _ _ _ _ _).ok ho).trans h15).mark_le.trans (WindowRead.mark_le hC hw)

theorem BatchRead.later (hC : ClockLaws C view t)
    (h : BatchRead C now t.schema t.table chunkSize inspectEvery state w opened rows high window b w') :
    Later (view w) (view w') := by
  obtain ⟨w₁, w₅, w₆, paged, ho, h15, hw, h6, -⟩ := BatchRead.steps hC h
  exact (((hC.later.openRun _ _ _ _ _).ok ho).trans h15).trans ((WindowRead.later hC hw).trans h6)

/-- **The position a call hands back is beyond the world it leaves.** -/
theorem BatchRead.beyond (hC : ClockLaws C view t) (hd : t.Describes opened.spec)
    (hdescribes : ∀ st ∈ state, t.Describes st.spec)
    (hb : ∀ st ∈ state, Beyond (view w) st.lastLsn)
    (h : BatchRead C now t.schema t.table chunkSize inspectEvery state w opened rows high window b w') :
    Beyond (view w') b.state.lastLsn := by
  refine Beyond.read ?_ (BatchRead.window hC.toLogLaws hd h).1
  cases state with
  | none =>
    obtain ⟨w₁, w₅, w₆, paged, ho, h15, hw, h6, hcommitted⟩ := BatchRead.steps hC h
    obtain ⟨i, j, ci, hij, -, hj, hl, -, hwalking⟩ := seed_position hC ho
    have h5 : Later (view w₅) (view w') := (WindowRead.later hC hw).trans h6
    intro s hs c hcs hlt
    have hjs : Later j s := (hj.trans (h15.trans h5)).trans hs
    rw [hl]
    refine max_le ((hj.trans (h15.trans h5)).mark_le.trans hlt.le) ?_
    -- what was committed when the floor was read has been reported since
    rcases (hij.trans hjs).mem.mp hcs with hold | hnew
    · exact absurd ((hcommitted hwalking i (hij.trans hj) c hold).trans h5.mark_le) (not_le.mpr hlt)
    · exact (hij.trans hjs).above_floor c hnew ci
  | some st =>
    obtain ⟨w₁, -, -, -, ho, -⟩ := BatchRead.steps hC h
    rw [(openRun_carried hC.toLogLaws (hdescribes st rfl) ho).2.1]
    exact (hb st rfl).later (BatchRead.later hC h)

/-- A settled position makes every page safe. -/
theorem ScanSafe.of_settled (hC : Laws C view init t) {w₂ : σ} {s : Source}
    (hd : t.Describes opened.spec) (hc : 1 ≤ chunkSize) {p : LSN} (hset : Settled (view w₂) p) :
    ScanSafe C view init t chunkSize opened p s w₂ := by
  intro rows w₃ asked hs
  obtain ⟨seen, hseen, hpage⟩ := hC.readTable hd hc asked
  refine ⟨seen, hseen, hpage, fun k _ c hcs _ => ?_⟩
  have hks := (hseen k).2.trans hs
  exact hset s ((hseen k).1.trans hks) c ((mem_added_trans (hseen k).1 hks).mpr (Or.inr hcs))

/-- **A call is a batch** of every log the source grows to. -/
theorem BatchRead.batch (hC : Laws C view init t) (hd : t.Describes opened.spec) (hc : 1 ≤ chunkSize)
    (hdescribes : ∀ st ∈ state, t.Describes st.spec)
    (hb : ∀ st ∈ state, Beyond (view w) st.lastLsn)
    (h : BatchRead C now t.schema t.table chunkSize inspectEvery state w opened rows high window b w')
    {s : Source} (hs : Future t (view w') s) :
    ∃ dumps, HasRows t ((s.segment opened.lastLsn b.state.lastLsn).map (Change.eventRow t.columns) ++ dumps)
        b.frame ∧ (∀ row ∈ dumps, DumpRow row) ∧
      Batch init (s.entries t) (cursorOf opened) (dumps.map (eventWrite t)) (cursorOf b.state) := by
  refine BatchRead.refines hC h hd hc hs.1 hs.2 fun w₁ low w₂ ho hlow => ?_
  refine ScanSafe.of_settled hC hd hc ?_
  exact (opens_settled hC.clocked hdescribes hb ho).later (hC.later.watermark.ok hlow)

/-- Nothing lies from the position a call hands back on and below one that was beyond before it. -/
theorem BatchRead.still (hC : ClockLaws C view t) (hd : t.Describes opened.spec) {top : LSN}
    (htop : Beyond (view w) top)
    (h : BatchRead C now t.schema t.table chunkSize inspectEvery state w opened rows high window b w')
    {s : Source} (hs : Later (view w') s) : ∀ c ∈ s.changes, b.state.lastLsn ≤ c.startLsn →
      top ≤ c.startLsn := by
  intro c hcs hle
  refine htop s ((BatchRead.later hC h).trans hs) c hcs ?_
  have hhigh := (BatchRead.window hC.toLogLaws hd h).1.high_lt
  exact (BatchRead.mark_le hC h).trans_lt (hhigh.trans_le hle)

/-! ### The ledger -/

/-- The map against every state a caller may come back to. -/
structure Ledger (view : σ → Source) (init : Table ℤ Image) (t : Target) (w : σ) (m : Table ℤ Image)
    (held : List (Origin LSN ℤ Image × RunState)) (top : LSN) : Prop where
  beyond : Beyond (view w) top
  describes : ∀ x ∈ held, t.Describes x.2.spec
  tracks : ∀ x ∈ held, ∀ s, Future t (view w) s → Tracks init (s.entries t) m top x.1 (cursorOf x.2)

/-- What the map holds for a state whose batch has just been applied, under the keys it has
passed. -/
def Holds (view : σ → Source) (init : Table ℤ Image) (t : Target) (w : σ) (m : Table ℤ Image)
    (o : Origin LSN ℤ Image) (st : RunState) : Prop :=
  ∀ s, Future t (view w) s → ∀ k ∈ covers st, m k = tableAt init (s.entries t) st.lastLsn k ∨
    Quiet (s.entries t) k o.pos st.lastLsn ∧ m k = o.held k ∧
      tableAt init (s.entries t) st.lastLsn k = none

variable {m : Table ℤ Image} {held : List (Origin LSN ℤ Image × RunState)} {top : LSN}
  {o : Origin LSN ℤ Image}

theorem Ledger.empty (w : σ) : Ledger view init t w m [] [] where
  beyond := beyond_nil _
  describes := by simp
  tracks := by simp

theorem Ledger.later (h : Ledger view init t w m held top) (hw : Later (view w) (view w')) :
    Ledger view init t w' m held top where
  beyond := h.beyond.later hw
  describes := h.describes
  tracks x hx s hs := h.tracks x hx s (hs.later hw)

theorem Holds.later {st : RunState} (h : Holds view init t w m o st) (hw : Later (view w) (view w')) :
    Holds view init t w' m o st := fun s hs => h s (hs.later hw)

/-- Every state of the ledger lies behind its furthest position, which is beyond the source. -/
theorem Ledger.beyond_of_mem (h : Ledger view init t w m held top) (hfuture : ∃ s, Future t (view w) s)
    {x : Origin LSN ℤ Image × RunState} (hx : x ∈ held) : Beyond (view w) x.2.lastLsn := by
  obtain ⟨s, hs⟩ := hfuture
  exact h.beyond.anti (h.tracks x hx s hs).behind

/-- **A batch keeps the ledger**, if the state it opened with is tracked. -/
theorem Ledger.batch (hC : Laws C view init t) (h : Ledger view init t w m held top)
    (hd : t.Describes opened.spec) (hc : 1 ≤ chunkSize)
    (hdescribes : ∀ st ∈ state, t.Describes st.spec)
    (hb : ∀ st ∈ state, Beyond (view w) st.lastLsn)
    (hr : BatchRead C now t.schema t.table chunkSize inspectEvery state w opened rows high window b w')
    (hopened : ∀ s, Future t (view w') s →
      Tracks init (s.entries t) m (max top o.pos) o (cursorOf opened)) :
    Ledger view init t w' (applyFrame t m b.frame) ((o, b.state) :: held)
        (max (max top o.pos) b.state.lastLsn) ∧
      Holds view init t w' (applyFrame t m b.frame) o b.state := by
  obtain ⟨name, hpk⟩ := hC.single_key
  have hk := Target.leading_mem hpk
  have hlater := BatchRead.later hC.clocked hr
  have hwin := BatchRead.window hC.toLogLaws hd hr
  have hbeyond := BatchRead.beyond hC.clocked hd hdescribes hb hr
  have hfuture : Future t (view w') (view w') := ⟨Later.refl _, hC.int_keys w'⟩
  have hopos : o.pos ≤ b.state.lastLsn := (hopened _ hfuture).opened.trans hwin.1.le
  -- nothing lies from the new position on and below the furthest one
  have hstill : ∀ s, Future t (view w') s → ∀ a ∈ s.entries t, b.state.lastLsn ≤ a.pos →
      max top o.pos ≤ a.pos := by
    intro s hs a ha hle
    obtain ⟨c, hcs, rfl⟩ := List.mem_map.mp ha
    exact max_le (BatchRead.still hC.clocked hd h.beyond hr hs.1 c hcs hle) (hopos.trans hle)
  have hstep : ∀ s, Future t (view w') s → Tracks init (s.entries t) (applyFrame t m b.frame)
      (max (max top o.pos) b.state.lastLsn) o (cursorOf b.state) := by
    intro s hs
    obtain ⟨dumps, hrows, -, hbatch⟩ := BatchRead.batch hC hd hc hdescribes hb hr hs
    rw [applyFrame_eq, frameWrites_delivered hk hrows]
    exact (hopened s hs).batch hbatch (s.ordered_entries t) (hstill s hs)
  refine ⟨⟨(((h.beyond.later hlater).max (hbeyond.anti hopos))).max hbeyond, ?_, ?_⟩, ?_⟩
  · intro x hx
    rcases List.mem_cons.mp hx with rfl | hx
    · rw [hwin.2]; exact hd
    · exact h.describes x hx
  · intro x hx s hs
    rcases List.mem_cons.mp hx with rfl | hx
    · exact hstep s hs
    · obtain ⟨dumps, hrows, -, hbatch⟩ := BatchRead.batch hC hd hc hdescribes hb hr hs
      rw [applyFrame_eq, frameWrites_delivered hk hrows]
      have hraise := (h.tracks x hx s (hs.later hlater)).raise (s.ordered_entries t)
        (le_max_left top o.pos)
      exact hraise.other hbatch (s.ordered_entries t) (hstill s hs)
  · intro s hs k hk
    have hcov : k ∈ (cursorOf b.state).covers := hk
    exact (hstep s hs).reads (s.ordered_entries t) (hstill s hs) hcov

/-- **A call on a state of the ledger.** -/
theorem Ledger.returns (hC : Laws C view init t) (h : Ledger view init t w m held top)
    (hd : t.Describes opened.spec) (hc : 1 ≤ chunkSize) {st : RunState} (hst : (o, st) ∈ held)
    (hr : BatchRead C now t.schema t.table chunkSize inspectEvery (some st) w opened rows high window b w') :
    ∃ top', Ledger view init t w' (applyFrame t m b.frame) ((o, b.state) :: held) top' ∧
      Holds view init t w' (applyFrame t m b.frame) o b.state := by
  have hlater := BatchRead.later hC.clocked hr
  have hnow : ∃ s, Future t (view w) s := ⟨view w, Later.refl _, hC.int_keys w⟩
  obtain ⟨w₁, -, -, -, ho, -⟩ := BatchRead.steps hC.clocked hr
  obtain ⟨-, hlsn, hkey, hdone⟩ := openRun_carried hC.toLogLaws (h.describes _ hst) ho
  have hcursor : cursorOf opened = cursorOf st := cursorOf_congr hlsn hkey hdone
  refine ⟨_, h.batch hC hd hc ?_ ?_ hr fun s hs => ?_⟩
  · rintro _ ⟨⟩; exact h.describes _ hst
  · rintro _ ⟨⟩; exact h.beyond_of_mem hnow hst
  · rw [hcursor]
    exact (h.tracks _ hst s (hs.later hlater)).raise (s.ordered_entries t) (le_max_left _ _)

/-- The same of a driver's call on a state it carries. -/
theorem Ledger.continues {d : Driver σ} {req : Request} {st : RunState}
    (hC : Laws d.connector view init d.target) (h : Ledger view init d.target w m held top)
    (hst : (o, st) ∈ held) (given : req.state = some st) (returned : d.call req w = .ok b w') :
    ∃ top', Ledger view init d.target w' (applyFrame d.target m b.frame) ((o, b.state) :: held) top' ∧
      Holds view init d.target w' (applyFrame d.target m b.frame) o b.state := by
  obtain ⟨opened, w₁, rows, high, window, hc, -, hr, hd, -⟩ :=
    Driver.carried hC.toLogLaws (h.describes _ hst) given returned
  rw [Driver.Reads, given] at hr
  exact h.returns hC hd hc hst hr

/-- **A call that opens a fresh run.** -/
theorem Ledger.seeds (hC : Laws C view init t) (h : Ledger view init t w m held top)
    (hd : t.Describes opened.spec) (hc : 1 ≤ chunkSize)
    (hr : BatchRead C now t.schema t.table chunkSize inspectEvery none w opened rows high window b w') :
    ∃ top', Ledger view init t w' (applyFrame t m b.frame)
        ((⟨opened.lastLsn, m⟩, b.state) :: held) top' ∧
      Holds view init t w' (applyFrame t m b.frame) ⟨opened.lastLsn, m⟩ b.state := by
  obtain ⟨w₁, -, -, -, ho, -⟩ := BatchRead.steps hC.clocked hr
  obtain ⟨-, -, -, -, -, -, -, hkey, hdone⟩ := seed_position hC.clocked ho
  refine ⟨_, h.batch hC hd hc (by simp) (by simp) hr fun s hs => ?_⟩
  refine Tracks.opening rfl (le_max_right _ _) rfl ?_
  simp [cursorOf, covers, hkey, hdone]

end PyDBLog.Runs.Consumer
