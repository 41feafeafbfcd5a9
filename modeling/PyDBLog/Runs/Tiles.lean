import PyDBLog.Runs.Calls

/-! # The windows of a run tile

Whatever a run that threads its states reads off the log, in dump and in tail calls and under any
spec it refreshes to, is the changes from the position it opened at up to the one it got to, each
once and in the order of the log (`log_rows_tile`). -/

namespace PyDBLog.Runs.Tiles

open PyDBLog.Model.Python PyDBLog.Model.Frame PyDBLog.Model.Types PyDBLog.Model.Connector
open PyDBLog.Model.DBLog PyDBLog.Model.Returns PyDBLog.Model.Worlds
open PyDBLog.Mssql.Schema PyDBLog.Mssql.Connector
open PyDBLog.World.Log PyDBLog.World.Log.Source PyDBLog.World.Promises
open PyDBLog.Runs.Window PyDBLog.Runs.Calls

/-- The rows of a frame that came off the log. -/
def logRows (df : DataFrame) : List Row :=
  df.rows.filter fun row => cellOf df.columns row "operation" ≠ .int opDump

/-- The rows of a frame that came off the table. -/
def dumpRows (df : DataFrame) : List Row :=
  df.rows.filter fun row => cellOf df.columns row "operation" = .int opDump

/-- The position a run of the log got to from `p`: its own start, or past a reported position. -/
def Reported (s : Source) (p q : LSN) : Prop :=
  p ≤ q ∧ (q = p ∨ ∃ high ≤ s.mark, p ≤ high ∧ Closes high q)

variable {t : Target} {s s' : Source} {p q r high : LSN} {window : Option DataFrame}

/-- Nothing at or above a reported end is moved below it. -/
theorem Reported.segment_eq (h : Reported s p q) (hs : Grows s s') : s'.segment p q = s.segment p q := by
  rcases h.2 with rfl | ⟨high, hhigh, hle, hc⟩
  · rw [segment_of_le le_rfl, segment_of_le le_rfl]
  · exact segment_frozen hs hhigh (Or.inr ⟨hle, hc⟩)

theorem Reported.grows (h : Reported s p q) (hs : Grows s s') : Reported s' p q := by
  refine ⟨h.1, h.2.imp id ?_⟩
  rintro ⟨high, hhigh, hc⟩
  exact ⟨high, hhigh.trans hs.mark_le, hc⟩

/-- A window continues a run of the log. -/
theorem Reported.read (h : Reported s p q) (hr : Read t q window high r s) : Reported s p r := by
  refine ⟨h.1.trans hr.le, ?_⟩
  rcases hr.ends with rfl | ⟨hle, hc⟩
  · exact h.2
  · exact Or.inr ⟨high, hr.high_le, h.1.trans hle, hc⟩

theorem operation_event (c : Change) (columns names : List String) :
    cellOf (metadataColumns ++ columns) (c.eventRow names) "operation" ≠ .int opDump := by
  rw [Change.eventRow, cellOf_operation]
  cases c.operation <;> decide

theorem operation_dump {row : Row} (h : DumpRow row) (columns : List String) :
    cellOf (metadataColumns ++ columns) row "operation" = .int opDump := by
  obtain ⟨spec, low, cells, rfl⟩ := h
  exact cellOf_operation ..

/-- The rows of a frame by where they came from. -/
theorem frame_rows {cs : List Change} {columns : List String} {dumps : List Row} {df : DataFrame}
    (hcols : df.columns = metadataColumns ++ columns)
    (hrows : df.rows = cs.map (Change.eventRow t.columns) ++ dumps) (hd : ∀ row ∈ dumps, DumpRow row) :
    logRows df = cs.map (Change.eventRow t.columns) ∧ dumpRows df = dumps := by
  have hevents : ∀ row ∈ cs.map (Change.eventRow t.columns),
      cellOf df.columns row "operation" ≠ .int opDump := by
    intro row hrow
    obtain ⟨c, -, rfl⟩ := List.mem_map.mp hrow
    rw [hcols]
    exact operation_event c columns t.columns
  have hdumps : ∀ row ∈ dumps, cellOf df.columns row "operation" = .int opDump := by
    intro row hrow
    rw [hcols]
    exact operation_dump (hd row hrow) columns
  rw [logRows, dumpRows, hrows, List.filter_append, List.filter_append]
  rw [List.filter_eq_self.mpr fun row h => decide_eq_true (hevents row h),
    List.filter_eq_nil_iff.mpr fun row h => by simpa using hdumps row h,
    List.filter_eq_nil_iff.mpr fun row h => by simpa using hevents row h,
    List.filter_eq_self.mpr fun row h => decide_eq_true (hdumps row h)]
  exact ⟨List.append_nil _, List.nil_append _⟩

/-- A frame that is a window alone holds log rows alone. -/
theorem window_rows {cs : List Change} (hw : Carries t cs window) :
    window.toList.flatMap logRows = cs.map (Change.eventRow t.columns) ∧
      window.toList.flatMap dumpRows = [] := by
  cases window with
  | none => exact ⟨(show cs.map (Change.eventRow t.columns) = [] from hw).symm, rfl⟩
  | some df =>
    have hrows : df.rows = cs.map (Change.eventRow t.columns) ++ [] := by rw [List.append_nil]; exact hw.2
    simpa using frame_rows hw.1 hrows (by simp)

/-- Dump rows aside, a frame holds the rows of its window. -/
theorem logRows_frame {cs : List Change} {keys : List String} {rows : List Row}
    {frame : Option DataFrame} (hw : Carries t cs window) (hf : FrameOf window keys rows frame) :
    frame.toList.flatMap logRows = cs.map (Change.eventRow t.columns) := by
  cases hf with
  | window => exact (window_rows hw).1
  | chunk hne hcols hrows =>
    rw [HasRows.rows hw] at hrows
    simpa using (frame_rows hcols hrows (dumpRow_map _)).1

variable {σ : Type} {d : Driver σ} {view : σ → Source}

/-- The log rows of one batch are the changes between the two positions. -/
theorem logRows_batch (hC : LogLaws d.connector view d.target) {req : Request} {opened : RunState}
    {rows : List Row} {b : BatchResult} {w w' : σ} (hd : d.target.Describes opened.spec)
    (h : d.Reads req w opened rows high window b w') :
    b.frame.toList.flatMap logRows =
      ((view w').segment opened.lastLsn b.state.lastLsn).map (Change.eventRow d.target.columns) := by
  obtain ⟨hr, -⟩ := BatchRead.window hC hd h
  exact logRows_frame hr.carries (BatchRead.shape hC h)

/-- Where a run stands: the log rows of its frames are those between its two ends. -/
structure Stands (d : Driver σ) (L : LSN) (s : Source) (state : RunState) (frames : List DataFrame) :
    Prop where
  describes : d.target.Describes state.spec
  reported : Reported s L state.lastLsn
  log_rows : frames.flatMap logRows = (s.segment L state.lastLsn).map (Change.eventRow d.target.columns)

theorem Stands.grows {L : LSN} {state : RunState} {frames : List DataFrame}
    (h : Stands d L s state frames) (hs : Grows s s') : Stands d L s' state frames where
  describes := h.describes
  reported := h.reported.grows hs
  log_rows := by rw [h.reported.segment_eq hs]; exact h.log_rows

/-- One more call. -/
theorem Stands.batch (hC : LogLaws d.connector view d.target) {L : LSN} {req : Request}
    {state opened : RunState} {rows : List Row} {b : BatchResult} {w w' : σ} {frames : List DataFrame}
    (h : Stands d L (view w') state frames) (hd : d.target.Describes opened.spec)
    (hlsn : opened.lastLsn = state.lastLsn) (hr : d.Reads req w opened rows high window b w') :
    Stands d L (view w') b.state (frames ++ b.frame.toList) := by
  obtain ⟨hread, hspec⟩ := BatchRead.window hC hd hr
  rw [hlsn] at hread
  refine ⟨hspec ▸ hd, h.reported.read hread, ?_⟩
  rw [List.flatMap_append, h.log_rows, logRows_batch hC hd hr, hlsn,
    segment_append h.reported.1 hread.le, List.map_append]

theorem Run.stands (hC : LogLaws d.connector view d.target)
    (hmoves : ∀ w w', d.moves w w' → Grows (view w) (view w'))
    (hthread : ∀ known state, d.resumes known state → threads known state) {dumpDone : Bool} {L : LSN}
    {w : σ} {known : List RunState} {frames : List DataFrame}
    (run : Run d (fun L w known frames => Seeded d L w known frames ∨ Built d dumpDone L w known frames)
      L w known frames) :
    ∃ state, threads known state ∧ Stands d L (view w) state frames := by
  induction run with
  | begins h =>
    rcases h with h | ⟨hd, hb⟩
    · obtain ⟨req, w, opened, w₁, rows, high, window, b, -, -, -, -, hd, hr, rfl, rfl, rfl⟩ := h.reads
      obtain ⟨hread, hspec⟩ := BatchRead.window hC hd hr
      refine ⟨b.state, rfl, hspec ▸ hd, ⟨hread.le, ?_⟩, logRows_batch hC hd hr⟩
      exact hread.ends.imp id fun ⟨hle, hc⟩ => ⟨high, hread.high_le, hle, hc⟩
    · obtain ⟨spec, -, -, -, -, -, -, -, rfl⟩ := stateAtLsn_ok.mp hb
      exact ⟨_, rfl, hd, ⟨le_rfl, Or.inl rfl⟩, by rw [segment_of_le le_rfl]; rfl⟩
  | idles run moved ih =>
    obtain ⟨state, hk, hs⟩ := ih
    exact ⟨state, hk, hs.grows (hmoves _ _ moved)⟩
  | raises run resumed given raised ih =>
    obtain ⟨state, hk, hs⟩ := ih
    have hm := Driver.raised_moves hC.grows raised
    exact ⟨state, hk, hs.grows hm⟩
  | returns run resumed given admitted returned ih =>
    obtain ⟨state, hk, hs⟩ := ih
    obtain rfl := Option.some.inj (hk.symm.trans (hthread _ _ resumed))
    obtain ⟨opened, w₁, rows, high, window, -, -, hr, hd, hlsn, -, -⟩ :=
      Driver.carried hC hs.describes given returned
    have hm := Driver.returned_moves hC.grows returned
    exact ⟨_, rfl, (hs.grows hm).batch hC hd hlsn hr⟩

/-- **Windows tile**: the log rows a run has delivered are the changes of the table from the
position it opened at up to the position it got to, each exactly once and in the order of
`(start_lsn, seqval)`. -/
theorem log_rows_tile (hC : LogLaws d.connector view d.target)
    (hmoves : ∀ w w', d.moves w w' → Grows (view w) (view w'))
    (hthread : ∀ known state, d.resumes known state → threads known state) {dumpDone : Bool} {L : LSN}
    {w : σ} {known : List RunState} {frames : List DataFrame}
    (run : Run d (fun L w known frames => Seeded d L w known frames ∨ Built d dumpDone L w known frames)
      L w known frames) :
    ∃ state, threads known state ∧
      frames.flatMap logRows = ((view w).changes.filter fun c =>
        L ≤ c.startLsn ∧ c.startLsn < state.lastLsn).map (Change.eventRow d.target.columns) ∧
      ((view w).changes.filter fun c => L ≤ c.startLsn ∧ c.startLsn < state.lastLsn).Pairwise
        fun a b => a.position ≤ b.position := by
  obtain ⟨state, hk, hs⟩ := Run.stands hC hmoves hthread run
  exact ⟨state, hk, hs.log_rows, (view w).ordered.filter _⟩

open PyDBLog.World.InMemory in
/-- The walk of the stock, and the tail once the bolt is sold. -/
theorem log_rows_tile_sold : ∃ state, threads [walkedTo 9, walkedTo 5] state ∧
    [stockDumps, saleDeletes].flatMap logRows =
      (sold.source.changes.filter fun c => lsnAt 4 ≤ c.startLsn ∧ c.startLsn < state.lastLsn).map
        (Change.eventRow items.columns) ∧
    (sold.source.changes.filter fun c => lsnAt 4 ≤ c.startLsn ∧ c.startLsn < state.lastLsn).Pairwise
      fun a b => a.position ≤ b.position := by
  have run := sold_run threads (fun L w known frames =>
    Seeded (itemsDriver threads) L w known frames ∨ Built (itemsDriver threads) false L w known frames)
    (Or.inl (stock_seeded threads)) rfl
  exact log_rows_tile (Memory.logLaws items _) (fun w w' (h : Later w.source w'.source) => h.grows)
    (fun _ _ h => h) run

end PyDBLog.Runs.Tiles
