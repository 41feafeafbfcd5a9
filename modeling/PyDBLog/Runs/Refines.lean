import PyDBLog.Runs.Page
import PyDBLog.Replay.Dump

/-! # A call is a batch of the dump

The refinement between `dblog()` and the batches of `Replay.Dump`: over a source that keeps its
promises a returning call moves the cursor of its state by a `Batch`, and its frame writes what the
batch delivers (`BatchRead.refines`). What the call needs is that no change below the position it
opened at commits to a key once the page that covers the key has read it (`ScanSafe`). -/

namespace PyDBLog.Runs.Refines

open PyDBLog.Model.Python PyDBLog.Model.Frame PyDBLog.Model.Types PyDBLog.Model.Connector
open PyDBLog.Model.DBLog PyDBLog.Model.Returns PyDBLog.Model.Worlds
open PyDBLog.Mssql.Schema PyDBLog.Mssql.Connector
open PyDBLog.Replay.Basic PyDBLog.Replay.Cut PyDBLog.Replay.Dump
open PyDBLog.World.Log PyDBLog.World.Log.Source PyDBLog.World.Promises
open PyDBLog.Runs.Window PyDBLog.Runs.Calls PyDBLog.Runs.Page

/-- The cursor a state stands for. -/
def cursorOf (state : RunState) : Cursor LSN ℤ := ⟨state.lastLsn, covers state⟩

/-- A state that is opened again keeps its cursor. -/
theorem cursorOf_congr {state state' : RunState} (hlsn : state'.lastLsn = state.lastLsn)
    (hkey : state'.chunkKey = state.chunkKey) (hdone : state'.dumpDone = state.dumpDone) :
    cursorOf state' = cursorOf state := by
  rw [cursorOf, cursorOf, covers, covers, hlsn, hkey, hdone]

/-- What a batch's frame writes. -/
def frameWrites (t : Target) : Option DataFrame → List (Write ℤ Image)
  | none => []
  | some df => writesOf t df

variable {σ : Type} {C : SourceConnector σ} {view : σ → Source} {init : Table ℤ Image} {t : Target}
  {w w' : σ} {s : Source} {p q high : LSN} {window : Option DataFrame} {chunk df : DataFrame} {k : ℤ}

theorem applyFrame_eq (m : Table ℤ Image) (frame : Option DataFrame) :
    applyFrame t m frame = replay m (frameWrites t frame) := by
  cases frame <;> rfl

/-- The page a state asks for is read from the world `w`, and no change below the position `p`
commits to a key the page covers after the page has read the key. -/
def ScanSafe (C : SourceConnector σ) (view : σ → Source) (init : Table ℤ Image) (t : Target)
    (chunkSize : ℤ) (state : RunState) (p : LSN) (s : Source) (w : σ) : Prop :=
  ∀ rows w', C.readTable state.spec state.chunkKey none chunkSize w = .ok rows w' →
    Later (view w') s → ∃ seen, (∀ k, During view w w' (seen k)) ∧
      Page init t seen state.chunkKey chunkSize rows ∧
      ∀ k, PageCovers t.leading state.chunkKey chunkSize rows k →
        ∀ c ∈ added (seen k) s, keyOf (c.cells t.leading) = k → p ≤ c.startLsn

/-! ### The window -/

/-- A key has a write in the window as soon as a change of it lies between the positions. -/
theorem quiet_entries : Quiet (s.entries t) k p q ↔
    ∀ c ∈ s.segment p q, keyOf (c.cells t.leading) ≠ k := by
  rw [quiet_iff_untouched, between_entries]
  simp [Untouched, writes, Change.entry]

theorem frameWrites_eq {rows : List Row} {frame : Option DataFrame} (h : HasRows t rows frame) :
    frameWrites t frame = rows.map (eventWrite t) := by
  cases frame with
  | none => rw [show rows = [] from h]; rfl
  | some df => rw [frameWrites, writesOf, h.1, h.2]; rfl

/-- The rows of a window write what the changes of its segment wrote. -/
theorem eventWrites_segment (hk : t.leading ∈ t.columns) :
    ((s.segment p q).map (Change.eventRow t.columns)).map (eventWrite t) =
      writes (between (s.entries t) p q) := by
  rw [between_entries, writes, List.map_map, List.map_map]
  exact List.map_congr_left fun c _ => writeOf_eventRow hk

/-! ### The rows a window leaves of a page -/

/-- A chunk row has a match in the window when a change of its key lies between the positions. -/
theorem hasMatch_window {name : String} (hpk : t.pk = [name])
    (hint : ∀ c ∈ s.changes, ∃ k, c.cells t.leading = .int k)
    (h : Carries t (s.segment p q) (some df)) {row : Row}
    (hrow : cellOf chunk.columns row t.leading = .int k) :
    DataFrame.hasMatch chunk df t.pk row = true ↔ ¬ Quiet (s.entries t) k p q := by
  have hmem := Target.leading_mem hpk
  have hl : t.pk = [t.leading] := by rw [hpk, Target.leading, hpk]; rfl
  have hcell : ∀ c : Change, cellOf df.columns (c.eventRow t.columns) t.leading = c.cells t.leading := by
    intro c
    rw [h.1, Change.eventRow, cellOf_append (by rfl) (t.unshadowed _ hmem), cellOf_map _ hmem]
  have hmatch : ∀ c : Change, DataFrame.keysMatch (cellsOf chunk.columns row [t.leading])
      (cellsOf df.columns (c.eventRow t.columns) [t.leading]) = true ↔ c.cells t.leading = .int k := by
    intro c
    simp [DataFrame.keysMatch, cellsOf, hrow, hcell, eq_comm]
  rw [DataFrame.hasMatch_iff, quiet_entries, h.2, hl]
  simp only [List.mem_map, exists_exists_and_eq_and, not_forall, not_not, exists_prop]
  refine exists_congr fun c => and_congr_right fun hc => (hmatch c).trans ?_
  obtain ⟨k', hk'⟩ := hint c (mem_segment.mp hc).1
  simp [hk', keyOf]

/-- **What the merge keeps** of a page: the rows of the keys that are quiet in the window. -/
theorem mem_survivors {name : String} (hpk : t.pk = [name])
    (hint : ∀ c ∈ s.changes, ∃ k, c.cells t.leading = .int k)
    (h : Carries t (s.segment p q) window) {row : Row}
    (hrow : cellOf chunk.columns row t.leading = .int k) :
    row ∈ survivors chunk window t.pk ↔ row ∈ chunk.rows ∧ Quiet (s.entries t) k p q := by
  cases window with
  | none =>
    have hq : Quiet (s.entries t) k p q := by
      rw [quiet_entries, List.map_eq_nil_iff.mp h]
      simp
    simp [survivors, hq]
  | some df =>
    have := hasMatch_window hpk hint h hrow
    by_cases hq : Quiet (s.entries t) k p q
    · have hm : DataFrame.hasMatch chunk df t.pk row = false := by
        rw [← Bool.not_eq_true, this]; exact not_not.mpr hq
      simp [survivors, hq, hm]
    · simp [survivors, hq, this.mpr hq]

/-- A row the window leaves is a row of the page. -/
theorem survivors_subset {keys : List String} : survivors chunk window keys ⊆ chunk.rows := by
  cases window with
  | none => exact fun row h => h
  | some top => exact fun row h => (List.mem_filter.mp h).1

/-- The write a dump row makes. -/
def rowWrite (t : Target) (df : DataFrame) (row : Row) : Write ℤ Image :=
  ⟨rowKey t.leading df row, some (cellsOf df.columns row t.columns)⟩

/-! ### The image at the close of the window -/

/-- A key read at an instant has the image of the closing position, if everything committed by then
lies below it and nothing of the key is between the positions or comes below them later. -/
theorem content_eq_tableAt {i : Source} (hi : Later i s) (hpre : ∀ c ∈ i.changes, c.startLsn < q)
    (hpost : ∀ c ∈ added i s, keyOf (c.cells t.leading) = k → p ≤ c.startLsn)
    (hquiet : Quiet (s.entries t) k p q) : i.content init t k = tableAt init (s.entries t) q k := by
  have hsplit : s.entries t = i.entries t ++ (added i s).map (Change.entry t) := by
    rw [entries, hi.eq_append, List.map_append]; rfl
  refine replay_prefix hsplit ?_ ?_
  · rintro a ha -
    obtain ⟨c, hc, rfl⟩ := List.mem_map.mp ha
    exact hpre c hc
  · rintro a ha hk
    obtain ⟨c, hc, rfl⟩ := List.mem_map.mp ha
    refine not_lt.mp fun hlt => ?_
    exact hquiet _ (List.mem_map_of_mem (hi.mem.mpr (Or.inr hc))) (hpost c hc hk) hlt hk

/-- Everything committed when the page was read lies at or below the position the source reports
once the barrier has let the call through. -/
theorem committed_le (hC : ClockLaws C view t) {w₃ w₄ w₅ : σ} {i : Source} {mark : Datetime}
    (hi : Later i (view w₃)) (hmark : C.watermark w₃ = .ok mark w₄)
    (hwait : C.awaitWatermark mark w₄ = .ok () w₅) : ∀ c ∈ i.changes, c.startLsn ≤ (view w₅).mark := by
  intro c hc
  obtain ⟨j, hj, rfl⟩ := hC.watermark_clock hmark
  have hij : Later i j := hi.trans hj.1
  have h5 : Later i (view w₅) := hij.trans (hj.2.trans ((hC.later.awaitWatermark _).ok hwait))
  exact hC.barrier hwait c (h5.mem.mpr (Or.inl hc)) ((i.dated c hc).trans hij.clock_le)

theorem WindowRead.mark_le (hC : ClockLaws C view t) {state state' : RunState}
    (h : WindowRead C state w high window state' w') : (view w).mark ≤ high := by
  cases h with
  | past hm => obtain ⟨i, hi, rfl⟩ := hC.maxLsn_mark hm; exact hi.1.mark_le
  | read hm => obtain ⟨i, hi, rfl⟩ := hC.maxLsn_mark hm; exact hi.1.mark_le

/-- A page beside its window: a key the page covers that is quiet in the window has at the closing
position the image the page gives it. -/
structure Scanned (init : Table ℤ Image) (t : Target) (start : Option ℤ) (limit : ℤ) (df : DataFrame)
    (s : Source) (p q : LSN) : Prop where
  page : KeyPage t.leading start limit df
  columns_eq : df.columns = t.columns
  present : ∀ row ∈ df.rows, Quiet (s.entries t) (rowKey t.leading df row) p q →
    tableAt init (s.entries t) q (rowKey t.leading df row) = some (cellsOf df.columns row t.columns)
  absent : ∀ k, PageCovers t.leading start limit df k → (∀ row ∈ df.rows, rowKey t.leading df row ≠ k) →
    Quiet (s.entries t) k p q → tableAt init (s.entries t) q k = none

theorem ScanSafe.scanned (hC : Laws C view init t) {opened paged state' : RunState} {chunkSize : ℤ}
    {w₂ w₃ w₄ w₅ w₆ : σ} {mark : Datetime}
    (hsafe : ScanSafe C view init t chunkSize opened opened.lastLsn s w₂)
    (asked : C.readTable opened.spec opened.chunkKey none chunkSize w₂ = .ok df w₃)
    (hmark : C.watermark w₃ = .ok mark w₄) (hwait : C.awaitWatermark mark w₄ = .ok () w₅)
    (hclose : WindowRead C paged w₅ high window state' w₆) (hhigh : high < q)
    (hs : Later (view w₃) s) :
    Scanned init t opened.chunkKey chunkSize df s opened.lastLsn q := by
  obtain ⟨seen, hseen, hpage, hpost⟩ := hsafe df w₃ asked hs
  have himage : ∀ k, PageCovers t.leading opened.chunkKey chunkSize df k →
      Quiet (s.entries t) k opened.lastLsn q →
      (seen k).content init t k = tableAt init (s.entries t) q k := by
    intro k hk hquiet
    refine content_eq_tableAt ((hseen k).2.trans hs) (fun c hc => ?_) (hpost k hk) hquiet
    exact ((committed_le hC.clocked (hseen k).2 hmark hwait c hc).trans
      (WindowRead.mark_le hC.clocked hclose)).trans_lt
      hhigh
  refine ⟨hpage.toKeyPage, hpage.columns_eq, fun row hrow hquiet => ?_, fun k hk hno hquiet => ?_⟩
  · have hcov : PageCovers t.leading opened.chunkKey chunkSize df (rowKey t.leading df row) :=
      ⟨hpage.from_start row hrow, Or.inr ⟨row, hrow, le_rfl⟩⟩
    rw [← himage _ hcov hquiet]
    exact hpage.present row hrow
  · rw [← himage k hk hquiet]
    refine hpage.absent k hk.1 hno (hk.2.imp id ?_)
    rintro ⟨row, hrow, hle⟩
    exact ⟨row, hrow, lt_of_le_of_ne hle fun h => hno row hrow h.symm⟩

/-! ### The batch -/

/-- **A page and its window are a batch.** -/
theorem Scanned.batch {name : String} (hpk : t.pk = [name])
    (hint : ∀ c ∈ s.changes, ∃ k, c.cells t.leading = .int k) {opened paged state' : RunState}
    {chunkSize : ℤ} {w₂ w₃ w₅ w₆ : σ} {page : Option DataFrame} (hd : t.Describes opened.spec)
    (hc : 1 ≤ chunkSize) (walking : opened.dumpDone = false)
    (hscan : Scanned init t opened.chunkKey chunkSize df s opened.lastLsn state'.lastLsn)
    (hp : PageRead C chunkSize opened w₂ df page paged w₃)
    (hclose : WindowRead C paged w₅ high window state' w₆)
    (hread : Read t opened.lastLsn window high state'.lastLsn s) :
    Batch init (s.entries t) (cursorOf opened) ((survivors df window t.pk).map (rowWrite t df))
      (cursorOf state') := by
  have hcovers : covers state' = covers paged := by rw [hclose.frame]; rfl
  have hwalk := fun k => PageRead.walks hscan.page hc hd.leading_eq walking hp k
  have hrowkey : ∀ row ∈ df.rows, cellOf df.columns row t.leading = .int (rowKey t.leading df row) := by
    intro row hrow
    obtain ⟨k, hk⟩ := hscan.page.int_key row hrow
    rw [rowKey, hk]; rfl
  have hkept : ∀ row ∈ df.rows, row ∈ survivors df window t.pk ↔
      Quiet (s.entries t) (rowKey t.leading df row) opened.lastLsn state'.lastLsn := fun row hrow =>
    (mem_survivors hpk hint hread.carries (hrowkey row hrow)).trans (and_iff_right hrow)
  refine ⟨hread.le, ?_, fun k hk => ?_, fun k hk => ?_⟩
  · intro e he
    obtain ⟨row, hrow, rfl⟩ := List.mem_map.mp he
    have hdf := survivors_subset hrow
    exact (hscan.present row hdf ((hkept row hdf).mp hrow)).symm
  · show k ∈ covers state'
    rw [hcovers]
    exact (hwalk k).mpr (Or.inl hk)
  · have hk' : k ∈ covers paged := hcovers ▸ hk
    refine ((hwalk k).mp hk').imp id fun hcov => ?_
    by_cases hq : Quiet (s.entries t) k opened.lastLsn state'.lastLsn
    · right
      by_cases hrow : ∃ row ∈ df.rows, rowKey t.leading df row = k
      · obtain ⟨row, hrow, rfl⟩ := hrow
        refine Or.inl fun hno => hno _ (List.mem_map_of_mem ((hkept row hrow).mpr hq)) rfl
      · exact Or.inr (hscan.absent k hcov (fun row h h' => hrow ⟨row, h, h'⟩) hq)
    · exact Or.inl hq

/-- A merged page in the columns of the table's events. -/
theorem mergeChunk_rows (hC : LogLaws C view t) {frame : DataFrame} {low : Datetime}
    {spec : TableSpec} (hd : t.Describes spec) (hcols : df.columns = t.columns)
    (hcarry : Carries t (s.segment p q) window) (h : mergeChunk C df window low spec w = .ok frame w') :
    HasRows t ((s.segment p q).map (Change.eventRow t.columns) ++
      (survivors df window t.pk).map fun row => stamp spec (some low) ++ row) (some frame) := by
  obtain ⟨hframe, hrows⟩ := mergeChunk_frame hC h
  rw [HasRows.rows hcarry, hd.2.2.1] at hrows
  exact ⟨hcols ▸ hframe, hrows⟩

/-- A stamped row writes the row it was stamped on. -/
theorem eventWrite_stamp (hk : t.leading ∈ t.columns) (hcols : df.columns = t.columns)
    {spec : TableSpec} {low : Option Datetime} (rows : List Row) :
    (rows.map fun row => stamp spec low ++ row).map (eventWrite t) = rows.map (rowWrite t df) := by
  rw [List.map_map]
  refine List.map_congr_left fun row _ => ?_
  rw [Function.comp_apply, eventWrite, writeOf_stamp hk, rowWrite, rowKey, hcols]

/-- From the end of a page to the end of its window. -/
theorem later_close (hC : ClockLaws C view t) {paged state' : RunState} {mark : Datetime}
    {w₃ w₄ w₅ w₆ : σ} (hmark : C.watermark w₃ = .ok mark w₄)
    (hwait : C.awaitWatermark mark w₄ = .ok () w₅)
    (hclose : WindowRead C paged w₅ high window state' w₆) : Later (view w₃) (view w₆) :=
  (hC.later.watermark.ok hmark).trans (((hC.later.awaitWatermark _).ok hwait).trans
    ((hC.later.readWindow _).ok (readWindow_ok.mpr ⟨_, hclose⟩)))

/-- **Refinement**: in every log the source grows to, the frame of a returning call holds the events
between the two positions and then dump rows, and with these rows the call is a batch from the one
cursor to the other. -/
theorem BatchRead.refines (hC : Laws C view init t) {now chunkSize : ℤ} {inspectEvery : Option Timedelta}
    {state : Option RunState} {opened : RunState} {rows : List Row} {b : BatchResult}
    (hr : BatchRead C now t.schema t.table chunkSize inspectEvery state w opened rows high window b w')
    (hd : t.Describes opened.spec) (hc : 1 ≤ chunkSize) (hs : Later (view w') s)
    (hint : ∀ c ∈ s.changes, ∃ k, c.cells t.leading = .int k)
    (hsafe : ∀ w₁ low w₂, openRun C now t.schema t.table state inspectEvery w = .ok opened w₁ →
      C.watermark w₁ = .ok low w₂ → ScanSafe C view init t chunkSize opened opened.lastLsn s w₂) :
    ∃ dumps, HasRows t ((s.segment opened.lastLsn b.state.lastLsn).map (Change.eventRow t.columns) ++ dumps)
        b.frame ∧ (∀ row ∈ dumps, DumpRow row) ∧
      Batch init (s.entries t) (cursorOf opened) (dumps.map (eventWrite t)) (cursorOf b.state) := by
  obtain ⟨name, hpk⟩ := hC.single_key
  have hk := Target.leading_mem hpk
  have hread := (BatchRead.window hC.toLogLaws hd hr).1.grows hs.grows
  cases hr with
  | tail ho hdone hw =>
    refine ⟨[], ?_, by simp, ⟨hread.le, by simp, ?_, ?_⟩⟩
    · rw [List.append_nil]; exact hread.carries
    · intro k hk'; exact Or.inl (by rw [hw.frame]; exact hdone)
    · intro k hk'; exact Or.inl (Or.inl hdone)
  | last ho hwalking hlow hp hmark ha hw =>
    cases hp with
    | empty asked hnil =>
      have hscan := (hsafe _ _ _ ho hlow).scanned hC asked hmark ha hw hread.high_lt
        ((later_close hC.clocked hmark ha hw).trans hs)
      have hbatch := hscan.batch hpk hint hd hc hwalking (.empty asked hnil) hw hread
      have hnone : ∀ df : DataFrame, df.rows = [] → survivors df window t.pk = [] := by
        intro df hdf
        cases window with
        | none => exact hdf
        | some top => rw [survivors, hdf]; rfl
      rw [hnone _ hnil] at hbatch
      refine ⟨[], ?_, by simp, hbatch⟩
      rw [List.append_nil]
      exact hread.carries
  | chunk ho hwalking hlow hp hmark ha hw hmerge =>
    cases hp with
    | rows asked hne hkey =>
      have hs6 : Later (view _) s := ((hC.later.mergeChunk _ _ _ _).ok hmerge).trans hs
      have hscan := (hsafe _ _ _ ho hlow).scanned hC asked hmark ha hw hread.high_lt
        ((later_close hC.clocked hmark ha hw).trans hs6)
      have hspec : t.Describes _ := (congrArg RunState.spec hw.frame) ▸ hd
      refine ⟨_, mergeChunk_rows hC.toLogLaws hspec hscan.columns_eq hread.carries hmerge, dumpRow_map _, ?_⟩
      rw [eventWrite_stamp hk hscan.columns_eq]
      exact hscan.batch hpk hint hd hc hwalking (.rows asked hne hkey) hw hread

/-- What a batch's frame writes is what the batch delivers. -/
theorem frameWrites_delivered (hk : t.leading ∈ t.columns) {frame : Option DataFrame} {dumps : List Row}
    {opened state : RunState}
    (h : HasRows t ((s.segment opened.lastLsn state.lastLsn).map (Change.eventRow t.columns) ++ dumps)
      frame) : frameWrites t frame =
      delivered (s.entries t) (cursorOf opened) (dumps.map (eventWrite t)) (cursorOf state) := by
  rw [frameWrites_eq h, List.map_append, eventWrites_segment hk]
  rfl

end PyDBLog.Runs.Refines
