import PyDBLog.World.Promises

/-! # What one call reads off the log

Under the promises of the log alone: the window of a returning call carries the changes between the
position the call opened at and the one it hands back (`BatchRead.window`), for good (`Read.grows`);
a carried state is opened as it was, up to its spec (`openRun_carried`); and the frame is the window
followed by stamped rows (`BatchRead.shape`). -/

namespace PyDBLog.Runs.Window

open PyDBLog.Model.Python PyDBLog.Model.Frame PyDBLog.Model.Types PyDBLog.Model.Connector
open PyDBLog.Model.DBLog PyDBLog.Model.Returns PyDBLog.Model.Worlds
open PyDBLog.Mssql.Schema PyDBLog.Mssql.Connector
open PyDBLog.World.Log PyDBLog.World.Log.Source PyDBLog.World.Promises

variable {σ : Type} {C : SourceConnector σ} {view : σ → Source} {t : Target} {w w' : σ} {now : ℤ}

/-! ### Opening -/

/-- A carried state is opened with its own position and page. -/
theorem openRun_carried (hC : LogLaws C view t) {state opened : RunState}
    {inspectEvery : Option Timedelta} (hd : t.Describes state.spec)
    (h : openRun C now t.schema t.table (some state) inspectEvery w = .ok opened w') :
    t.Describes opened.spec ∧ opened.lastLsn = state.lastLsn ∧ opened.chunkKey = state.chunkKey ∧
      opened.dumpDone = state.dumpDone := by
  obtain ⟨w₁, -, -, -, hr, -⟩ := openRun_some h
  rcases refreshSpec_ok hr with ⟨rfl, -⟩ | ⟨fresh, hi, hpk, hcap, rfl⟩
  · exact ⟨hd, rfl, rfl, rfl⟩
  · obtain ⟨hs, ht⟩ := hC.inspect_names hi
    obtain ⟨h1, h2, h3, h4⟩ := hd
    exact ⟨⟨hs.trans h1, ht.trans h2, hpk ▸ h3, (names_of_beq hcap).symm.trans h4⟩, rfl, rfl, rfl⟩

theorem openRun_captured {schema table : String} {state : Option RunState} {opened : RunState}
    {inspectEvery : Option Timedelta}
    (h : openRun C now schema table state inspectEvery w = .ok opened w') :
    ∃ captureInstance, opened.spec.captureInstance = some captureInstance := by
  cases state with
  | none =>
    obtain ⟨spec, ci, -, -, -, -, -, hci, -, -, rfl⟩ := seed_ok.mp h
    exact ⟨ci, hci⟩
  | some state =>
    obtain ⟨-, ci, -, -, -, hci, -⟩ := openRun_some h
    exact ⟨ci, hci⟩

/-! ### The window -/

/-- A window was read from the position `p` when the source reported `high`, and the next one opens
at `q`. -/
structure Read (t : Target) (p : LSN) (window : Option DataFrame) (high q : LSN) (s : Source) : Prop where
  le : p ≤ q
  high_lt : high < q
  high_le : high ≤ s.mark
  ends : q = p ∨ p ≤ high ∧ Closes high q
  carries : Carries t (s.segment p q) window

/-- The segment a closed window covers is frozen. -/
theorem segment_frozen {s s' : Source} {p high q : LSN} (h : Grows s s') (hhigh : high ≤ s.mark)
    (hends : q = p ∨ p ≤ high ∧ Closes high q) : s'.segment p q = s.segment p q := by
  rcases hends with rfl | ⟨-, hc⟩
  · rw [segment_of_le le_rfl, segment_of_le le_rfl]
  · rw [segment_of_closes hc, segment_of_closes hc, h.window_eq hhigh]

theorem Read.grows {s s' : Source} {p high q : LSN} {window : Option DataFrame}
    (h : Read t p window high q s) (hs : Grows s s') : Read t p window high q s' where
  le := h.le
  high_lt := h.high_lt
  high_le := h.high_le.trans hs.mark_le
  ends := h.ends
  carries := by rw [segment_frozen hs h.high_le h.ends]; exact h.carries

theorem WindowRead.read (hC : LogLaws C view t) {state state' : RunState} {high : LSN}
    {window : Option DataFrame} {captureInstance : String} (hd : t.Describes state.spec)
    (hci : state.spec.captureInstance = some captureInstance)
    (h : WindowRead C state w high window state' w') :
    Read t state.lastLsn window high state'.lastLsn (view w') := by
  cases h with
  | past hm hlt =>
    exact ⟨le_rfl, hlt, hC.maxLsn_le hm, Or.inl rfl, by rw [segment_of_le le_rfl]; rfl⟩
  | read hm hle he hn =>
    obtain ⟨hlt, rfl, hcl⟩ := hC.incrementLsn_ok hn
    obtain ⟨s, hs1, hs2, hfloor, hc⟩ := hC.readEventLog hd hci he
    rw [retained_window hfloor] at hc
    have hmark := hC.maxLsn_le hm
    refine ⟨hle.trans hlt.le, hlt, hmark.trans (hs1.trans hs2).mark_le, Or.inr ⟨hle, hcl⟩, ?_⟩
    rw [segment_of_closes hcl, hs2.window_eq (hmark.trans hs1.mark_le)]
    exact hc

/-- The state a page read hands on differs in its page alone. -/
theorem PageRead.frame {chunkSize : ℤ} {state state' : RunState} {rows : DataFrame}
    {chunk : Option DataFrame} (h : PageRead C chunkSize state w rows chunk state' w') :
    state'.spec = state.spec ∧ state'.lastLsn = state.lastLsn := by
  cases h <;> exact ⟨rfl, rfl⟩

/-- The window closed after a page is that of the state the call opened with. -/
theorem WindowRead.after_page (hC : LogLaws C view t) {opened paged state' : RunState} {chunkSize : ℤ}
    {rows : DataFrame} {chunk : Option DataFrame} {high : LSN} {window : Option DataFrame}
    {captureInstance : String} {w₂ w₃ w₅ w₆ : σ} (hd : t.Describes opened.spec)
    (hci : opened.spec.captureInstance = some captureInstance)
    (hp : PageRead C chunkSize opened w₂ rows chunk paged w₃)
    (hw : WindowRead C paged w₅ high window state' w₆) :
    Read t opened.lastLsn window high state'.lastLsn (view w₆) ∧ state'.spec = opened.spec := by
  obtain ⟨hspec, hlsn⟩ := PageRead.frame hp
  have hread := WindowRead.read hC (hspec ▸ hd) (hspec ▸ hci) hw
  rw [← hlsn, ← hspec]
  exact ⟨hread, by rw [hw.frame]⟩

/-- **The window of a returning call.** -/
theorem BatchRead.window (hC : LogLaws C view t) {state : Option RunState} {opened : RunState}
    {chunkSize : ℤ} {inspectEvery : Option Timedelta} {rows : List Row} {high : LSN}
    {window : Option DataFrame} {b : BatchResult} (hd : t.Describes opened.spec)
    (h : BatchRead C now t.schema t.table chunkSize inspectEvery state w opened rows high window b w') :
    Read t opened.lastLsn window high b.state.lastLsn (view w') ∧ b.state.spec = opened.spec := by
  cases h with
  | tail ho hdone hw =>
    obtain ⟨ci, hci⟩ := openRun_captured ho
    exact ⟨WindowRead.read hC hd hci hw, by rw [hw.frame]⟩
  | last ho hdone hlow hp hmark ha hw =>
    obtain ⟨ci, hci⟩ := openRun_captured ho
    exact WindowRead.after_page hC hd hci hp hw
  | chunk ho hdone hlow hp hmark ha hw hmerge =>
    obtain ⟨ci, hci⟩ := openRun_captured ho
    obtain ⟨kept, events, -, he, -⟩ := mergeChunk_ok hmerge
    obtain ⟨-, rfl⟩ := hC.toEvents_ok he
    exact WindowRead.after_page hC hd hci hp hw

/-! ### The frame -/

/-- The frame of a call over the rows it read off the table: its window alone, or the window
followed by the rows it leaves of the page, stamped. -/
inductive FrameOf (window : Option DataFrame) (keys : List String) :
    List Row → Option DataFrame → Prop
  | window : FrameOf window keys [] window
  | chunk {page df spec low} (rows_ne : page.rows ≠ [])
      (columns_eq : df.columns = metadataColumns ++ page.columns)
      (rows_eq : df.rows = windowRows window ++
        (survivors page window keys).map fun row => stamp spec low ++ row) :
      FrameOf window keys page.rows (some df)

/-- What a merge that returns holds: the window, then the rows it leaves of the page, stamped. -/
theorem mergeChunk_frame (hC : LogLaws C view t) {page df : DataFrame} {low : Datetime}
    {window : Option DataFrame} {spec : TableSpec}
    (h : mergeChunk C page window low spec w = .ok df w') :
    df.columns = metadataColumns ++ page.columns ∧ df.rows = windowRows window ++
      (survivors page window spec.pkColumns).map fun row => stamp spec (some low) ++ row := by
  obtain ⟨kept, events, hkept, he, hschema, hrows, -⟩ := mergeChunk_ok h
  obtain ⟨hstamp, rfl⟩ := hC.toEvents_ok he
  obtain ⟨hcols, -, hevents⟩ := toEvents_ok hstamp
  obtain ⟨hkschema, hkrows⟩ := supersede_ok hkept
  have hkcols : kept.columns = page.columns := congrArg (List.map Prod.fst) hkschema
  refine ⟨?_, by rw [hrows, hevents, hkrows]⟩
  rw [← hkcols, ← hcols]
  exact congrArg (List.map Prod.fst) hschema

theorem BatchRead.shape (hC : LogLaws C view t) {schema table : String} {state : Option RunState}
    {opened : RunState} {chunkSize : ℤ} {inspectEvery : Option Timedelta} {rows : List Row} {high : LSN}
    {window : Option DataFrame} {b : BatchResult}
    (h : BatchRead C now schema table chunkSize inspectEvery state w opened rows high window b w') :
    FrameOf window opened.spec.pkColumns rows b.frame := by
  cases h with
  | tail ho hdone hw => exact .window
  | last ho hdone hlow hp hmark ha hw => exact .window
  | chunk ho hdone hlow hp hmark ha hw hmerge =>
    have hspec : RunState.spec _ = opened.spec :=
      (congrArg RunState.spec hw.frame).trans (PageRead.frame hp).1
    rw [← hspec]
    cases hp with
    | rows asked hne hkey =>
      obtain ⟨hcols, hrows⟩ := mergeChunk_frame hC hmerge
      exact .chunk hne hcols hrows

end PyDBLog.Runs.Window
