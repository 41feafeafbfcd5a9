import PyDBLog.Runs.Consumer
import PyDBLog.Runs.Tiles

/-! # Dump rows are dated soundly

Every dump row of a run carries the watermark taken before the scan that read it, and from that
instant up to the close of the window beside the scan the table held the row under its key: a change
of the key since lies at or above the position the call opened at and at or below the one its window
closes at, so it is an event of the window and the merge has dropped the row. Along a run the dates
never decrease (`dump_rows_are_dated`). -/

namespace PyDBLog.Runs.Dated

open PyDBLog.Model.Python PyDBLog.Model.Frame PyDBLog.Model.Types PyDBLog.Model.Connector
open PyDBLog.Model.DBLog PyDBLog.Model.Returns PyDBLog.Model.Worlds
open PyDBLog.Mssql.Schema PyDBLog.Mssql.Connector
open PyDBLog.Replay.Basic PyDBLog.Replay.Cut
open PyDBLog.World.Log PyDBLog.World.Log.Source PyDBLog.World.Promises
open PyDBLog.Runs.Window PyDBLog.Runs.Calls PyDBLog.Runs.Refines PyDBLog.Runs.Consumer
open PyDBLog.Runs.Tiles

variable {σ : Type}

/-- What is assumed of a scan: each row it hands over is one its key had at some instant of the
scan. -/
structure ScanLaws (C : SourceConnector σ) (view : σ → Source) (init : Table ℤ Image) (t : Target) : Prop
    extends ClockLaws C view t where
  readTable : ∀ {spec start limit w df w'}, t.Describes spec → 1 ≤ limit →
    C.readTable spec start none limit w = .ok df w' → df.columns = t.columns ∧
      ∀ row ∈ df.rows, ∃ k s, cellOf df.columns row t.leading = .int k ∧ During view w w' s ∧
        s.content init t k = some (cellsOf df.columns row t.columns)

/-- A source that keeps its promises scans so. -/
theorem Laws.scans {C : SourceConnector σ} {view : σ → Source} {init : Table ℤ Image} {t : Target}
    (hC : Laws C view init t) : ScanLaws C view init t where
  toClockLaws := hC.clocked
  readTable := by
    intro spec start limit w df w' hd hc asked
    obtain ⟨seen, hseen, hpage⟩ := hC.readTable hd hc asked
    refine ⟨hpage.columns_eq, fun row hrow => ?_⟩
    obtain ⟨k, hk⟩ := hpage.int_key row hrow
    have hpresent := hpage.present row hrow
    rw [hk] at hpresent
    exact ⟨k, seen k, hk, hseen k, hpresent⟩

/-! ### The statement -/

/-- A returning call of a run: the one that opens it, or one on a state the run has returned. -/
inductive Batched (d : Driver σ) (req : Request) (w : σ) (b : BatchResult) (w' : σ) : Prop
  | opening {opened w₁} (fresh : req.state = none) (opens : d.opens req w = .ok opened w₁)
      (describes : d.target.Describes opened.spec) (returned : d.call req w = .ok b w') :
      Batched d req w b w'
  | carried {L known frames state} (run : Run d (Seeded d) L w known frames)
      (resumed : d.resumes known state) (given : req.state = some state)
      (returned : d.call req w = .ok b w') : Batched d req w b w'

/-- The reads around a page: the watermark before it, the page, the watermark after it, the barrier,
and the position the window closes at. -/
structure Bracket (d : Driver σ) (req : Request) (w : σ) where
  opened : RunState
  low : Datetime
  page : DataFrame
  mark : Datetime
  high : LSN
  w₁ : σ
  w₂ : σ
  w₃ : σ
  w₄ : σ
  w₅ : σ
  w₆ : σ
  opens : d.opens req w = .ok opened w₁
  lows : d.connector.watermark w₁ = .ok low w₂
  pages : d.connector.readTable opened.spec opened.chunkKey none req.chunkSize w₂ = .ok page w₃
  marks : d.connector.watermark w₃ = .ok mark w₄
  awaits : d.connector.awaitWatermark mark w₄ = .ok () w₅
  closes : d.connector.getMaxLsn w₅ = .ok high w₆

namespace Bracket

variable {d : Driver σ} {req : Request} {w : σ}

/-- The instant `s` is at most the close of the window: nothing committed from the instant `i` on is
above the position it closes at, or everything was committed by the high watermark. -/
def UpToClose (x : Bracket d req w) (view : σ → Source) (i s : Source) : Prop :=
  (∀ c ∈ added i s, c.startLsn ≤ x.high) ∨
    Later s (view x.w₅) ∧ ∀ c ∈ added i s, c.commitTime ≤ x.mark

/-- A dump row carries the low watermark, and from the instant `i` up to the close of the window the
table holds the row under its key, on the way to any instant `e`. -/
structure Dates (x : Bracket d req w) (view : σ → Source) (init : Table ℤ Image) (i e : Source)
    (columns : List String) (row : Row) : Prop where
  stamped : cellOf columns row "commit_timestamp" = .datetime x.low
  holds : ∀ s, Later i s → Later s e → x.UpToClose view i s →
    s.content init d.target (keyOf (cellOf columns row d.target.leading)) =
      some (cellsOf columns row d.target.columns)

end Bracket

/-- The dates of the dump rows of a frame. -/
def dumpTimes (df : DataFrame) : List Cell :=
  (dumpRows df).map fun row => cellOf df.columns row "commit_timestamp"

/-- Two dates, the first of them not after the second. -/
def NotAfter (a b : Cell) : Prop := ∃ x y : Datetime, a = .datetime x ∧ b = .datetime y ∧ x ≤ y

/-! ### What the table holds while nothing of a key commits -/

section content

variable {init : Table ℤ Image} {t : Target} {i s e : Source} {k : ℤ} {p q high : LSN}
  {window : Option DataFrame}

/-- A key none of the changes since an instant is of has the image it had. -/
theorem content_still (h : Later i s) (hk : ∀ c ∈ added i s, keyOf (c.cells t.leading) ≠ k) :
    s.content init t k = i.content init t k := by
  have huntouched : Untouched k (writes ((added i s).map (Change.entry t))) := by
    simpa [Untouched, writes, Change.entry] using hk
  have hentries : s.entries t = i.entries t ++ (added i s).map (Change.entry t) := by
    rw [entries, h.eq_append, List.map_append]
    rfl
  rw [content, content, hentries, writes, List.map_append, replay_append]
  exact replay_of_untouched _ huntouched

/-- A change since an instant at which `p` was settled, at or below the position a window closes at,
is of no key the window is quiet about. -/
theorem key_ne_of_quiet {i₀ : Source} (hset : Settled i₀ p) (hi : Later i₀ i) (hs : Later i s)
    (he : Later s e) (hread : Read t p window high q e) (hquiet : Quiet (e.entries t) k p q) {c : Change}
    (hc : c ∈ added i s) (hle : c.startLsn ≤ high) : keyOf (c.cells t.leading) ≠ k := by
  have hadded : c ∈ added i₀ e :=
    (mem_added_trans (hi.trans hs) he).mpr (Or.inl ((mem_added_trans hi hs).mpr (Or.inr hc)))
  have hlow : p ≤ c.startLsn := hset e ((hi.trans hs).trans he) c hadded
  have hmem : c ∈ e.changes := ((hi.trans hs).trans he).mem.mpr (Or.inr hadded)
  exact quiet_entries.mp hquiet c (mem_segment.mpr ⟨hmem, hlow, hle.trans_lt hread.high_lt⟩)

end content

/-- The date of a dump row is the instant it is stamped with. -/
theorem cellOf_commitTimestamp {spec : TableSpec} {low : Datetime} {columns : List String} {row : Row} :
    cellOf (metadataColumns ++ columns) (stamp spec (some low) ++ row) "commit_timestamp" =
      .datetime low := by
  have hi : (metadataColumns ++ columns).idxOf "commit_timestamp" = 4 := by
    rw [List.idxOf_append_of_mem (by decide)]
    decide
  rw [cellOf, hi]
  rfl

/-! ### One batch -/

variable {d : Driver σ} {view : σ → Source} {init : Table ℤ Image} {req : Request} {w w' : σ}
  {b : BatchResult}

/-- Up to the close of the window, what was committed since the watermark lies at or below the
position it closes at. -/
theorem Bracket.UpToClose.le_high (hC : ClockLaws d.connector view d.target) {x : Bracket d req w}
    {i s : Source} (hs : Later i s) (hup : x.UpToClose view i s) :
    ∀ c ∈ added i s, c.startLsn ≤ x.high := by
  intro c hc
  rcases hup with hhigh | ⟨hlater, htime⟩
  · exact hhigh c hc
  · obtain ⟨j, hj, hmark⟩ := hC.maxLsn_mark x.closes
    have hmem : c ∈ (view x.w₅).changes := (hs.trans hlater).mem.mpr
      (Or.inr ((mem_added_trans hs hlater).mpr (Or.inl hc)))
    rw [hmark]
    exact (hC.barrier x.awaits c hmem (htime c hc)).trans hj.1.mark_le

/-- What was committed when a row was scanned lies at or below the position the window closes at. -/
theorem Bracket.scanned_le (hC : ClockLaws d.connector view d.target) (x : Bracket d req w) {s₀ : Source}
    (hseen : Later s₀ (view x.w₃)) : ∀ c ∈ s₀.changes, c.startLsn ≤ x.high := by
  intro c hc
  obtain ⟨j, hj, hmark⟩ := hC.maxLsn_mark x.closes
  rw [hmark]
  exact (committed_le hC hseen x.marks x.awaits c hc).trans hj.1.mark_le

/-- **What a scan saw of a key the window is quiet about** is what the table holds from the low
watermark up to the close of the window. -/
theorem Bracket.holds_of_quiet (hC : ClockLaws d.connector view d.target) (x : Bracket d req w)
    {i e s s₀ : Source} {q : LSN} {window : Option DataFrame} {k : ℤ}
    (hset : Settled (view x.w₁) x.opened.lastLsn) (hi : During view x.w₁ x.w₂ i)
    (hseen : During view x.w₂ x.w₃ s₀) (he : Later (view x.w₃) e)
    (hread : Read d.target x.opened.lastLsn window x.high q e)
    (hquiet : Quiet (e.entries d.target) k x.opened.lastLsn q) (hs : Later i s) (hse : Later s e)
    (hup : x.UpToClose view i s) : s.content init d.target k = s₀.content init d.target k := by
  have his₀ : Later i s₀ := hi.2.trans hseen.1
  have hsince : s.content init d.target k = i.content init d.target k := content_still hs fun c hc =>
    key_ne_of_quiet hset hi.1 hs hse hread hquiet hc (Bracket.UpToClose.le_high hC hs hup c hc)
  have hbefore : s₀.content init d.target k = i.content init d.target k := content_still his₀ fun c hc =>
    key_ne_of_quiet hset hi.1 his₀ (hseen.2.trans he) hread hquiet hc
      (x.scanned_le hC hseen.2 c (his₀.mem.mpr (Or.inr hc)))
  exact hsince.trans hbefore.symm

/-- **The dump rows of one call**, if the position it opened at is settled. -/
theorem Reads.dated (hC : ScanLaws d.connector view init d.target) {opened : RunState} {rows : List Row}
    {high : LSN} {window : Option DataFrame} (hd : d.target.Describes opened.spec)
    (hc : 1 ≤ req.chunkSize)
    (hset : ∀ w₁, d.opens req w = .ok opened w₁ → Settled (view w₁) opened.lastLsn)
    (h : d.Reads req w opened rows high window b w') {df : DataFrame} (hdf : df ∈ b.frame)
    (hne : dumpRows df ≠ []) :
    ∃ (x : Bracket d req w) (i : Source), During view x.w₁ x.w₂ i ∧ x.low = i.clock ∧
      Later i (view w') ∧
      ∀ row ∈ dumpRows df, ∀ e, Future d.target (view w') e → x.Dates view init i e df.columns row := by
  have hwindow := BatchRead.window hC.toLogLaws hd h
  have hquiet_frame : b.frame = window → False := by
    intro hframe
    have hnil := (window_rows hwindow.1.carries).2
    rw [← hframe, Option.mem_def.mp hdf] at hnil
    exact hne (by simpa using hnil)
  cases h with
  | tail => exact (hquiet_frame rfl).elim
  | last => exact (hquiet_frame rfl).elim
  | chunk ho hwalking hlow hp hmark ha hw hmerge =>
    obtain rfl := Option.some.inj hdf
    cases hp with
    | rows asked hne' hkey =>
      obtain ⟨wc, hcloses⟩ : ∃ wc, d.connector.getMaxLsn _ = .ok high wc := by
        cases hw with
        | past asked => exact ⟨_, asked⟩
        | read asked => exact ⟨_, asked⟩
      let x : Bracket d req w :=
        ⟨opened, _, _, _, high, _, _, _, _, _, wc, ho, hlow, asked, hmark, ha, hcloses⟩
      obtain ⟨i, hi, hclock⟩ := hC.watermark_clock hlow
      obtain ⟨hcolumns, hscan⟩ := hC.readTable hd hc asked
      have hafter : Later (view _) (view w') := (later_close hC.toClockLaws hmark ha hw).trans
        ((hC.later.mergeChunk _ _ _ _).ok hmerge)
      have hscanned : Later (view _) (view w') := ((hC.later.readTable _ _ _ _).ok asked).trans hafter
      refine ⟨x, i, hi, hclock, hi.2.trans hscanned, fun row hrow e he => ?_⟩
      obtain ⟨name, hpk⟩ := hC.single_key
      have hleading := Target.leading_mem hpk
      have hspec : d.target.Describes _ := (congrArg RunState.spec hw.frame) ▸ hd
      have hread := hwindow.1.grows he.1.grows
      have hframe := mergeChunk_rows hC.toLogLaws hspec hcolumns hread.carries hmerge
      rw [(frame_rows hframe.1 hframe.2 (dumpRow_map _)).2] at hrow
      obtain ⟨r, hr, rfl⟩ := List.mem_map.mp hrow
      obtain ⟨k, s₀, hk, hseen, hcontent⟩ := hscan r (survivors_subset hr)
      have hquiet := ((mem_survivors hpk he.2 hread.carries hk).mp hr).2
      rw [hcolumns] at hk hcontent
      rw [hframe.1]
      refine ⟨cellOf_commitTimestamp, fun s hs hse hup => ?_⟩
      rw [cellOf_append (by rfl) (d.target.unshadowed _ hleading),
        cellsOf_append (by rfl) d.target.unshadowed, hk]
      exact (x.holds_of_quiet hC.toClockLaws (hset _ ho) hi hseen (hafter.trans he.1) hread hquiet hs hse
        hup).trans hcontent

/-! ### A run -/

/-- What a run keeps of every state it has returned: its spec describes the table, and its position
is beyond the source. -/
def Kept (view : σ → Source) (t : Target) (w : σ) (known : List RunState) : Prop :=
  ∀ st ∈ known, t.Describes st.spec ∧ Beyond (view w) st.lastLsn

theorem Kept.later {t : Target} {known : List RunState} (h : Kept view t w known)
    (hw : Later (view w) (view w')) : Kept view t w' known := fun st hst =>
  ⟨(h st hst).1, (h st hst).2.later hw⟩

/-- The states a call may be given, none or one of the kept ones. -/
theorem Kept.given {t : Target} {known : List RunState} (h : Kept view t w known) {state : RunState}
    (hst : state ∈ known) : (∀ st ∈ some state, t.Describes st.spec) ∧
      ∀ st ∈ some state, Beyond (view w) st.lastLsn := by
  constructor
  · rintro _ ⟨⟩
    exact (h state hst).1
  · rintro _ ⟨⟩
    exact (h state hst).2

/-- **A returning call keeps what it hands back.** -/
theorem Kept.returns (hC : ClockLaws d.connector view d.target) {known : List RunState}
    (hk : Kept view d.target w known) {opened : RunState} {rows : List Row} {high : LSN}
    {window : Option DataFrame} (hd : d.target.Describes opened.spec)
    (hdescribes : ∀ st ∈ req.state, d.target.Describes st.spec)
    (hb : ∀ st ∈ req.state, Beyond (view w) st.lastLsn)
    (h : d.Reads req w opened rows high window b w') :
    Kept view d.target w' (b.state :: known) := by
  intro st hst
  rcases List.mem_cons.mp hst with rfl | hst
  · rw [(BatchRead.window hC.toLogLaws hd h).2]
    exact ⟨hd, BatchRead.beyond hC hd hdescribes hb h⟩
  · exact hk.later (BatchRead.later hC h) st hst

/-- A call on a state a run has kept, taken apart. -/
theorem Kept.carried (hC : ClockLaws d.connector view d.target) {known : List RunState}
    (hk : Kept view d.target w known) {state : RunState} (hst : state ∈ known)
    (given : req.state = some state) (returned : d.call req w = .ok b w') :
    ∃ opened rows high window, 1 ≤ req.chunkSize ∧ d.target.Describes opened.spec ∧
      d.Reads req w opened rows high window b w' ∧ (∀ st ∈ req.state, d.target.Describes st.spec) ∧
      ∀ st ∈ req.state, Beyond (view w) st.lastLsn := by
  obtain ⟨hdescribes, hb⟩ := hk.given hst
  obtain ⟨opened, w₁, rows, high, window, hc, -, hr, hd, -⟩ :=
    Driver.carried hC.toLogLaws (hdescribes _ rfl) given returned
  rw [← given] at hdescribes hb
  exact ⟨opened, rows, high, window, hc, hd, hr, hdescribes, hb⟩

/-- Every state a run has returned is kept. -/
theorem Run.kept (hC : ClockLaws d.connector view d.target)
    (hmoves : ∀ w w', d.moves w w' → Later (view w) (view w'))
    (hresumes : ∀ known st, d.resumes known st → fallsBack known st) {L : LSN} {known : List RunState}
    {frames : List DataFrame} (run : Run d (Seeded d) L w known frames) :
    Kept view d.target w known := by
  induction run with
  | begins h =>
    obtain ⟨req, w, opened, w₁, rows, high, window, b, fresh, -, hc, -, hd, hr, rfl, rfl, rfl⟩ := h.reads
    have hnone : Kept view d.target w [] := by simp [Kept]
    exact hnone.returns hC hd (by simp [fresh]) (by simp [fresh]) hr
  | idles run moved ih => exact ih.later (hmoves _ _ moved)
  | raises run resumed given raised ih =>
    have hm := Driver.raised_moves hC.later raised
    exact ih.later hm
  | returns run resumed given admitted returned ih =>
    obtain ⟨opened, rows, high, window, hc, hd, hr, hdescribes, hb⟩ :=
      ih.carried hC (hresumes _ _ resumed) given returned
    exact ih.returns hC hd hdescribes hb hr

/-- **A batch of a run**, taken apart: what it has read, from a settled position. -/
theorem Batched.reads (hC : ClockLaws d.connector view d.target)
    (hmoves : ∀ w w', d.moves w w' → Later (view w) (view w'))
    (hresumes : ∀ known st, d.resumes known st → fallsBack known st) (h : Batched d req w b w') :
    ∃ opened rows high window, 1 ≤ req.chunkSize ∧ d.target.Describes opened.spec ∧
      d.Reads req w opened rows high window b w' ∧
      ∀ w₁, d.opens req w = .ok opened w₁ → Settled (view w₁) opened.lastLsn := by
  cases h with
  | opening fresh opens describes returned =>
    obtain ⟨hc, opened, rows, high, window, hr⟩ := Driver.call_ok.mp returned
    obtain rfl := Driver.Reads.opened_eq hr opens
    exact ⟨opened, rows, high, window, hc, describes, hr,
      fun w₁ ho => opens_settled hC (by simp [fresh]) (by simp [fresh]) ho⟩
  | carried run resumed given returned =>
    obtain ⟨opened, rows, high, window, hc, hd, hr, hdescribes, hb⟩ :=
      (Run.kept hC hmoves hresumes run).carried hC (hresumes _ _ resumed) given returned
    exact ⟨opened, rows, high, window, hc, hd, hr, fun w₁ ho => opens_settled hC hdescribes hb ho⟩

/-- The dump rows of a batch carry one date, between the clock before the call and the clock after
it. -/
theorem Batched.times (hC : ScanLaws d.connector view init d.target)
    (hmoves : ∀ w w', d.moves w w' → Later (view w) (view w'))
    (hresumes : ∀ known st, d.resumes known st → fallsBack known st) (h : Batched d req w b w') :
    ∃ low, (view w).clock ≤ low ∧ low ≤ (view w').clock ∧
      ∀ cell ∈ b.frame.toList.flatMap dumpTimes, cell = .datetime low := by
  obtain ⟨opened, rows, high, window, hc, hd, hr, hset⟩ := h.reads hC.toClockLaws hmoves hresumes
  by_cases hnone : b.frame.toList.flatMap dumpTimes = []
  · exact ⟨(view w).clock, le_rfl, (BatchRead.later hC.toClockLaws hr).clock_le, by simp [hnone]⟩
  obtain ⟨df, hdf⟩ : ∃ df, b.frame = some df := by
    cases hframe : b.frame with
    | none => exact absurd (by rw [hframe]; rfl) hnone
    | some df => exact ⟨df, rfl⟩
  rw [hdf] at hnone ⊢
  have hne : dumpRows df ≠ [] := by
    intro hnil
    exact hnone (by simp [dumpTimes, hnil])
  obtain ⟨x, i, hi, hclock, hlater, hdates⟩ := Reads.dated hC hd hc hset hr hdf hne
  have hopen : Later (view w) (view x.w₁) := (hC.later.openRun _ _ _ _ _).ok x.opens
  refine ⟨x.low, ?_, ?_, fun cell hcell => ?_⟩
  · rw [hclock]
    exact (hopen.trans hi.1).clock_le
  · rw [hclock]
    exact hlater.clock_le
  · simp only [Option.toList_some, List.flatMap_singleton, dumpTimes, List.mem_map] at hcell
    obtain ⟨row, hrow, rfl⟩ := hcell
    exact (hdates row hrow _ ⟨Later.refl _, hC.int_keys w'⟩).stamped

/-- The dates of a run so far: in order, and not after the clock. -/
def InOrder (times : List Cell) (clock : Datetime) : Prop :=
  times.Pairwise NotAfter ∧ ∀ cell ∈ times, ∃ x : Datetime, cell = .datetime x ∧ x ≤ clock

/-- The dates of a batch come after those of the run so far. -/
theorem InOrder.append {times more : List Cell} {clock low clock' : Datetime} (h : InOrder times clock)
    (hlow : clock ≤ low) (hclock : low ≤ clock') (hmore : ∀ cell ∈ more, cell = .datetime low) :
    InOrder (times ++ more) clock' := by
  refine ⟨List.pairwise_append.mpr ⟨h.1, ?_, ?_⟩, fun cell hcell => ?_⟩
  · exact List.pairwise_of_forall_mem_list fun a ha b hb => ⟨low, low, hmore a ha, hmore b hb, le_rfl⟩
  · intro a ha b hb
    obtain ⟨x, hx, hle⟩ := h.2 a ha
    exact ⟨x, low, hx, hmore b hb, hle.trans hlow⟩
  · rcases List.mem_append.mp hcell with hold | hnew
    · obtain ⟨x, hx, hle⟩ := h.2 cell hold
      exact ⟨x, hx, hle.trans (hlow.trans hclock)⟩
    · exact ⟨low, hmore cell hnew, hclock⟩

/-- **The dates of a run are in order.** -/
theorem Run.inOrder (hC : ScanLaws d.connector view init d.target)
    (hmoves : ∀ w w', d.moves w w' → Later (view w) (view w'))
    (hresumes : ∀ known st, d.resumes known st → fallsBack known st) {L : LSN} {known : List RunState}
    {frames : List DataFrame} (run : Run d (Seeded d) L w known frames) :
    InOrder (frames.flatMap dumpTimes) (view w).clock := by
  have hlater : ∀ {times : List Cell} {w w' : σ}, InOrder times (view w).clock →
      Later (view w) (view w') → InOrder times (view w').clock := by
    intro times w w' h hw
    have hnothing : ∀ cell ∈ ([] : List Cell), cell = .datetime (view w).clock := by simp
    simpa using h.append le_rfl hw.clock_le hnothing
  induction run with
  | begins h =>
    obtain ⟨fresh, admitted, opens, describes, returned⟩ := h
    obtain ⟨low, hlow, hclock, hmore⟩ :=
      (Batched.opening fresh opens describes returned).times hC hmoves hresumes
    have hnil : InOrder [] low := by simp [InOrder]
    exact hnil.append le_rfl hclock hmore
  | idles run moved ih => exact hlater ih (hmoves _ _ moved)
  | raises run resumed given raised ih =>
    have hm := Driver.raised_moves hC.later raised
    exact hlater ih hm
  | returns run resumed given admitted returned ih =>
    obtain ⟨low, hlow, hclock, hmore⟩ :=
      (Batched.carried run resumed given returned).times hC hmoves hresumes
    rw [List.flatMap_append]
    exact ih.append hlow hclock hmore

/-- **Dump rows are dated soundly.** -/
theorem dump_rows_are_dated (hC : ScanLaws d.connector view init d.target)
    (hmoves : ∀ w w', d.moves w w' → Later (view w) (view w'))
    (hresumes : ∀ known st, d.resumes known st → fallsBack known st) :
    (∀ req w b w', Batched d req w b w' → ∀ df ∈ b.frame, dumpRows df ≠ [] →
      ∃ (x : Bracket d req w) (i : Source), During view x.w₁ x.w₂ i ∧ x.low = i.clock ∧
        ∀ row ∈ dumpRows df, ∀ e, Future d.target (view w') e →
          x.Dates view init i e df.columns row) ∧
    ∀ L w known frames, Run d (Seeded d) L w known frames →
      (frames.flatMap dumpTimes).Pairwise NotAfter := by
  refine ⟨fun req w b w' h df hdf hne => ?_, fun L w known frames run =>
    (Run.inOrder hC hmoves hresumes run).1⟩
  obtain ⟨opened, rows, high, window, hc, hd, hr, hset⟩ := h.reads hC.toClockLaws hmoves hresumes
  obtain ⟨x, i, hi, hclock, -, hdates⟩ := Reads.dated hC hd hc hset hr hdf hne
  exact ⟨x, i, hi, hclock, hdates⟩

open PyDBLog.World.InMemory in
/-- The stock as it is walked, and the sale after it. -/
theorem dump_rows_are_dated_stock :
    (∃ (x : Bracket (itemsDriver fallsBack) ⟨0, none, 5, none⟩ stock) (i : Source),
      During Memory.source x.w₁ x.w₂ i ∧ x.low = i.clock ∧ ∀ row ∈ dumpRows stockDumps, ∀ e,
        Future items stock.source e → x.Dates Memory.source (fun _ => none) i e stockDumps.columns row) ∧
    (dumpTimes stockDumps ++ dumpTimes saleDeletes).Pairwise NotAfter := by
  have hdated := dump_rows_are_dated (d := itemsDriver fallsBack)
    (Laws.scans (Memory.laws (t := items) ⟨"id", rfl⟩)) (fun _ _ h => h) (fun _ _ h => h)
  refine ⟨hdated.1 _ _ _ _ (.opening rfl (stock_opens fallsBack) (Memory.spec_describes items)
    (stock_walk fallsBack)) stockDumps rfl (by decide), ?_⟩
  have hrun := sold_run fallsBack (Seeded (itemsDriver fallsBack)) (stock_seeded fallsBack)
    List.mem_cons_self
  simpa using hdated.2 _ _ _ _ hrun

end PyDBLog.Runs.Dated
