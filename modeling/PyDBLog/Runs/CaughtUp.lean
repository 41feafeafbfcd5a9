import PyDBLog.Mssql.Conform
import PyDBLog.Mssql.ReadTable
import PyDBLog.Runs.Page

/-! # What a missing frame means

Over SQL Server a window is None rather than empty, so a batch has no frame exactly when the walk is
over, no row was read and the table has no change in the window; any other frame has a row. Where
the source stands still the loop gets there: every call but the first has the log behind it, and
every page but the last takes a chunk size of rows (`no_frame_when_caught_up`). -/

namespace PyDBLog.Runs.CaughtUp

open PyDBLog.Model.Python PyDBLog.Model.Frame PyDBLog.Model.Types PyDBLog.Model.Connector
open PyDBLog.Model.DBLog PyDBLog.Model.Returns PyDBLog.Model.Worlds
open PyDBLog.Mssql.Schema PyDBLog.Mssql.Connector
open PyDBLog.World.Log PyDBLog.World.Log.Source PyDBLog.World.Promises
open PyDBLog.Runs.Window PyDBLog.Runs.Calls PyDBLog.Runs.Page

variable {σ : Type} {d : Driver σ} {view : σ → Source} {w w' : σ} {conn : MSSQLConnector σ}

/-- The segment a call covers is the window it has read. -/
theorem Read.segment_eq {t : Target} {p q high : LSN} {window : Option DataFrame} {s : Source}
    (h : Read t p window high q s) : s.segment p q = s.window p high := by
  rcases h.ends with rfl | ⟨-, hc⟩
  · rw [segment_of_le le_rfl, eq_comm, Source.window, List.filter_eq_nil_iff]
    intro c _ hc
    obtain ⟨h1, h2⟩ := of_decide_eq_true hc
    exact absurd (h1.trans h2) (not_le.mpr h.high_lt)
  · exact segment_of_closes hc

/-- The window of a call over SQL Server is None or has a row. -/
theorem WindowRead.nonempty {C : SourceConnector σ} (hC : C = conn.source) {state state' : RunState}
    {high : LSN} {window : Option DataFrame} (h : WindowRead C state w high window state' w') :
    ∀ df ∈ window, df.rows ≠ [] := by
  cases h with
  | past => simp
  | read hm hle he hn =>
    subst hC
    rintro df rfl
    exact MSSQLConnector.readEventLog_nonempty he

theorem BatchRead.window_nonempty {C : SourceConnector σ} (hC : C = conn.source) {now chunkSize : ℤ}
    {schema table : String} {inspectEvery : Option Timedelta} {state : Option RunState}
    {opened : RunState} {rows : List Row} {high : LSN} {window : Option DataFrame} {b : BatchResult}
    (h : BatchRead C now schema table chunkSize inspectEvery state w opened rows high window b w') :
    ∀ df ∈ window, df.rows ≠ [] := by
  cases h with
  | tail ho hdone hw => exact WindowRead.nonempty hC hw
  | last ho hwalking hlow hp hmark ha hw => exact WindowRead.nonempty hC hw
  | chunk ho hwalking hlow hp hmark ha hw hmerge => exact WindowRead.nonempty hC hw

/-- A call that reads no row off the table has ended the walk. -/
theorem BatchRead.walked {C : SourceConnector σ} {now chunkSize : ℤ} {schema table : String}
    {inspectEvery : Option Timedelta} {state : Option RunState} {opened : RunState} {high : LSN}
    {window : Option DataFrame} {b : BatchResult} (hc : 1 ≤ chunkSize)
    (h : BatchRead C now schema table chunkSize inspectEvery state w opened [] high window b w') :
    b.state.dumpDone = true := by
  generalize hrows : ([] : List Row) = rows at h
  cases h with
  | tail ho hdone hw => rw [hw.frame]; exact hdone
  | last ho hwalking hlow hp hmark ha hw =>
    cases hp
    rw [hw.frame]
    exact decide_eq_true (by omega)
  | chunk ho hwalking hlow hp hmark ha hw hmerge =>
    cases hp with
    | rows asked hne hkey => exact absurd hrows.symm hne

/-- **The frame of one call.** -/
theorem BatchRead.frame_none (hC : LogLaws d.connector view d.target)
    (hconn : d.connector = conn.source) {req : Request} {opened : RunState} {rows : List Row}
    {high : LSN} {window : Option DataFrame} {b : BatchResult} (hd : d.target.Describes opened.spec)
    (hc : 1 ≤ req.chunkSize) (h : d.Reads req w opened rows high window b w') :
    (b.frame = none ↔ b.state.dumpDone = true ∧ rows = [] ∧
      (view w').window opened.lastLsn high = []) ∧ ∀ df ∈ b.frame, df.rows ≠ [] := by
  have hread := (BatchRead.window hC hd h).1
  have hne := BatchRead.window_nonempty hconn h
  have hwindow : window = none ↔ (view w').window opened.lastLsn high = [] := by
    rw [← Read.segment_eq hread, ← List.map_eq_nil_iff (f := Change.eventRow d.target.columns),
      ← HasRows.rows hread.carries]
    cases window with
    | none => simp [windowRows]
    | some df => simpa [windowRows] using hne df rfl
  have hshape := BatchRead.shape hC h
  have hwalked : rows = [] → b.state.dumpDone = true := by
    rintro rfl
    exact BatchRead.walked hc h
  generalize b.frame = frame at hshape ⊢
  cases hshape with
  | window => exact ⟨by simp [hwindow, hwalked rfl], hne⟩
  | chunk hrows hcols heq =>
    refine ⟨by simp [hrows], ?_⟩
    rintro _ ⟨⟩
    rw [heq]
    cases window with
    | none => simpa [windowRows, survivors] using hrows
    | some top => exact List.append_ne_nil_of_left_ne_nil (hne top rfl) _

/-! ### A source that stands still -/

/-- The keys a page that opens at `start` reads from. -/
def keysFrom (keys : List ℤ) : Option ℤ → List ℤ
  | none => keys
  | some a => keys.filter fun k => a ≤ k

/-- The keys a state has left to walk. -/
def remaining (keys : List ℤ) (st : RunState) : List ℤ :=
  if st.dumpDone then [] else keysFrom keys st.chunkKey

/-- In the worlds of `Q` the table keeps its leading keys, which may repeat, and the source reports
one position. -/
structure Quiescent (d : Driver σ) (Q : σ → Prop) (keys : List ℤ) (m : LSN) : Prop where
  moving : Moving (fun w w' => Q w → Q w') d.connector
  moves : ∀ {w w'}, d.moves w w' → Q w → Q w'
  sorted : keys.Pairwise (· ≤ ·)
  maxLsn : ∀ {w high w'}, Q w → d.connector.getMaxLsn w = .ok high w' → high = m
  page : ∀ {spec start limit w df w'}, Q w → d.target.Describes spec → 1 ≤ limit →
    d.connector.readTable spec start none limit w = .ok df w' →
    df.rows.map (rowKey d.target.leading df) = (keysFrom keys start).take limit.toNat

/-- The loop from a state on, by the number of its calls that returned, each with a frame. -/
inductive Loop (d : Driver σ) (c : ℤ) (st₀ : RunState) (w₀ : σ) : ℕ → RunState → σ → Prop
  | start : Loop d c st₀ w₀ 0 st₀ w₀
  | idles {n st w w'} (loop : Loop d c st₀ w₀ n st w) (moved : d.moves w w') : Loop d c st₀ w₀ n st w'
  | raises {n st w req e w'} (loop : Loop d c st₀ w₀ n st w) (given : req.state = some st)
      (raised : d.call req w = .error e w') : Loop d c st₀ w₀ n st w'
  | returns {n st w req b w'} (loop : Loop d c st₀ w₀ n st w) (given : req.state = some st)
      (size : req.chunkSize = c) (returned : d.call req w = .ok b w') (frame : b.frame ≠ none) :
      Loop d c st₀ w₀ (n + 1) b.state w'

/-- One past the last of the first `n` keys there are no more than after them. -/
theorem length_filter_past {keys : List ℤ} {n : ℕ} (hs : keys.Pairwise (· ≤ ·)) (hne : keys.take n ≠ [])
    {key : ℤ} (hkey : (keys.take n).getLast hne = key - 1) :
    (keys.filter fun k => key ≤ k).length ≤ (keys.drop n).length := by
  have htake : (keys.take n).Pairwise (· ≤ ·) := hs.sublist (List.take_sublist n keys)
  have hnone : (keys.take n).filter (fun k => key ≤ k) = [] := by
    refine List.filter_eq_nil_iff.mpr fun k hk => ?_
    have hle : k ≤ key - 1 := by
      rw [← hkey]
      exact htake.rel_getLast_of_rel_getLast_getLast hk le_rfl
    rw [decide_eq_true_eq]
    omega
  have hsplit : keys.filter (fun k => key ≤ k) = (keys.drop n).filter fun k => key ≤ k := by
    conv_lhs => rw [← List.take_append_drop n keys]
    rw [List.filter_append, hnone, List.nil_append]
  rw [hsplit]
  exact List.length_filter_le _ _

/-- The keys left after a page. -/
theorem length_keysFrom_next {keys : List ℤ} {n : ℕ} {start : Option ℤ} (hs : keys.Pairwise (· ≤ ·))
    (hne : (keysFrom keys start).take n ≠ []) {key : ℤ}
    (hkey : ((keysFrom keys start).take n).getLast hne = key - 1) :
    (keysFrom keys (some key)).length ≤ ((keysFrom keys start).drop n).length := by
  cases start with
  | none => exact length_filter_past hs hne hkey
  | some a =>
    have hsub : keys.filter (fun k => key ≤ k) = (keys.filter fun k => a ≤ k).filter fun k => key ≤ k := by
      have hmem := List.mem_of_mem_take (List.getLast_mem hne)
      rw [hkey] at hmem
      have ha : a ≤ key - 1 := of_decide_eq_true (List.mem_filter.mp hmem).2
      rw [List.filter_filter]
      refine List.filter_congr fun k _ => ?_
      by_cases hk : key ≤ k
      · simp [hk, show a ≤ k by omega]
      · simp [hk]
    rw [keysFrom, hsub]
    exact length_filter_past (hs.filter _) hne hkey

section quiet

variable {Q : σ → Prop} {keys : List ℤ} {m : LSN} {req : Request} {opened : RunState} {rows : List Row}
  {high : LSN} {window : Option DataFrame} {b : BatchResult}

theorem WindowRead.high_eq (hQ : Quiescent d Q keys m) (hw : Q w) {st st' : RunState}
    (h : WindowRead d.connector st w high window st' w') : high = m := by
  cases h with
  | past hm => exact hQ.maxLsn hw hm
  | read hm => exact hQ.maxLsn hw hm

/-- The source stands still through the bracket around a page. -/
theorem Quiescent.bracket (hQ : Quiescent d Q keys m) {st : RunState} {limit : ℤ}
    {page : Option DataFrame × RunState} {low mark : Datetime} {w₁ w₂ w₃ w₄ w₅ : σ} (hw : Q w₁)
    (hlow : d.connector.watermark w₁ = .ok low w₂) (hp : nextChunk d.connector st limit w₂ = .ok page w₃)
    (hmark : d.connector.watermark w₃ = .ok mark w₄)
    (ha : d.connector.awaitWatermark mark w₄ = .ok () w₅) : Q w₂ ∧ Q w₅ := by
  have h2 : Q w₂ := hQ.moving.watermark.ok hlow hw
  have h3 : Q w₃ := (hQ.moving.nextChunk _ _).ok hp h2
  have h4 : Q w₄ := hQ.moving.watermark.ok hmark h3
  exact ⟨h2, (hQ.moving.awaitWatermark _).ok ha h4⟩

/-- One call on a source that stands still: the window is closed at the one position, and a page
takes at least a chunk size of the keys left or ends the walk. -/
theorem Quiescent.call (hQ : Quiescent d Q keys m) (hw : Q w) (hd : d.target.Describes opened.spec)
    (hc : 1 ≤ req.chunkSize) (h : d.Reads req w opened rows high window b w') :
    high = m ∧ (opened.dumpDone = true → b.state.dumpDone = true ∧ rows = []) ∧
      (opened.dumpDone = false → b.state.dumpDone = false →
        ((remaining keys b.state).length : ℤ) + req.chunkSize ≤ (remaining keys opened).length) := by
  have hopen : ∀ {w₁}, openRun d.connector req.now d.target.schema d.target.table req.state
      req.inspectEvery w = .ok opened w₁ → Q w₁ := fun ho => (hQ.moving.openRun _ _ _ _ _).ok ho hw
  cases h with
  | tail ho hdone hclose =>
    refine ⟨WindowRead.high_eq hQ (hopen ho) hclose, fun _ => ⟨by rw [hclose.frame]; exact hdone, rfl⟩, ?_⟩
    intro hwalking
    rw [hdone] at hwalking
    cases hwalking
  | last ho hwalking hlow hp hmark ha hclose =>
    obtain ⟨-, h5⟩ := hQ.bracket (hopen ho) hlow (nextChunk_ok.mpr ⟨_, hp⟩) hmark ha
    refine ⟨WindowRead.high_eq hQ h5 hclose, fun hdone => ?_, fun _ hnot => ?_⟩
    · rw [hwalking] at hdone; cases hdone
    · rw [hclose.frame] at hnot
      cases hp
      exact absurd hnot (by simp; omega)
  | chunk ho hwalking hlow hp hmark ha hclose hmerge =>
    obtain ⟨h2, h5⟩ := hQ.bracket (hopen ho) hlow (nextChunk_ok.mpr ⟨_, hp⟩) hmark ha
    refine ⟨WindowRead.high_eq hQ h5 hclose, fun hdone => ?_, fun _ hnot => ?_⟩
    · rw [hwalking] at hdone; cases hdone
    rw [hclose.frame] at hnot ⊢
    cases hp with
    | rows asked hne hkey =>
      have hpage := hQ.page h2 hd hc asked
      have hfull := not_lt.mp (of_decide_eq_false hnot)
      rw [DataFrame.height, ← List.length_map (rowKey d.target.leading _), hpage, List.length_take] at hfull
      have hlast := keyAfter_last hd.leading_eq hne hkey
      have htake : (keysFrom keys opened.chunkKey).take req.chunkSize.toNat ≠ [] := by
        rw [← hpage]; simpa using hne
      have hnext := length_keysFrom_next hQ.sorted htake
        (by rw [← hlast]; simp only [← hpage, List.getLast_map])
      rw [List.length_drop] at hnext
      rw [remaining, remaining, hnot, hwalking, if_neg (by simp), if_neg (by simp)]
      dsimp only
      omega

/-- Where a loop of frames stands after `n` calls, `r` keys being left when it began. -/
structure Looped (d : Driver σ) (keys : List ℤ) (m : LSN) (c r : ℤ) (n : ℕ) (st : RunState) :
    Prop where
  describes : d.target.Describes st.spec
  caught : n ≠ 0 → m < st.lastLsn
  left : st.dumpDone = false → (remaining keys st).length + c * n ≤ r
  bound : (n : ℤ) ≤ r / c + 1

/-- One more call that has a frame. -/
theorem Looped.call (hC : LogLaws d.connector view d.target) (hconn : d.connector = conn.source)
    (hQ : Quiescent d Q keys m) (hw : Q w) {c r : ℤ} (hr₀ : 0 ≤ r) {n : ℕ} {st : RunState}
    (h : Looped d keys m c r n st) (given : req.state = some st) (size : req.chunkSize = c)
    (returned : d.call req w = .ok b w') (frame : b.frame ≠ none) :
    Looped d keys m c r (n + 1) b.state := by
  obtain ⟨opened, w₁, rows, high, window, hc, -, hr, hd, hlsn, hkey, hdone⟩ :=
    Driver.carried hC h.describes given returned
  obtain ⟨hread, hspec⟩ := BatchRead.window hC hd hr
  obtain ⟨hhigh, hwalked, hpage⟩ := hQ.call hw hd hc hr
  have hleft : remaining keys opened = remaining keys st := by rw [remaining, remaining, hkey, hdone]
  rw [size] at hc hpage
  have hcaught : m < b.state.lastLsn := hhigh ▸ hread.high_lt
  by_cases hst : st.dumpDone = true
  · -- a walked state whose log is behind it has no frame to give
    obtain ⟨hb, hrows⟩ := hwalked (hdone.trans hst)
    obtain rfl : n = 0 := by
      by_contra hn
      refine frame ((BatchRead.frame_none hC hconn hd (size ▸ hc) hr).1.mpr ⟨hb, hrows, ?_⟩)
      rw [Source.window, List.filter_eq_nil_iff]
      intro ch _ hch
      obtain ⟨h1, h2⟩ := of_decide_eq_true hch
      rw [hlsn] at h1
      exact absurd (h1.trans h2) (not_le.mpr (hhigh ▸ h.caught hn))
    refine ⟨hspec ▸ hd, fun _ => hcaught, fun hnot => ?_, ?_⟩
    · rw [hb] at hnot; cases hnot
    · have := Int.ediv_nonneg hr₀ (by omega : (0 : ℤ) ≤ c)
      push_cast
      omega
  · have hwalking : st.dumpDone = false := eq_false_of_ne_true hst
    have hr := h.left hwalking
    have hn : (n : ℤ) ≤ r / c := by
      rw [Int.le_ediv_iff_mul_le (by omega)]
      linarith
    refine ⟨hspec ▸ hd, fun _ => hcaught, fun hnot => ?_, by push_cast; omega⟩
    have := hpage (hdone.trans hwalking) hnot
    rw [hleft] at this
    push_cast
    linarith

theorem Loop.looped (hC : LogLaws d.connector view d.target) (hconn : d.connector = conn.source)
    (hQ : Quiescent d Q keys m) {c : ℤ} (hc : 1 ≤ c) {st₀ st : RunState} {w₀ : σ} {n : ℕ}
    (hw₀ : Q w₀) (hd : d.target.Describes st₀.spec) (loop : Loop d c st₀ w₀ n st w) :
    Q w ∧ Looped d keys m c (remaining keys st₀).length n st := by
  induction loop with
  | start =>
    have hnonneg : (0 : ℤ) ≤ (remaining keys st₀).length / c :=
      Int.ediv_nonneg (Int.natCast_nonneg _) (by omega)
    exact ⟨hw₀, hd, fun h => absurd rfl h, fun _ => by simp, by push_cast; omega⟩
  | idles loop moved ih => exact ⟨hQ.moves moved ih.1, ih.2⟩
  | raises loop given raised ih => exact ⟨Driver.raised_moves hQ.moving raised ih.1, ih.2⟩
  | returns loop given size returned frame ih =>
    exact ⟨Driver.returned_moves hQ.moving returned ih.1,
      ih.2.call hC hconn hQ ih.1 (Int.natCast_nonneg _) given size returned frame⟩

end quiet

/-- **No frame means walked and caught up**, and comes in time. A returning call over SQL Server has
no frame exactly when the state it hands back is walked, it read no row, and the table has no change
from the position it opened at to the one it read when closing the window; any other frame has a
row. Once the source stands still with `r` keys left to walk, a loop of calls with frames has at
most `r / c + 1` of them. -/
theorem no_frame_when_caught_up (hC : LogLaws d.connector view d.target)
    (hconn : d.connector = conn.source) :
    (∀ {req w opened rows high window b w'}, d.target.Describes opened.spec → 1 ≤ req.chunkSize →
      d.Reads req w opened rows high window b w' →
      (b.frame = none ↔ b.state.dumpDone = true ∧ rows = [] ∧
        (view w').changes.filter (fun c => opened.lastLsn ≤ c.startLsn ∧ c.startLsn ≤ high) = []) ∧
      ∀ df ∈ b.frame, df.rows ≠ []) ∧
    ∀ {Q keys m c st₀ w₀ n st w}, Quiescent d Q keys m → 1 ≤ c → Q w₀ →
      d.target.Describes st₀.spec → Loop d c st₀ w₀ n st w →
        (n : ℤ) ≤ (remaining keys st₀).length / c + 1 :=
  ⟨fun hd hc h => BatchRead.frame_none hC hconn hd hc h,
    fun hQ hc hw₀ hd loop => (Loop.looped hC hconn hQ hc hw₀ hd loop).2.bound⟩

/-! ### A server of two items and one event -/

open PyDBLog.World.InMemory PyDBLog.Mssql.OneSchema PyDBLog.Mssql.Conform
open PyDBLog.Mssql.ReadTable hiding items

/-- The rows of a page of a bolt and a nut. -/
def boltRows (start : Option ℤ) (limit : ℤ) : List Row :=
  ((keysFrom [1, 2] start).take limit.toNat).map fun id => [.int id, .str (if id = 1 then "bolt" else "nut")]

/-- The log holds the event of the bolt and reaches from position 1 to 6; the table holds both
items. -/
def boltServer : MSSQLConnector Unit := serverOf fun query params =>
  match params with
  | [.bytes low, .bytes high] =>
    if low < lsnAt 1 then throw (.driverError query)
    else return if low ≤ lsnAt 4 ∧ lsnAt 4 ≤ high then ⟨[], oneEvent⟩ else answer []
  | [.str _] => return answer [[.bytes (lsnAt 1)]]
  | [.datetime _, .datetime _] => return answer [[.int 1]]
  | [.int limit] => return ⟨[], shown items.columns (boltRows none limit)⟩
  | [.int start, .int limit] => return ⟨[], shown items.columns (boltRows (some start) limit)⟩
  | _ =>
    if query = "SELECT SYSDATETIME()" then return answer [[.datetime 6]]
    else return answer [[.bytes (lsnAt 6)]]

def boltSource : Source where
  changes := [itemChange 4 .insert 1 "bolt"]
  mark := lsnAt 6
  floor _ := lsnAt 1
  clock := 6
  ordered := by simp
  wide := by decide
  dated := by decide

theorem boltSource_window (low high : LSN) : boltSource.window low high =
    if low ≤ lsnAt 4 ∧ lsnAt 4 ≤ high then [itemChange 4 .insert 1 "bolt"] else [] := by
  split_ifs with h
  · refine List.filter_eq_self.mpr fun c hc => ?_
    obtain rfl := List.mem_singleton.mp hc
    exact decide_eq_true h
  · refine List.filter_eq_nil_iff.mpr fun c hc hd => h ?_
    obtain rfl := List.mem_singleton.mp hc
    exact of_decide_eq_true hd

/-- Conforming the event to the schema of any spec of the items puts its cells in order. -/
theorem conform_oneEvent {spec : TableSpec} {schema : List ArrowField} {context : String}
    {columns : List ArrowColumn} (hd : items.Describes spec) (hs : eventSchema spec = .ok schema)
    (h : conform plainLibraries oneEvent schema context = .ok columns) :
    Carries items [itemChange 4 .insert 1 "bolt"] (some (frameOf plainLibraries 1 columns)) := by
  obtain ⟨fs, hfs, rfl⟩ := eventSchema_ok.mp hs
  have hnames : fs.map Prod.fst = ["id", "name"] := (fields_names hfs).trans hd.2.2.2
  obtain ⟨⟨_, a⟩, fs₁, rfl, rfl, hnames₁⟩ := List.map_eq_cons_iff.mp hnames
  obtain ⟨⟨_, b⟩, fs₂, rfl, rfl, hnames₂⟩ := List.map_eq_cons_iff.mp hnames₁
  obtain rfl := List.map_eq_nil_iff.mp hnames₂
  have hconform : conform plainLibraries oneEvent (metadataFields ++ [("id", a), ("name", b)]) context =
      .ok [⟨"start_lsn", .largeBinary, [.bytes (lsnAt 4)]⟩, ⟨"seqval", .largeBinary, [.bytes (lsnAt 4)]⟩,
        ⟨"operation", .int32, [.int 2]⟩, ⟨"update_mask", .largeBinary, [.bytes (Bytes.BigEndian.digits 1 3)]⟩,
        ⟨"commit_timestamp", .timestamp .us none, [.datetime 4]⟩, ⟨"id", a, [.int 1]⟩,
        ⟨"name", b, [.str "bolt"]⟩] := rfl
  obtain rfl := Except.ok.inj (hconform.symm.trans h)
  exact ⟨rfl, rfl⟩

/-- The server moves nothing. -/
theorem moving_boltServer {R : Unit → Unit → Prop} (hR : R () ()) : Moving R boltServer.source where
  refl _ := hR
  trans _ _ := hR
  getMaxLsn _ := hR
  getMinLsn _ _ := hR
  watermark _ := hR
  awaitWatermark _ _ := hR
  inspect _ _ _ := hR
  readEventLog _ _ _ _ := hR
  toEvents _ _ _ _ := hR
  readTable _ _ _ _ _ := hR
  incrementLsn _ _ := hR

theorem boltServer_maxLsn {high : LSN} {w w' : Unit} (h : boltServer.source.getMaxLsn w = .ok high w') :
    high = lsnAt 6 := by
  have hok : boltServer.source.getMaxLsn () = .ok (lsnAt 6) () := rfl
  cases hok.symm.trans h
  rfl

theorem boltServer_logLaws : LogLaws boltServer.source (fun _ => boltSource) items where
  grows := moving_boltServer (Grows.refl boltSource)
  inspect_names h := ⟨(MSSQLConnector.inspect_ok h).1, (MSSQLConnector.inspect_ok h).2.1⟩
  maxLsn_wide h := by rw [boltServer_maxLsn h]; decide
  maxLsn_le h := (boltServer_maxLsn h).le
  readEventLog {spec captureInstance low high _ window _} hd hci h := by
    refine ⟨boltSource, Grows.refl _, Grows.refl _, ?_⟩
    obtain ⟨ci, query, result, -, hx, hwindow⟩ := MSSQLConnector.readEventLog_ok h
    simp only [boltServer, serverOf, guard_ok, pure_ok, not_lt] at hx
    obtain ⟨hlow, rfl, -⟩ := hx
    refine ⟨hlow, ?_⟩
    rw [retained_window (show boltSource.floor captureInstance ≤ low from hlow), boltSource_window]
    split_ifs at hwindow ⊢ with hin
    · rcases hwindow with ⟨hzero, -⟩ | ⟨-, schema, columns, hs, hcols, rfl⟩
      · cases hzero
      · exact conform_oneEvent hd hs hcols
    · rcases hwindow with ⟨-, rfl⟩ | ⟨hne, -⟩
      · rfl
      · exact absurd rfl hne
  toEvents _ _ _ _ := rfl
  incrementLsn _ _ := rfl

def boltDriver : Driver Unit := ⟨boltServer.source, items, Eq, threads, fun _ _ => True⟩

/-- What a page is answered. -/
theorem boltServer_page {query : String} {start : Option ℤ} {limit : ℤ} {result : ResultSet} {w w' : Unit}
    (hlimit : 1 ≤ limit)
    (hx : boltServer.execute query ((parameters .fetch start none limit).map .int) w = .ok result w') :
    result.arrow = shown items.columns (boltRows start limit) := by
  have hpositive : limit > 0 := by omega
  cases start with
  | none =>
    simp only [parameters, hpositive, true_and, if_true] at hx
    obtain ⟨rfl, -⟩ := pure_ok.mp hx
    rfl
  | some a =>
    simp only [parameters, hpositive, true_and, if_true] at hx
    obtain ⟨rfl, -⟩ := pure_ok.mp hx
    rfl

/-- The server stands still. -/
theorem bolt_quiescent : Quiescent boltDriver (fun _ => True) [1, 2] (lsnAt 6) where
  moving := moving_boltServer id
  moves _ h := h
  sorted := by decide
  maxLsn _ h := boltServer_maxLsn h
  page {spec start limit w df w'} _ hd hlimit h := by
    have h : boltServer.readTable spec start none limit w = .ok df w' := h
    simp only [MSSQLConnector.readTable, bind_ok, ofExcept_ok, pure_ok] at h
    obtain ⟨⟨query, params⟩, _, ⟨built, -⟩, result, _, hx, fs, _, ⟨hfs, -⟩, columns, _, ⟨hconform, -⟩,
      rfl, -⟩ := h
    obtain ⟨-, -, rfl⟩ := buildReadTableQuery_ok.mp built
    rw [boltServer_page hlimit hx] at hconform ⊢
    have hnames : fs.map Prod.fst = items.columns := (fields_names hfs).trans hd.2.2.2
    have hcasts : KeepsCells boltServer.lib := fun _ _ _ _ hcast => (Option.some.inj hcast).symm
    have hlength : ∀ row ∈ boltRows start limit, row.length = items.columns.length := by
      intro row hrow
      obtain ⟨id, -, rfl⟩ := List.mem_map.mp hrow
      rfl
    obtain ⟨hcolumns, hrows⟩ := conform_same hcasts (shown_shows _ _) hconform hnames hlength
    have hkey : ∀ id : ℤ, rowKey items.leading
        (frameOf boltServer.lib (shown items.columns (boltRows start limit)).numRows columns)
        [.int id, .str (if id = 1 then "bolt" else "nut")] = id := by
      intro id
      rw [rowKey, hcolumns]
      rfl
    rw [hrows, boltRows, List.map_map]
    exact List.map_id'' hkey _

/-- The dump row of the nut. -/
def nutFrame : DataFrame where
  schema := eventFrame.schema
  rows := (itemDumps 6 [(2, "nut")]).rows

/-- A state that is past the log, and before an item. -/
def boltBefore (id : ℤ) : RunState := ⟨itemsSpec, lsnAt 7, .utc 0, some id, false⟩

/-- The event of the bolt makes a frame and takes the place of its row. -/
theorem bolt_called : boltDriver.call ⟨0, some (unwalkedAt 4), 1, none⟩ () =
    .ok ⟨some eventFrame, boltBefore 2⟩ () := rfl

theorem nut_called : boltDriver.call ⟨0, some (boltBefore 2), 1, none⟩ () =
    .ok ⟨some nutFrame, boltBefore 3⟩ () := rfl

/-- A third call finds no item and no event. -/
theorem nothing_read : boltDriver.Reads ⟨0, some (boltBefore 3), 1, none⟩ () (boltBefore 3) [] (lsnAt 6) none
    ⟨none, walkedAt 7⟩ () := by
  have opens : openRun boltServer.source 0 "dbo" "items" (some (boltBefore 3)) none () =
      .ok (boltBefore 3) () := rfl
  have clock : boltServer.source.watermark () = .ok 6 () := rfl
  have asked : boltServer.source.readTable itemsSpec (some 3) none 1 () =
      .ok ⟨[("id", .int32), ("name", .other "large_string")], []⟩ () := rfl
  have awaits : boltServer.source.awaitWatermark 6 () = .ok () () := rfl
  have reported : boltServer.source.getMaxLsn () = .ok (lsnAt 6) () := rfl
  have past : lsnAt 6 < (walkedAt 7).lastLsn := by decide
  exact .last opens rfl clock (.empty asked rfl) clock awaits (.past reported past)

/-- The items are walked one by one, to the call without a frame. -/
theorem no_frame_when_caught_up_bolt :
    (((none : Option DataFrame) = none ↔ (walkedAt 7).dumpDone = true ∧ ([] : List Row) = [] ∧
        boltSource.changes.filter (fun c => lsnAt 7 ≤ c.startLsn ∧ c.startLsn ≤ lsnAt 6) = []) ∧
      ∀ df ∈ (none : Option DataFrame), df.rows ≠ []) ∧
    ((2 : ℕ) : ℤ) ≤ (remaining [1, 2] (unwalkedAt 4)).length / 1 + 1 := by
  have h := no_frame_when_caught_up (d := boltDriver) boltServer_logLaws rfl
  have hd : boltDriver.target.Describes itemsSpec := ⟨rfl, rfl, rfl, rfl⟩
  have first : Loop boltDriver 1 (unwalkedAt 4) () 1 (boltBefore 2) () :=
    .returns .start rfl rfl bolt_called (by simp)
  have loop : Loop boltDriver 1 (unwalkedAt 4) () 2 (boltBefore 3) () :=
    .returns first rfl rfl nut_called (by simp)
  exact ⟨h.1 hd (by norm_num) nothing_read, h.2 bolt_quiescent (by norm_num) trivial hd loop⟩

end PyDBLog.Runs.CaughtUp
