import PyDBLog.Runs.Reconstructs
import PyDBLog.Replay.Sorted

/-! # A run sorted by log position

Every row a run has delivered, stacked and sorted by `(start_lsn, seqval)`, replays to the table as
the frames do in the order they were written (`sorted_replay_agrees`). Dump rows sort below every
event. Where the log has a change of a key, its last one below the final position is among the
events, and no event lies above it; where it has none, every dump row of the key carries the image
of the table, and there is one if the table has the key. -/

namespace PyDBLog.Runs.Stacked

open PyDBLog.Model.Python PyDBLog.Model.Frame PyDBLog.Model.Types PyDBLog.Model.Connector
open PyDBLog.Model.DBLog PyDBLog.Model.Returns PyDBLog.Model.Worlds
open PyDBLog.Mssql.Schema PyDBLog.Mssql.Connector
open PyDBLog.Replay.Basic PyDBLog.Replay.Cut PyDBLog.Replay.Dump PyDBLog.Replay.Sorted
open PyDBLog.World.Log PyDBLog.World.Log.Source PyDBLog.World.Promises
open PyDBLog.Runs.Window PyDBLog.Runs.Calls PyDBLog.Runs.Page PyDBLog.Runs.Refines
open PyDBLog.Runs.Consumer PyDBLog.Runs.Reconstructs

/-- The bytes of a cell. -/
def bytesOf : Cell → Bytes
  | .bytes b => b
  | _ => []

/-- `(start_lsn, seqval)` of a row in the columns of the table's events. -/
def rowPosition (t : Target) (row : Row) : LSN ×ₗ Bytes :=
  toLex (bytesOf (cellOf (metadataColumns ++ t.columns) row "start_lsn"),
    bytesOf (cellOf (metadataColumns ++ t.columns) row "seqval"))

/-- The rows of the frames, stacked. -/
def stacked (frames : List DataFrame) : List Row := frames.flatMap DataFrame.rows

variable {t : Target} {init : Table ℤ Image} {s : Source} {L top p q : LSN} {rows dumps : List Row}
  {st opened : RunState}

theorem rowPosition_append (a b d e f : Cell) (row : Row) :
    rowPosition t ([a, b, d, e, f] ++ row) = toLex (bytesOf a, bytesOf b) := by
  have h0 : (metadataColumns ++ t.columns).idxOf "start_lsn" = 0 := by
    rw [List.idxOf_append_of_mem (by decide)]; decide
  have h1 : (metadataColumns ++ t.columns).idxOf "seqval" = 1 := by
    rw [List.idxOf_append_of_mem (by decide)]; decide
  rw [rowPosition, cellOf, cellOf, h0, h1]
  rfl

theorem rowPosition_event (c : Change) : rowPosition t (c.eventRow t.columns) = c.position :=
  rowPosition_append ..

/-- A dump row is stamped below every position of the log. -/
theorem rowPosition_dump {row : Row} (h : DumpRow row) :
    rowPosition t row = toLex (zeroBytes lsnWidth, zeroBytes lsnWidth) := by
  obtain ⟨spec, low, cells, rfl⟩ := h
  exact rowPosition_append ..

theorem eventWrite_event {c : Change} (hk : t.leading ∈ t.columns) :
    eventWrite t (c.eventRow t.columns) = (c.entry t).toWrite := writeOf_eventRow hk

/-- Every row delivered is an event of the log between the opening of the run and the furthest
position, or a dump row that carries its key's image at a position between them. -/
def Gathered (init : Table ℤ Image) (t : Target) (s : Source) (L top : LSN) (rows : List Row) : Prop :=
  ∀ row ∈ rows, (∃ c ∈ s.segment L top, row = c.eventRow t.columns) ∨
    DumpRow row ∧ ∃ q, L ≤ q ∧ q ≤ top ∧
      (eventWrite t row).image = tableAt init (s.entries t) q (eventWrite t row).key

/-- What has been delivered by the time a run handed back a state: every event up to its position,
and a row of each key it has passed that the table has and the log does not change. -/
structure Lineage (init : Table ℤ Image) (t : Target) (s : Source) (L : LSN) (rows : List Row)
    (st : RunState) : Prop where
  opened : L ≤ st.lastLsn
  events : ∀ c ∈ s.segment L st.lastLsn, c.eventRow t.columns ∈ rows
  walked : ∀ k ∈ covers st, Quiet (s.entries t) k L st.lastLsn →
    Untouched k (rows.map (eventWrite t)) → tableAt init (s.entries t) st.lastLsn k = none

theorem Lineage.more (h : Lineage init t s L rows st) {rows' : List Row} (hsub : ∀ row ∈ rows, row ∈ rows') :
    Lineage init t s L rows' st where
  opened := h.opened
  events c hc := hsub _ (h.events c hc)
  walked k hk hq hno := h.walked k hk hq fun e he => by
    obtain ⟨row, hrow, rfl⟩ := List.mem_map.mp he
    exact hno _ (List.mem_map_of_mem (hsub row hrow))

/-- A batch adds events and dump rows of the kind gathered. -/
theorem Gathered.batch (h : Gathered init t s L top rows) (hL : L ≤ opened.lastLsn)
    (hbatch : Batch init (s.entries t) (cursorOf opened) (dumps.map (eventWrite t)) (cursorOf st))
    (hdumps : ∀ row ∈ dumps, DumpRow row) :
    Gathered init t s L (max top st.lastLsn) (rows ++
      ((s.segment opened.lastLsn st.lastLsn).map (Change.eventRow t.columns) ++ dumps)) := by
  intro row hrow
  rcases List.mem_append.mp hrow with hrow | hrow
  · rcases h row hrow with ⟨c, hc, rfl⟩ | ⟨hd, q, h1, h2, h3⟩
    · obtain ⟨hc1, hc2, hc3⟩ := mem_segment.mp hc
      exact Or.inl ⟨c, mem_segment.mpr ⟨hc1, hc2, lt_max_of_lt_left hc3⟩, rfl⟩
    · exact Or.inr ⟨hd, q, h1, le_max_of_le_left h2, h3⟩
  rcases List.mem_append.mp hrow with hrow | hrow
  · obtain ⟨c, hc, rfl⟩ := List.mem_map.mp hrow
    obtain ⟨hc1, hc2, hc3⟩ := mem_segment.mp hc
    exact Or.inl ⟨c, mem_segment.mpr ⟨hc1, hL.trans hc2, lt_max_of_lt_right hc3⟩, rfl⟩
  · refine Or.inr ⟨hdumps row hrow, st.lastLsn, hL.trans hbatch.pos_le, le_max_right _ _, ?_⟩
    exact hbatch.current _ (List.mem_map_of_mem hrow)

/-- A batch carries the lineage of the state it opened with on to the state it hands back. -/
theorem Lineage.batch (h : Lineage init t s L rows opened)
    (hbatch : Batch init (s.entries t) (cursorOf opened) (dumps.map (eventWrite t)) (cursorOf st)) :
    Lineage init t s L (rows ++
      ((s.segment opened.lastLsn st.lastLsn).map (Change.eventRow t.columns) ++ dumps)) st where
  opened := h.opened.trans hbatch.pos_le
  events c hc := by
    have hle : opened.lastLsn ≤ st.lastLsn := hbatch.pos_le
    rw [segment_append h.opened hle] at hc
    rcases List.mem_append.mp hc with hc | hc
    · exact List.mem_append_left _ (h.events c hc)
    · exact List.mem_append_right _ (List.mem_append_left _ (List.mem_map_of_mem hc))
  walked k hcov hq hno := by
    rw [List.map_append, untouched_append, List.map_append, untouched_append] at hno
    obtain ⟨hold, -, hnew⟩ := hno
    have hq' : Quiet (s.entries t) k opened.lastLsn st.lastLsn := hq.mono h.opened le_rfl
    rcases hbatch.reached k hcov with hc | hnq | hnr | hnone
    · have hle : opened.lastLsn ≤ st.lastLsn := hbatch.pos_le
      rw [tableAt_quiet hle (s.ordered_entries t) hq']
      exact h.walked k hc (hq.mono le_rfl hbatch.pos_le) hold
    · exact absurd hq' hnq
    · exact absurd hnew hnr
    · exact hnone

/-- A change of a key below `p` and above every other one below `p` gives its image at `p`. -/
theorem tableAt_of_last {c : Change} {k : ℤ} (hc : c ∈ s.changes) (hp : c.startLsn < p)
    (hkey : (c.entry t).key = k) (hlast : ∀ c' ∈ s.changes, c'.startLsn < p → (c'.entry t).key = k →
      c.position ≤ c'.position → c' = c) :
    tableAt init (s.entries t) p k = (c.entry t).image := by
  have hwrites : writes (below (s.entries t) p) =
      (s.changes.filter fun c => c.startLsn < p).map fun c => (c.entry t).toWrite := by
    rw [below, entries, List.filter_map, writes, List.map_map]
    exact congrArg _ (List.filter_congr fun _ _ => decide_eq_decide.mpr Iff.rfl)
  rw [tableAt, hwrites]
  refine replay_of_top init (s.ordered.filter _) (List.mem_filter.mpr ⟨hc, by simpa using hp⟩) hkey ?_
  intro c' hc' hk' hle
  obtain ⟨hmem, hlt⟩ := List.mem_filter.mp hc'
  rw [hlast c' hmem (by simpa using hlt) hk' hle]

/-- The last change of a key in a segment. -/
theorem exists_last {k : ℤ} (hstrict : s.changes.Pairwise fun a b => a.position < b.position)
    (h : ¬ Quiet (s.entries t) k L p) : ∃ c ∈ s.segment L p, (c.entry t).key = k ∧
      ∀ c' ∈ s.segment L p, (c'.entry t).key = k → c.position ≤ c'.position → c' = c := by
  have hsome : (s.segment L p).filter (fun c => (c.entry t).key = k) ≠ [] := by
    rw [quiet_entries] at h
    intro hnil
    refine h fun c hc hk => ?_
    exact List.filter_eq_nil_iff.mp hnil c hc (decide_eq_true hk)
  have hmem := List.mem_filter.mp (List.getLast_mem hsome)
  refine ⟨_, hmem.1, by simpa using hmem.2, fun c' hc' hk' hle => ?_⟩
  have hsorted : ((s.segment L p).filter fun c => (c.entry t).key = k).Pairwise
      fun a b => a.position < b.position := (hstrict.filter _).filter _
  have hin : c' ∈ (s.segment L p).filter fun c => (c.entry t).key = k :=
    List.mem_filter.mpr ⟨hc', by simpa using hk'⟩
  rw [← List.dropLast_append_getLast hsome] at hin
  rcases List.mem_append.mp hin with hin | hin
  · exact absurd (hsorted.rel_dropLast_getLast hin) (not_lt.mpr hle)
  · exact List.mem_singleton.mp hin

/-- Where no change lies between the position the run got to and the furthest one, the events
gathered all lie below the former. -/
theorem segment_of_still {a : LSN} (hstill : ∀ c ∈ s.changes, a ≤ c.startLsn → top ≤ c.startLsn) {c : Change}
    (hc : c ∈ s.segment L top) : c ∈ s.segment L a := by
  obtain ⟨h1, h2, h3⟩ := mem_segment.mp hc
  exact mem_segment.mpr ⟨h1, h2, not_le.mp fun hle => absurd (hstill c h1 hle) (not_le.mpr h3)⟩

section sorted

variable {sorted : List Row} {k : ℤ} (h : Gathered init t s L top rows) (hl : Lineage init t s L rows st)
  (hk : t.leading ∈ t.columns) (hstill : ∀ c ∈ s.changes, st.lastLsn ≤ c.startLsn → top ≤ c.startLsn)
  (hperm : sorted.Perm rows)

include h hl hk hstill hperm

/-- Sorted replay of a key the log does not change: every row of it carries the image of the
table. -/
theorem Gathered.replays_quiet (hcov : k ∈ covers st) (hq : Quiet (s.entries t) k L st.lastLsn) :
    replay emptyMap (sorted.map (eventWrite t)) k = tableAt init (s.entries t) st.lastLsn k := by
  by_cases hno : Untouched k (sorted.map (eventWrite t))
  · rw [replay_of_untouched _ hno]
    refine (hl.walked k hcov hq fun e he => hno e ?_).symm
    exact (hperm.map (eventWrite t)).mem_iff.mpr he
  · refine replay_of_constant _ (fun e he hek => ?_) hno
    obtain ⟨row, hrow, rfl⟩ := List.mem_map.mp he
    rcases h row (hperm.mem_iff.mp hrow) with ⟨c, hc, rfl⟩ | ⟨-, q, hLq, hqt, himage⟩
    · rw [eventWrite_event hk] at hek
      exact absurd hek (quiet_entries.mp hq c (segment_of_still hstill hc))
    · have hquiet : Quiet (s.entries t) k L top := by
        rw [quiet_entries] at hq ⊢
        exact fun c hc => hq c (segment_of_still hstill hc)
      rw [himage, hek, tableAt_quiet hLq (s.ordered_entries t) (hquiet.mono le_rfl hqt),
        tableAt_quiet hl.opened (s.ordered_entries t) hq]

variable (hstrict : s.changes.Pairwise fun a b => a.position < b.position)
  (hzero : ∀ c ∈ s.changes, zeroBytes lsnWidth < c.startLsn)
  (hsorted : sorted.Pairwise fun a b => rowPosition t a ≤ rowPosition t b)

include hstrict hzero hsorted

/-- Sorted replay of a key the log changes: its last change below the position is the last row of
it. -/
theorem Gathered.replays_changed (hq : ¬ Quiet (s.entries t) k L st.lastLsn) :
    replay emptyMap (sorted.map (eventWrite t)) k = tableAt init (s.entries t) st.lastLsn k := by
  obtain ⟨c, hc, hck, hlast⟩ := exists_last hstrict hq
  obtain ⟨hc1, hc2, hc3⟩ := mem_segment.mp hc
  have hafter : ∀ c' ∈ s.changes, c'.startLsn < st.lastLsn → (c'.entry t).key = k →
      c.position ≤ c'.position → c' = c := by
    intro c' h1 h2 h3 hle
    have hstart : c.startLsn ≤ c'.startLsn := Prod.Lex.monotone_fst _ _ hle
    exact hlast c' (mem_segment.mpr ⟨h1, hc2.trans hstart, h2⟩) h3 hle
  rw [tableAt_of_last hc1 hc3 hck hafter]
  have hin : c.eventRow t.columns ∈ sorted := hperm.mem_iff.mpr (hl.events c hc)
  refine replay_of_top _ hsorted hin ?_ fun row hrow hrk hle => ?_
  · rw [eventWrite_event hk]; exact hck
  rw [rowPosition_event] at hle
  rcases h row (hperm.mem_iff.mp hrow) with ⟨c', hc', rfl⟩ | ⟨hd, -⟩
  · rw [rowPosition_event] at hle
    rw [eventWrite_event hk] at hrk ⊢
    obtain ⟨h1, -, h3⟩ := mem_segment.mp (segment_of_still hstill hc')
    rw [hafter c' h1 h3 hrk hle]
  · -- a dump row lies below every change
    rw [rowPosition_dump hd] at hle
    have hlow : c.startLsn ≤ zeroBytes lsnWidth := Prod.Lex.monotone_fst _ _ hle
    exact absurd (hzero c hc1) (not_lt.mpr hlow)

/-- **Sorted replay**, at one instant. -/
theorem Gathered.replays (hcov : k ∈ covers st) :
    replay emptyMap (sorted.map (eventWrite t)) k = tableAt init (s.entries t) st.lastLsn k := by
  by_cases hq : Quiet (s.entries t) k L st.lastLsn
  · exact h.replays_quiet hl hk hstill hperm hcov hq
  · exact h.replays_changed hl hk hstill hperm hstrict hzero hsorted hq

end sorted

/-! ### The run -/

variable {σ : Type} {d : Driver σ} {view : σ → Source} {w w' : σ} {known : List RunState}
  {frames : List DataFrame}

/-- What a run has delivered, against every state it has returned. -/
structure Delivered (d : Driver σ) (view : σ → Source) (init : Table ℤ Image) (L : LSN) (w : σ)
    (known : List RunState) (frames : List DataFrame) (top : LSN) : Prop where
  beyond : Beyond (view w) top
  describes : ∀ st ∈ known, d.target.Describes st.spec
  behind : ∀ st ∈ known, st.lastLsn ≤ top
  columns : ∀ df ∈ frames, df.columns = metadataColumns ++ d.target.columns
  gathered : ∀ s, Future d.target (view w) s → Gathered init d.target s L top (stacked frames)
  lineage : ∀ s, Future d.target (view w) s → ∀ st ∈ known,
    Lineage init d.target s L (stacked frames) st

/-- Nothing lies between a state's position and the furthest one. -/
def Still (view : σ → Source) (w : σ) (st : RunState) (top : LSN) : Prop :=
  ∀ s, Later (view w) s → ∀ c ∈ s.changes, st.lastLsn ≤ c.startLsn → top ≤ c.startLsn

theorem Delivered.later (h : Delivered d view init L w known frames top)
    (hw : Later (view w) (view w')) : Delivered d view init L w' known frames top where
  beyond := h.beyond.later hw
  describes := h.describes
  behind := h.behind
  columns := h.columns
  gathered s hs := h.gathered s (hs.later hw)
  lineage s hs := h.lineage s (hs.later hw)

theorem stacked_append {rows : List Row} {frame : Option DataFrame} (h : HasRows t rows frame) :
    stacked (frames ++ frame.toList) = stacked frames ++ rows := by
  cases frame with
  | none => rw [show rows = [] from h]; simp [stacked]
  | some df => simp [stacked, h.2]

/-- One more call, on a state whose lineage is kept. -/
theorem Delivered.batch (hC : Laws d.connector view init d.target) {req : Request} {opened : RunState}
    {rows : List Row} {high : LSN} {window : Option DataFrame} {b : BatchResult}
    (hbeyond : Beyond (view w') (max top b.state.lastLsn)) (hd : d.target.Describes opened.spec)
    (hc : 1 ≤ req.chunkSize) (hdescribes : ∀ st ∈ req.state, d.target.Describes st.spec)
    (hb : ∀ st ∈ req.state, Beyond (view w) st.lastLsn)
    (hr : d.Reads req w opened rows high window b w') (hknown : ∀ st ∈ known, d.target.Describes st.spec)
    (hbehind : ∀ st ∈ known, st.lastLsn ≤ top)
    (hcols : ∀ df ∈ frames, df.columns = metadataColumns ++ d.target.columns)
    (hgathered : ∀ s, Future d.target (view w') s → Gathered init d.target s L top (stacked frames))
    (hlineage : ∀ s, Future d.target (view w') s → ∀ st ∈ opened :: known,
      Lineage init d.target s L (stacked frames) st) :
    Delivered d view init L w' (b.state :: known) (frames ++ b.frame.toList)
      (max top b.state.lastLsn) := by
  have hspec := (BatchRead.window hC.toLogLaws hd hr).2
  refine ⟨hbeyond, ?_, ?_, ?_, fun s hs => ?_, fun s hs => ?_⟩
  · rintro st (_ | ⟨_, hst⟩)
    · rw [hspec]; exact hd
    · exact hknown st hst
  · rintro st (_ | ⟨_, hst⟩)
    · exact le_max_right _ _
    · exact (hbehind st hst).trans (le_max_left _ _)
  · intro df hdf
    rcases List.mem_append.mp hdf with hdf | hdf
    · exact hcols df hdf
    · obtain ⟨dumps, hrows, -, -⟩ := BatchRead.batch hC hd hc hdescribes hb hr
        ⟨Later.refl _, hC.int_keys w'⟩
      cases hframe : b.frame with
      | none => rw [hframe] at hdf; cases hdf
      | some df' =>
        rw [hframe] at hdf hrows
        rw [List.mem_singleton.mp hdf]
        exact hrows.1
  · obtain ⟨dumps, hrows, hdumps, hbatch⟩ := BatchRead.batch hC hd hc hdescribes hb hr hs
    rw [stacked_append hrows]
    exact (hgathered s hs).batch (hlineage s hs opened List.mem_cons_self).opened hbatch hdumps
  · obtain ⟨dumps, hrows, hdumps, hbatch⟩ := BatchRead.batch hC hd hc hdescribes hb hr hs
    rw [stacked_append hrows]
    rintro st (_ | ⟨_, hst⟩)
    · exact (hlineage s hs opened List.mem_cons_self).batch hbatch
    · exact (hlineage s hs st (List.mem_cons_of_mem _ hst)).more fun row hrow =>
        List.mem_append_left _ hrow

/-- A fresh state has no lineage to speak of. -/
theorem Lineage.fresh (s : Source) (hcov : covers opened = ∅) :
    Lineage init t s opened.lastLsn [] opened where
  opened := le_rfl
  events c hc := by rw [segment_of_le le_rfl] at hc; cases hc
  walked k hk := by rw [hcov] at hk; exact absurd hk (Set.notMem_empty k)

/-- The first call of a run. -/
theorem Delivered.seeds (hC : Laws d.connector view init d.target) {req : Request} {opened : RunState}
    {w₁ : σ} {rows : List Row} {high : LSN} {window : Option DataFrame} {b : BatchResult}
    (fresh : req.state = none) (hc : 1 ≤ req.chunkSize) (ho : d.opens req w = .ok opened w₁)
    (hd : d.target.Describes opened.spec) (hr : d.Reads req w opened rows high window b w') :
    Delivered d view init opened.lastLsn w' [b.state] b.frame.toList b.state.lastLsn := by
  have hle : max opened.lastLsn b.state.lastLsn = b.state.lastLsn :=
    max_eq_right (BatchRead.window hC.toLogLaws hd hr).1.le
  have hdescribes : ∀ st ∈ req.state, d.target.Describes st.spec := by simp [fresh]
  have hb : ∀ st ∈ req.state, Beyond (view w) st.lastLsn := by simp [fresh]
  have hbeyond := BatchRead.beyond hC.clocked hd hdescribes hb hr
  have hcov : covers opened = ∅ := by
    rw [Driver.opens, fresh] at ho
    obtain ⟨-, -, -, -, -, -, -, hkey, hdone⟩ := seed_position hC.clocked ho
    simp [covers, hkey, hdone]
  rw [← List.nil_append b.frame.toList, ← hle]
  refine Delivered.batch hC ?_ hd hc hdescribes hb hr (by simp) (by simp) (by simp) ?_ ?_
  · rw [hle]; exact hbeyond
  · intro s hs row hrow; cases hrow
  · rintro s hs st (_ | ⟨_, h⟩)
    · exact Lineage.fresh s hcov
    · cases h

/-- **A call on a state the run has returned.** -/
theorem Delivered.returns (hC : Laws d.connector view init d.target) {req : Request} {b : BatchResult}
    (h : Delivered d view init L w known frames top) (hmem : st ∈ known) (given : req.state = some st)
    (returned : d.call req w = .ok b w') :
    ∃ top', Delivered d view init L w' (b.state :: known) (frames ++ b.frame.toList) top' ∧
      Still view w' b.state top' := by
  have hm := Driver.returned_moves hC.later returned
  have hst : ∀ x ∈ req.state, x = st := by
    intro x hx; rw [given] at hx; exact (Option.some.inj hx).symm
  obtain ⟨opened, w₁, rows, high, window, hc, ho, hr, hd, hlsn, hkey, hdone⟩ :=
    Driver.carried hC.toLogLaws (h.describes _ hmem) given returned
  have hdescribes : ∀ x ∈ req.state, d.target.Describes x.spec := by
    intro x hx; rw [hst x hx]; exact h.describes _ hmem
  have hb : ∀ x ∈ req.state, Beyond (view w) x.lastLsn := by
    intro x hx; rw [hst x hx]; exact h.beyond.anti (h.behind _ hmem)
  have hcov : covers opened = covers st := by rw [covers, covers, hkey, hdone]
  refine ⟨_, Delivered.batch hC ?_ hd hc hdescribes hb hr h.describes h.behind h.columns
    (fun s hs => h.gathered s (hs.later hm)) ?_, ?_⟩
  · exact (h.beyond.later hm).max (BatchRead.beyond hC.clocked hd hdescribes hb hr)
  · rintro s hs x (_ | ⟨_, hx⟩)
    · obtain ⟨h1, h2, h3⟩ := h.lineage s (hs.later hm) st hmem
      exact ⟨hlsn ▸ h1, by rw [hlsn]; exact h2, by rw [hcov, hlsn]; exact h3⟩
    · exact h.lineage s (hs.later hm) x hx
  · intro s hs c hcs hle
    exact max_le (BatchRead.still hC.clocked hd h.beyond hr hs c hcs hle) hle

theorem Still.later (h : Still view w st top) (hw : Later (view w) (view w')) :
    Still view w' st top := fun s hs => h s (hw.trans hs)

theorem Run.delivered (hC : Laws d.connector view init d.target)
    (hmoves : ∀ w w', d.moves w w' → Later (view w) (view w'))
    (hresumes : ∀ known st, d.resumes known st → fallsBack known st)
    (run : Run d (Seeded d) L w known frames) :
    ∃ top st, Delivered d view init L w known frames top ∧ known.head? = some st ∧
      Still view w st top := by
  induction run with
  | begins h =>
    obtain ⟨req, w₀, opened, w₁, rows, high, window, b, fresh, -, hc, ho, hd, hr, rfl, rfl, rfl⟩ :=
      h.reads
    exact ⟨_, b.state, Delivered.seeds hC fresh hc ho hd hr, rfl, fun _ _ _ _ hle => hle⟩
  | idles run moved ih =>
    obtain ⟨top, st, hdel, hk, hstill⟩ := ih
    have hm := hmoves _ _ moved
    exact ⟨top, st, hdel.later hm, hk, hstill.later hm⟩
  | raises run resumed given raised ih =>
    obtain ⟨top, st, hdel, hk, hstill⟩ := ih
    have hm := Driver.raised_moves hC.later raised
    exact ⟨top, st, hdel.later hm, hk, hstill.later hm⟩
  | returns run resumed given admitted returned ih =>
    obtain ⟨top, -, hdel, -, -⟩ := ih
    obtain ⟨top', hdel', hstill⟩ := hdel.returns hC (hresumes _ _ resumed) given returned
    exact ⟨top', _, hdel', rfl, hstill⟩

/-- **Sorting a run by log position** gives the table: every delivered row, in any order that sorts
`(start_lsn, seqval)`, replays over an empty map to the table after the changes below `last_lsn`,
once the dump is done. -/
theorem sorted_replay_agrees (hC : Laws d.connector view init d.target)
    (hmoves : ∀ w w', d.moves w w' → Later (view w) (view w'))
    (hresumes : ∀ known st, d.resumes known st → fallsBack known st)
    (hstrict : ∀ w, (view w).changes.Pairwise fun a b => a.position < b.position)
    (hzero : ∀ w, ∀ c ∈ (view w).changes, zeroBytes lsnWidth < c.startLsn)
    (run : Run d (Seeded d) L w known frames) :
    (∀ df ∈ frames, df.columns = metadataColumns ++ d.target.columns) ∧
    ∃ st, known.head? = some st ∧ (st.dumpDone = true → ∀ sorted : List Row,
      sorted.Perm (stacked frames) →
      (sorted.Pairwise fun a b => rowPosition d.target a ≤ rowPosition d.target b) → ∀ k,
        replay emptyMap (sorted.map (eventWrite d.target)) k =
          tableAt init ((view w).entries d.target) st.lastLsn k) := by
  obtain ⟨name, hpk⟩ := hC.single_key
  obtain ⟨top, st, hdel, hk, hstill⟩ := Run.delivered hC hmoves hresumes run
  refine ⟨hdel.columns, st, hk, fun hdone sorted hperm hsorted k => ?_⟩
  have hnow : Future d.target (view w) (view w) := ⟨Later.refl _, hC.int_keys w⟩
  have hmem : st ∈ known := List.mem_of_mem_head? hk
  exact (hdel.gathered _ hnow).replays (hdel.lineage _ hnow st hmem) (Target.leading_mem hpk)
    (hstill _ (Later.refl _)) hperm (hstrict w) (hzero w) hsorted (Or.inl hdone)

open PyDBLog.World.InMemory in
/-- The items after the bolt is sold, sorted. -/
theorem sorted_replay_agrees_sold :
    (∀ df ∈ [stockDumps, saleDeletes],
      df.columns = metadataColumns ++ items.columns) ∧
    ∃ st, [walkedTo 9, walkedTo 5].head? = some st ∧ (st.dumpDone = true → ∀ sorted : List Row,
      sorted.Perm (stacked [stockDumps, saleDeletes]) →
      (sorted.Pairwise fun a b => rowPosition items a ≤ rowPosition items b) → ∀ k,
        replay emptyMap (sorted.map (eventWrite items)) k =
          tableAt emptyMap (sold.source.entries items) st.lastLsn k) :=
  sorted_replay_agrees (Memory.laws ⟨"id", rfl⟩) (fun _ _ h => h) (fun _ _ h => h)
    (fun w => w.strict) (fun w => w.positive)
    (sold_run fallsBack (Seeded (itemsDriver fallsBack)) (stock_seeded fallsBack) List.mem_cons_self)

end PyDBLog.Runs.Stacked
