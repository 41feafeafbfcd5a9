import PyDBLog.Runs.Page
import PyDBLog.Runs.Tiles

/-! # The walk goes forward and ends

Under the promises of the log and of the pages alone, whatever else happens to the table: what one
call does to the position, the page and the dump rows (`BatchRead.advance`), and what follows for a
run of threaded calls. Every page that does not end the walk moves the cursor over at least as many
integers as the page has rows, so that the walk ends within the width of the key space
(`walk_progresses`). -/

namespace PyDBLog.Runs.Progress

open PyDBLog.Model.Python PyDBLog.Model.Frame PyDBLog.Model.Types PyDBLog.Model.Connector
open PyDBLog.Model.DBLog PyDBLog.Model.Returns PyDBLog.Model.Worlds
open PyDBLog.Mssql.Schema PyDBLog.Mssql.Connector
open PyDBLog.World.Log PyDBLog.World.Promises
open PyDBLog.Runs.Window PyDBLog.Runs.Calls PyDBLog.Runs.Page PyDBLog.Runs.Tiles

/-- Increasing integers take as much room as there are of them. -/
theorem add_length_le {α : Type} (f : α → ℤ) : ∀ {xs : List α} {lo hi : ℤ},
    (xs.Pairwise fun a b => f a < f b) → (∀ x ∈ xs, lo ≤ f x) → (∀ x ∈ xs, f x < hi) → lo ≤ hi →
      lo + xs.length ≤ hi
  | [], _, _, _, _, _, h => by simpa using h
  | x :: xs, lo, hi, hs, hlo, hhi, _ => by
    obtain ⟨hx, hs⟩ := List.pairwise_cons.mp hs
    have h1 := hlo x List.mem_cons_self
    have h2 := hhi x List.mem_cons_self
    have ih : f x + 1 + xs.length ≤ hi :=
      add_length_le f hs (fun y hy => hx y hy) (fun y hy => hhi y (List.mem_cons_of_mem x hy)) h2
    rw [List.length_cons]
    push_cast
    omega

/-- The keys of the dump rows of a frame. -/
def dumpKeys (leading : String) (df : DataFrame) : List ℤ :=
  (dumpRows df).map fun row => keyOf (cellOf df.columns row leading)

variable {σ : Type} {C : SourceConnector σ} {view : σ → Source} {t : Target} {w w' : σ}

/-- Every page of the table is a page of rows with integer keys, all of them keys in `range`. -/
def PagesIn (C : SourceConnector σ) (t : Target) (range : Set ℤ) : Prop :=
  ∀ {spec start limit w df w'}, t.Describes spec → 1 ≤ limit →
    C.readTable spec start none limit w = .ok df w' →
    KeyPage t.leading start limit df ∧ ∀ row ∈ df.rows, rowKey t.leading df row ∈ range

/-- The keys of a page that opens at `start` and is followed by one that opens at `key`. -/
structure PageKeys (start : Option ℤ) (keys : List ℤ) (key : ℤ) : Prop where
  increasing : keys.Pairwise (· < ·)
  from_start : ∀ k ∈ keys, ∀ a ∈ start, a ≤ k
  last : key - 1 ∈ keys
  below : ∀ k ∈ keys, k < key

/-- A page moves the cursor past at least as many integers as it has rows. -/
theorem PageKeys.room {start : Option ℤ} {keys : List ℤ} {key base : ℤ} (h : PageKeys start keys key)
    (hbase : ∀ k ∈ keys, base ≤ k) : base + keys.length ≤ key := by
  have := hbase _ h.last
  exact add_length_le id h.increasing hbase h.below (by omega)

/-- What a call did to the walk: it read no row and the walk is over, or it read a page. -/
inductive Advance (range : Set ℤ) (chunkSize : ℤ) (opened state : RunState) :
    List Row → List ℤ → Prop
  | ended (key_eq : state.chunkKey = opened.chunkKey) (done : state.dumpDone = true) :
      Advance range chunkSize opened state [] []
  | paged {rows dumped keys key} (walking : opened.dumpDone = false)
      (page : PageKeys opened.chunkKey keys key) (length_eq : keys.length = rows.length)
      (in_range : ∀ k ∈ keys, k ∈ range) (key_eq : state.chunkKey = some key)
      (full : state.dumpDone = false → chunkSize ≤ rows.length) (kept : dumped.Sublist keys) :
      Advance range chunkSize opened state rows dumped

/-- The keys of a page, and of the one that follows it. -/
theorem KeyPage.pageKeys {leading : String} {start : Option ℤ} {limit : ℤ} {df : DataFrame}
    (hp : KeyPage leading start limit df) {spec : TableSpec} {key : ℤ}
    (hl : spec.pkColumns.headD "" = leading) (hne : df.rows ≠ []) (h : keyAfter df spec = .ok key) :
    PageKeys start (df.rows.map (rowKey leading df)) key := by
  obtain ⟨⟨row, hrow, hrk⟩, hall⟩ := KeyPage.next hp hl hne h
  refine ⟨List.pairwise_map.mpr hp.increasing, ?_, List.mem_map.mpr ⟨row, hrow, hrk⟩, ?_⟩
  · intro k hk a ha
    obtain ⟨row', hrow', rfl⟩ := List.mem_map.mp hk
    exact hp.from_start row' hrow' a ha
  · intro k hk
    obtain ⟨row', hrow', rfl⟩ := List.mem_map.mp hk
    have := hall row' hrow'
    omega

/-- The keys a merged page is left with, in its order. -/
theorem dumpKeys_merge (hC : LogLaws C view t) (hk : t.leading ∈ t.columns) {cs : List Change}
    {window : Option DataFrame} {page df : DataFrame} {low : Datetime} {spec : TableSpec}
    (hw : Carries t cs window) (h : mergeChunk C page window low spec w = .ok df w') :
    (dumpKeys t.leading df).Sublist (page.rows.map (rowKey t.leading page)) := by
  obtain ⟨hcols, hrows⟩ := mergeChunk_frame hC h
  rw [HasRows.rows hw] at hrows
  rw [dumpKeys, (frame_rows hcols hrows (dumpRow_map _)).2, List.map_map, hcols]
  have hkey : ∀ row, keyOf (cellOf (metadataColumns ++ page.columns)
      (stamp spec (some low) ++ row) t.leading) = rowKey t.leading page row := by
    intro row
    rw [cellOf_append (by rfl) (t.unshadowed _ hk)]
    rfl
  refine (List.map_congr_left fun row _ => hkey row).symm ▸ List.Sublist.map _ ?_
  cases window with
  | none => exact List.Sublist.refl _
  | some top => exact List.filter_sublist

/-- **One call**: the position never goes back, the walk never starts again, and the page
advances. -/
theorem BatchRead.advance (hC : LogLaws C view t) {name : String} (hpk : t.pk = [name]) {range : Set ℤ}
    (hpages : PagesIn C t range) {now chunkSize : ℤ} {inspectEvery : Option Timedelta}
    {state : Option RunState} {opened : RunState} {rows : List Row} {high : LSN}
    {window : Option DataFrame} {b : BatchResult} (hd : t.Describes opened.spec) (hc : 1 ≤ chunkSize)
    (h : BatchRead C now t.schema t.table chunkSize inspectEvery state w opened rows high window b w') :
    opened.lastLsn ≤ b.state.lastLsn ∧ (opened.dumpDone = true → b.state.dumpDone = true) ∧
      Advance range chunkSize opened b.state rows (b.frame.toList.flatMap (dumpKeys t.leading)) := by
  have hread := (BatchRead.window hC hd h).1
  have hkeys : ∀ {window : Option DataFrame}, window.toList.flatMap dumpRows = [] →
      window.toList.flatMap (dumpKeys t.leading) = [] := by
    intro window hnil
    cases window <;> simp_all [dumpKeys]
  refine ⟨hread.le, ?_⟩
  cases h with
  | tail ho hdone hw =>
    rw [hkeys (window_rows hread.carries).2]
    exact ⟨fun _ => by rw [hw.frame]; exact hdone, .ended (by rw [hw.frame]) (by rw [hw.frame]; exact hdone)⟩
  | last ho hwalking hlow hp hmark ha hw =>
    rw [hkeys (window_rows hread.carries).2]
    refine ⟨fun hdone => absurd hdone (by simp [hwalking]), ?_⟩
    cases hp with
    | empty asked hnil =>
      refine .ended (by rw [hw.frame]) ?_
      rw [hw.frame]
      exact decide_eq_true (by omega)
  | chunk ho hwalking hlow hp hmark ha hw hmerge =>
    refine ⟨fun hdone => absurd hdone (by simp [hwalking]), ?_⟩
    cases hp with
    | rows asked hne hkey =>
      obtain ⟨hpage, hin⟩ := hpages hd hc asked
      have hkeysOf := KeyPage.pageKeys hpage hd.leading_eq hne hkey
      have hdumped := dumpKeys_merge hC (Target.leading_mem hpk) hread.carries hmerge
      have hnext : RunState.chunkKey _ = some _ := congrArg RunState.chunkKey hw.frame
      refine .paged hwalking hkeysOf (List.length_map _) ?_ hnext ?_ (by simpa using hdumped)
      · intro k hk'
        obtain ⟨row, hrow, rfl⟩ := List.mem_map.mp hk'
        exact hin row hrow
      · intro hdone
        rw [hw.frame] at hdone
        exact not_lt.mp (of_decide_eq_false hdone)

/-! ### The run -/

variable {d : Driver σ} {range : Set ℤ} {L : LSN} {known : List RunState} {frames : List DataFrame}

/-- How far a run has walked by the time it is in a state. -/
structure Walked (d : Driver σ) (known : List RunState) (frames : List DataFrame) (st : RunState) :
    Prop where
  describes : d.target.Describes st.spec
  newest : ∀ older ∈ known, older.lastLsn ≤ st.lastLsn ∧
    (older.dumpDone = true → st.dumpDone = true)
  monotone : known.Pairwise fun newer older => older.lastLsn ≤ newer.lastLsn ∧
    (older.dumpDone = true → newer.dumpDone = true)
  increasing : (frames.flatMap (dumpKeys d.target.leading)).Pairwise (· < ·)
  below : ∀ k ∈ frames.flatMap (dumpKeys d.target.leading), ∃ c ∈ st.chunkKey, k < c

/-- One more call, from the state it opened with. -/
theorem Walked.call {opened : RunState} {b : BatchResult} {rows : List Row} {chunkSize : ℤ}
    (h : Walked d known frames opened) (hspec : b.state.spec = opened.spec)
    (hle : opened.lastLsn ≤ b.state.lastLsn)
    (hdone : opened.dumpDone = true → b.state.dumpDone = true)
    (hadv : Advance range chunkSize opened b.state rows
      (b.frame.toList.flatMap (dumpKeys d.target.leading))) :
    Walked d (b.state :: known) (frames ++ b.frame.toList) b.state := by
  have hold : ∀ older ∈ known, older.lastLsn ≤ b.state.lastLsn ∧
      (older.dumpDone = true → b.state.dumpDone = true) := fun older ho =>
    ⟨(h.newest older ho).1.trans hle, fun hd => hdone ((h.newest older ho).2 hd)⟩
  refine ⟨hspec ▸ h.describes, ?_, List.pairwise_cons.mpr ⟨hold, h.monotone⟩, ?_, ?_⟩
  · rintro older (_ | ⟨_, ho⟩)
    · exact ⟨le_rfl, id⟩
    · exact hold older ho
  · rw [List.flatMap_append]
    generalize b.frame.toList.flatMap (dumpKeys d.target.leading) = dumped at hadv ⊢
    cases hadv with
    | ended => rw [List.append_nil]; exact h.increasing
    | paged hwalking hpage hlen hin hkey hfull hsub =>
      refine List.pairwise_append.mpr ⟨h.increasing, hpage.increasing.sublist hsub, ?_⟩
      intro k hk k' hk'
      obtain ⟨c, hc, hlt⟩ := h.below k hk
      exact hlt.trans_le (hpage.from_start k' (hsub.subset hk') c hc)
  · rw [List.flatMap_append]
    generalize b.frame.toList.flatMap (dumpKeys d.target.leading) = dumped at hadv ⊢
    intro k hk
    cases hadv with
    | ended hkey =>
      rw [List.append_nil] at hk
      obtain ⟨c, hc, hlt⟩ := h.below k hk
      exact ⟨c, by rw [hkey]; exact hc, hlt⟩
    | paged hwalking hpage hlen hin hkey hfull hsub =>
      refine ⟨_, hkey, ?_⟩
      rcases List.mem_append.mp hk with hk | hk
      · obtain ⟨c, hc, hlt⟩ := h.below k hk
        have := hpage.from_start _ hpage.last c hc
        omega
      · exact hpage.below k (hsub.subset hk)

/-- The room a walk has used up: it is over, or `n` pages of at least `c` rows lie behind it. -/
def Spent (lo hi c : ℤ) (n : ℕ) (st : RunState) : Prop :=
  st.dumpDone = true ∨ ∃ key, st.chunkKey = some key ∧ lo + c * n ≤ key ∧ key ≤ hi + 1

/-- One more page. -/
theorem Spent.call {lo hi c chunkSize : ℤ} {n : ℕ} {opened st : RunState} {rows : List Row}
    {dumped : List ℤ} (h : Spent lo hi c n opened ∨ n = 0 ∧ opened.chunkKey = none)
    (hrange : range ⊆ Set.Icc lo hi) (hc : c ≤ chunkSize)
    (hdone : opened.dumpDone = true → st.dumpDone = true)
    (hadv : Advance range chunkSize opened st rows dumped) : Spent lo hi c (n + 1) st := by
  cases hadv with
  | ended hkey hd => exact Or.inl hd
  | paged hwalking hpage hlen hin hkey hfull hsub =>
    rename_i keys key
    by_cases hd : st.dumpDone = true
    · exact Or.inl hd
    have hlast := (hrange (hin _ hpage.last)).2
    have hlength : c ≤ keys.length := by
      have := hfull (eq_false_of_ne_true hd)
      omega
    refine Or.inr ⟨key, hkey, ?_, by omega⟩
    push_cast
    rcases h with (hd' | ⟨start, hstart, hroom, -⟩) | ⟨rfl, -⟩
    · exact absurd (hdone hd') hd
    · have := hpage.room fun k hk => hpage.from_start k hk start hstart
      linarith
    · have := hpage.room fun k hk => (hrange (hin k hk)).1
      push_cast
      linarith

/-- Where the width of the key space is spent, the walk is over. -/
theorem Spent.done {lo hi c : ℤ} {n : ℕ} {st : RunState} (h : Spent lo hi c n st) (hc : 1 ≤ c)
    (hn : ((hi + 1 - lo) / c).toNat + 1 ≤ n) : st.dumpDone = true := by
  rcases h with h | ⟨key, -, hroom, hle⟩
  · exact h
  · have : (n : ℤ) ≤ (hi + 1 - lo) / c := by
      rw [Int.le_ediv_iff_mul_le (by omega)]
      linarith
    omega

theorem Run.walked (hC : LogLaws d.connector view d.target) {name : String}
    (hpk : d.target.pk = [name]) (hpages : PagesIn d.connector d.target range)
    (hthread : ∀ known st, d.resumes known st → threads known st)
    (run : Run d (Seeded d) L w known frames) :
    ∃ st, threads known st ∧ Walked d known frames st ∧
      ∀ {lo hi c : ℤ}, range ⊆ Set.Icc lo hi → (∀ req w, d.admits req w → c ≤ req.chunkSize) →
        Spent lo hi c known.length st := by
  induction run with
  | begins h =>
    obtain ⟨req, w₀, opened, w₁, rows, high, window, b, fresh, hadmits, hc, ho, hd, hr, -, rfl, rfl⟩ :=
      h.reads
    obtain ⟨hle, hdone, hadv⟩ := BatchRead.advance hC hpk hpages hd hc hr
    have hnone : opened.chunkKey = none := by
      rw [Driver.opens, fresh] at ho
      obtain ⟨spec, _, _, _, _, _, -, -, -, -, rfl⟩ := seed_ok.mp ho
      rfl
    have hfirst : Walked d [] [] opened := ⟨hd, by simp, List.Pairwise.nil, by simp, by simp⟩
    refine ⟨b.state, rfl, hfirst.call (BatchRead.window hC hd hr).2 hle hdone hadv, ?_⟩
    exact fun hrange hsizes =>
      Spent.call (Or.inr ⟨rfl, hnone⟩) hrange (hsizes req w₀ hadmits) hdone hadv
  | idles run moved ih => exact ih
  | raises run resumed given raised ih => exact ih
  | returns run resumed given admitted returned ih =>
    obtain ⟨st, hk, hw, hs⟩ := ih
    obtain rfl := Option.some.inj (hk.symm.trans (hthread _ _ resumed))
    obtain ⟨opened, w₁, rows, high, window, hc, -, hr, hd, hlsn, hkey, hdone⟩ :=
      Driver.carried hC hw.describes given returned
    obtain ⟨hle, hmono, hadv⟩ := BatchRead.advance hC hpk hpages hd hc hr
    have hopened : Walked d _ _ opened :=
      ⟨hd, by rw [hlsn, hdone]; exact hw.newest, hw.monotone, hw.increasing, by rw [hkey]; exact hw.below⟩
    refine ⟨_, rfl, hopened.call (BatchRead.window hC hd hr).2 hle hmono hadv, ?_⟩
    intro lo hi c hrange hsizes
    refine Spent.call (Or.inl ?_) hrange (hsizes _ _ admitted) hmono hadv
    rw [Spent, hdone, hkey]
    exact hs hrange hsizes

/-- **The walk makes progress and ends.** Along a run of threaded calls `last_lsn` never goes back
and `dump_done` never back to false, a call that reads a page moves `chunk_key` up, and the keys of
the dump rows increase across the frames. With every key in `[lo, hi]` and every chunk size at least
`c` the walk is over within `(hi - lo + 1) / c + 1` calls that return. -/
theorem walk_progresses (hC : LogLaws d.connector view d.target) {name : String}
    (hpk : d.target.pk = [name]) (hpages : PagesIn d.connector d.target range)
    (hthread : ∀ known st, d.resumes known st → threads known st)
    (run : Run d (Seeded d) L w known frames) :
    ∃ st, threads known st ∧
      (known.Pairwise fun newer older => older.lastLsn ≤ newer.lastLsn ∧
        (older.dumpDone = true → newer.dumpDone = true)) ∧
      (∀ req opened rows high window b w', req.state = some st → 1 ≤ req.chunkSize →
        d.Reads req w opened rows high window b w' → rows ≠ [] →
          ∃ key, b.state.chunkKey = some key ∧ ∀ a ∈ st.chunkKey, a < key) ∧
      (frames.flatMap (dumpKeys d.target.leading)).Pairwise (· < ·) ∧
      ∀ lo hi c : ℤ, range ⊆ Set.Icc lo hi → 1 ≤ c → (∀ req w, d.admits req w → c ≤ req.chunkSize) →
        ((hi - lo + 1) / c).toNat + 1 ≤ known.length → st.dumpDone = true := by
  obtain ⟨st, hk, hw, hs⟩ := Run.walked hC hpk hpages hthread run
  refine ⟨st, hk, hw.monotone, ?_, hw.increasing, ?_⟩
  · intro req opened rows high window b w' given hc hr hne
    obtain ⟨opened', w₁, rows', high', window', -, ho, -, hd, -, hkey, -⟩ :=
      Driver.carried hC hw.describes given (Driver.call_ok.mpr ⟨hc, opened, rows, high, window, hr⟩)
    obtain rfl := Driver.Reads.opened_eq hr ho
    obtain ⟨-, -, hadv⟩ := BatchRead.advance hC hpk hpages hd hc hr
    generalize b.frame.toList.flatMap (dumpKeys d.target.leading) = dumped at hadv
    cases hadv with
    | ended => exact absurd rfl hne
    | paged hwalking hpage hlen hin hkey' hfull hsub =>
      refine ⟨_, hkey', fun a ha => ?_⟩
      have := hpage.from_start _ hpage.last a (hkey ▸ ha)
      omega
  · intro lo hi c hrange hc hsizes hn
    refine (hs hrange hsizes).done hc ?_
    rwa [show hi + 1 - lo = hi - lo + 1 by ring]

open PyDBLog.World.InMemory

/-- The keys a source in memory reads are those it may hold. -/
theorem memory_pagesIn {t : Target} {range : Set ℤ} (hl : t.leading ∈ t.columns) :
    PagesIn (Memory.connector t range) t range := by
  intro spec start limit m df m' _ hlimit h
  simp only [Memory.connector, Memory.ask_ok] at h
  obtain ⟨h, rfl⟩ := h
  obtain rfl := Except.ok.inj h
  have hpage : Page (fun _ => none) t (fun _ => m.source) start limit (m.page start limit) :=
    Memory.page_page hl m hlimit
  exact ⟨hpage.toKeyPage, fun row hrow => (Memory.table_some (hpage.present row hrow)).1⟩

/-- The walk of the stock, whose keys are from 1 to 9, in chunks of five at least. -/
theorem walk_progresses_sold : ∃ st, threads [walkedTo 9, walkedTo 5] st ∧
    ([walkedTo 9, walkedTo 5].Pairwise fun newer older => older.lastLsn ≤ newer.lastLsn ∧
      (older.dumpDone = true → newer.dumpDone = true)) ∧
    ([stockDumps, saleDeletes].flatMap
      (dumpKeys items.leading)).Pairwise (· < ·) ∧
    st.dumpDone = true := by
  obtain ⟨st, hk, hmono, -, hkeys, hends⟩ := walk_progresses (Memory.logLaws items _) rfl
    (memory_pagesIn (by decide)) (fun _ _ h => h)
    (sold_run threads (Seeded (itemsDriver threads)) (stock_seeded threads) rfl)
  exact ⟨st, hk, hmono, hkeys, hends 1 9 5 subset_rfl (by norm_num) (fun _ _ h => h) (by decide)⟩

end PyDBLog.Runs.Progress
