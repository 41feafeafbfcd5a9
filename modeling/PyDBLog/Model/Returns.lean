import PyDBLog.Model.DBLog

/-! # What a returning call has done

One inversion for each function: the primitives a returning call has asked, in order, what they
answered, and what was built from the answers. `BatchRead` is the whole of one returning `dblog()`
call (`dblog_ok`); proofs about runs take it apart and unfold no function of `DBLog`. -/

namespace PyDBLog.Model.Returns

open PyDBLog.Model.Python PyDBLog.Model.Frame PyDBLog.Model.Types PyDBLog.Model.Connector
open PyDBLog.Model.DBLog

variable {σ : Type} {C : SourceConnector σ} {now : ℤ} {schema table : String} {w w' : σ}

/-! ### Opening -/

theorem requireCaptureInstance_ok {spec : TableSpec} {captureInstance : String} :
    requireCaptureInstance spec = .ok captureInstance ↔ spec.captureInstance = some captureInstance := by
  unfold requireCaptureInstance
  cases spec.captureInstance <;> simp

theorem checkRetention_ok {state : RunState} {captureInstance : String} {u : Unit} :
    checkRetention C state captureInstance w = .ok u w' ↔
      ∃ floor, C.getMinLsn captureInstance w = .ok floor w' ∧ floor ≤ state.lastLsn := by
  simp only [checkRetention, bind_ok, guard_ok, pure_ok, not_lt, true_and]
  constructor
  · rintro ⟨floor, _, hf, hle, rfl⟩; exact ⟨floor, hf, hle⟩
  · rintro ⟨floor, hf, hle⟩; exact ⟨floor, w', hf, hle, rfl⟩

/-- A run opened on nothing: the spec, the floor and the present. -/
theorem seed_ok {state : RunState} : seed C now schema table w = .ok state w' ↔
    ∃ spec captureInstance w₁ floor w₂ maxLsn, C.inspect schema table w = .ok spec w₁ ∧
      spec.captureInstance = some captureInstance ∧ C.getMinLsn captureInstance w₁ = .ok floor w₂ ∧
      C.getMaxLsn w₂ = .ok maxLsn w' ∧
      state = ⟨spec, max maxLsn floor, .utc now, none, false⟩ := by
  simp only [seed, bind_ok, ofExcept_ok, requireCaptureInstance_ok, pure_ok]
  constructor
  · rintro ⟨spec, w₁, hi, ci, _, ⟨hci, rfl⟩, floor, w₂, hf, m, _, hm, rfl, rfl⟩
    exact ⟨spec, ci, w₁, floor, w₂, m, hi, hci, hf, hm, rfl⟩
  · rintro ⟨spec, ci, w₁, floor, w₂, m, hi, hci, hf, hm, rfl⟩
    exact ⟨spec, w₁, hi, ci, w₁, ⟨hci, rfl⟩, floor, w₂, hf, m, w', hm, rfl, rfl⟩

theorem stateAtLsn_ok {fromLsn : LSN} {dumpDone : Bool} {state : RunState} :
    stateAtLsn C now schema table fromLsn dumpDone w = .ok state w' ↔
    ∃ spec captureInstance w₁ floor, C.inspect schema table w = .ok spec w₁ ∧
      spec.captureInstance = some captureInstance ∧ C.getMinLsn captureInstance w₁ = .ok floor w' ∧
      floor ≤ fromLsn ∧ state = ⟨spec, fromLsn, .utc now, none, dumpDone⟩ := by
  simp only [stateAtLsn, bind_ok, ofExcept_ok, requireCaptureInstance_ok, checkRetention_ok, pure_ok]
  constructor
  · rintro ⟨spec, w₁, hi, ci, _, ⟨hci, rfl⟩, -, _, ⟨floor, hf, hle⟩, rfl, rfl⟩
    exact ⟨spec, ci, w₁, floor, hi, hci, hf, hle, rfl⟩
  · rintro ⟨spec, ci, w₁, floor, hi, hci, hf, hle, rfl⟩
    exact ⟨spec, w₁, hi, ci, w₁, ⟨hci, rfl⟩, (), w', ⟨floor, hf, hle⟩, rfl, rfl⟩

theorem checkTable_ok {state : RunState} {u : Unit} :
    checkTable state schema table = .ok u ↔ state.spec.qualifiedName = s!"{schema}.{table}" := by
  simp only [checkTable, except_guard_ok, not_not, and_true]

theorem checkSpec_ok {was isNow : TableSpec} {u : Unit} : checkSpec was isNow = .ok u ↔
    was.pkColumns = isNow.pkColumns ∧ (was.capturedColumns == isNow.capturedColumns) = true := by
  simp only [checkSpec, except_guard_ok, not_not, ne_eq, and_true, bne, Bool.not_eq_true',
    Bool.not_eq_false]

/-- A refreshed state differs in its spec and the time of the inspection alone. -/
theorem refreshSpec_ok {state state' : RunState} {inspectEvery : Option Timedelta}
    (h : refreshSpec C now state inspectEvery w = .ok state' w') :
    (state' = state ∧ w' = w) ∨
      ∃ fresh, C.inspect state.spec.sourceSchema state.spec.sourceTable w = .ok fresh w' ∧
        state.spec.pkColumns = fresh.pkColumns ∧
        (state.spec.capturedColumns == fresh.capturedColumns) = true ∧
        state' = { state with spec := fresh, lastInspect := .utc now } := by
  unfold refreshSpec at h
  cases inspectEvery with
  | none => obtain ⟨rfl, rfl⟩ := pure_ok.mp h; exact Or.inl ⟨rfl, rfl⟩
  | some every =>
    dsimp only at h
    split_ifs at h with hfresh
    · obtain ⟨rfl, rfl⟩ := pure_ok.mp h; exact Or.inl ⟨rfl, rfl⟩
    · simp only [bind_ok, ofExcept_ok, requireCaptureInstance_ok, checkSpec_ok, pure_ok] at h
      obtain ⟨fresh, w₁, hi, ci, _, ⟨-, rfl⟩, -, _, ⟨⟨hpk, hcap⟩, rfl⟩, rfl, rfl⟩ := h
      exact Or.inr ⟨fresh, hi, hpk, hcap, rfl⟩

/-- A carried state: its table is the one asked for, and its position is retained. -/
theorem openRun_some {state state' : RunState} {inspectEvery : Option Timedelta}
    (h : openRun C now schema table (some state) inspectEvery w = .ok state' w') :
    ∃ w₁ captureInstance floor, state.spec.qualifiedName = s!"{schema}.{table}" ∧
      refreshSpec C now state inspectEvery w = .ok state' w₁ ∧
      state'.spec.captureInstance = some captureInstance ∧
      C.getMinLsn captureInstance w₁ = .ok floor w' ∧ floor ≤ state'.lastLsn := by
  simp only [openRun, bind_ok, ofExcept_ok, checkTable_ok, requireCaptureInstance_ok,
    checkRetention_ok, pure_ok] at h
  obtain ⟨-, _, ⟨ht, rfl⟩, st, w₁, hr, ci, _, ⟨hci, rfl⟩, -, _, ⟨floor, hf, hle⟩, rfl, rfl⟩ := h
  exact ⟨w₁, ci, floor, ht, hr, hci, hf, hle⟩

/-! ### The page -/

/-- What a page's rows tell: the leading key column is in them, its values are distinct, and the
last one is the integer before the next page. -/
theorem keyAfter_ok {rows : DataFrame} {spec : TableSpec} {key : ℤ}
    (h : keyAfter rows spec = .ok key) :
    ∃ leading rest, spec.pkColumns = leading :: rest ∧ leading ∈ rows.columns ∧
      (rows.rows.map fun row => cellOf rows.columns row leading).Nodup ∧
      (rows.rows.map fun row => cellOf rows.columns row leading).getLast?.getD .null
        = .int (key - 1) := by
  unfold keyAfter at h
  cases hpk : spec.pkColumns with
  | nil => rw [hpk] at h; simp [bind, Except.bind] at h
  | cons leading rest =>
    rw [hpk] at h
    simp only [List.head?_cons, Option.elim_some, except_bind_ok] at h
    obtain ⟨_, hl, keys, hk, h⟩ := h
    obtain rfl := Except.ok.inj hl
    unfold DataFrame.column at hk
    split_ifs at hk with hmem
    obtain rfl := Except.ok.inj hk
    rw [except_guard_ok, not_not] at h
    obtain ⟨hlen, h⟩ := h
    refine ⟨leading, rest, rfl, hmem, ?_, ?_⟩
    · rw [DataFrame.height, ← List.length_map (f := fun row => cellOf rows.columns row leading)] at hlen
      rw [← List.dedup_eq_self]
      exact (List.dedup_sublist _).eq_of_length hlen
    · split at h
      · cases h
      · next last hlast =>
        obtain rfl := Except.ok.inj h
        rw [hlast]; simp
      · cases h

/-- A page read from the table, and the state past its last row. -/
inductive PageRead (C : SourceConnector σ) (chunkSize : ℤ) :
    RunState → σ → DataFrame → Option DataFrame → RunState → σ → Prop
  | empty {state w rows w'} (asked : C.readTable state.spec state.chunkKey none chunkSize w = .ok rows w')
      (nothing : rows.rows = []) :
      PageRead C chunkSize state w rows none { state with dumpDone := decide (0 < chunkSize) } w'
  | rows {state w rows w' key}
      (asked : C.readTable state.spec state.chunkKey none chunkSize w = .ok rows w')
      (something : rows.rows ≠ []) (next : keyAfter rows state.spec = .ok key) :
      PageRead C chunkSize state w rows (some rows) { state with
        chunkKey := some key, dumpDone := decide ((rows.height : ℤ) < chunkSize) } w'

theorem nextChunk_ok {state state' : RunState} {chunkSize : ℤ} {chunk : Option DataFrame} :
    nextChunk C state chunkSize w = .ok (chunk, state') w' ↔
      ∃ rows, PageRead C chunkSize state w rows chunk state' w' := by
  simp only [nextChunk, bind_ok]
  constructor
  · rintro ⟨rows, w₁, hr, h⟩
    refine ⟨rows, ?_⟩
    split_ifs at h with he
    · simp only [pure_ok, Prod.mk.injEq] at h
      obtain ⟨⟨rfl, rfl⟩, rfl⟩ := h
      have hnil : rows.rows = [] := List.isEmpty_iff.mp he
      have := PageRead.empty hr hnil
      rwa [show decide (0 < chunkSize) = decide ((rows.height : ℤ) < chunkSize) by
        rw [DataFrame.height, hnil]; rfl] at this
    · simp only [bind_ok, ofExcept_ok, pure_ok, Prod.mk.injEq] at h
      obtain ⟨key, _, ⟨hk, rfl⟩, ⟨rfl, rfl⟩, rfl⟩ := h
      exact .rows hr (fun hnil => he (by rw [DataFrame.isEmpty, hnil]; rfl)) hk
  · rintro ⟨rows, hp⟩
    cases hp with
    | empty hr hnil =>
      refine ⟨rows, w', hr, ?_⟩
      rw [if_pos (by rw [DataFrame.isEmpty, hnil]; rfl), pure_ok, DataFrame.height, hnil]
      exact ⟨rfl, rfl⟩
    | rows hr hne hk =>
      refine ⟨rows, w', hr, ?_⟩
      rw [if_neg (by rw [DataFrame.isEmpty, List.isEmpty_iff]; exact hne)]
      simp only [bind_ok, ofExcept_ok, pure_ok]
      exact ⟨_, w', ⟨hk, rfl⟩, rfl, rfl⟩

/-! ### The window -/

/-- A window read from the log up to `high`, and the state past its end. -/
inductive WindowRead (C : SourceConnector σ) :
    RunState → σ → LSN → Option DataFrame → RunState → σ → Prop
  | past {state w high w'} (asked : C.getMaxLsn w = .ok high w') (past : high < state.lastLsn) :
      WindowRead C state w high none state w'
  | read {state w high w₁ events w₂ next w'} (asked : C.getMaxLsn w = .ok high w₁)
      (reached : state.lastLsn ≤ high)
      (events_eq : C.readEventLog state.spec state.lastLsn high w₁ = .ok events w₂)
      (next_eq : C.incrementLsn high w₂ = .ok next w') :
      WindowRead C state w high events { state with lastLsn := next } w'

theorem readWindow_ok {state state' : RunState} {window : Option DataFrame} :
    readWindow C state w = .ok (window, state') w' ↔
      ∃ high, WindowRead C state w high window state' w' := by
  simp only [readWindow, bind_ok]
  constructor
  · rintro ⟨high, w₁, hm, h⟩
    refine ⟨high, ?_⟩
    split_ifs at h with hlt
    · simp only [pure_ok, Prod.mk.injEq] at h
      obtain ⟨⟨rfl, rfl⟩, rfl⟩ := h
      exact .past hm hlt
    · simp only [bind_ok, pure_ok, Prod.mk.injEq] at h
      obtain ⟨events, w₂, he, next, w₃, hn, ⟨rfl, rfl⟩, rfl⟩ := h
      exact .read hm (not_lt.mp hlt) he hn
  · rintro ⟨high, hw⟩
    cases hw with
    | past hm hlt => exact ⟨high, w', hm, by rw [if_pos hlt, pure_ok]; exact ⟨rfl, rfl⟩⟩
    | read hm hle he hn =>
      refine ⟨high, _, hm, ?_⟩
      rw [if_neg (not_lt.mpr hle)]
      simp only [bind_ok, pure_ok]
      exact ⟨_, _, he, _, _, hn, rfl, rfl⟩

/-- A window changes the position of a state and nothing else. -/
theorem WindowRead.frame {state state' : RunState} {high : LSN} {window : Option DataFrame}
    (h : WindowRead C state w high window state' w') :
    state' = { state with lastLsn := state'.lastLsn } := by
  cases h <;> rfl

/-! ### Superseding and merging -/

/-- The rows of a window, none if there is no window. -/
def windowRows : Option DataFrame → List Row
  | none => []
  | some window => window.rows

/-- **The chunk rows a window leaves**: those whose key no event of the window has. -/
def survivors (chunk : DataFrame) (window : Option DataFrame) (keys : List String) : List Row :=
  match window with
  | none => chunk.rows
  | some window => chunk.rows.filter fun row => !DataFrame.hasMatch chunk window keys row

/-- Both paths of `supersede` keep the same rows. -/
theorem supersede_ok {chunk kept : DataFrame} {window : Option DataFrame} {spec : TableSpec}
    (h : supersede chunk window spec = .ok kept) :
    kept.schema = chunk.schema ∧ kept.rows = survivors chunk window spec.pkColumns := by
  cases window with
  | none => obtain rfl := Except.ok.inj h; exact ⟨rfl, rfl⟩
  | some window =>
    simp only [supersede] at h
    split_ifs at h with hempty
    · obtain rfl := Except.ok.inj h
      have hnil : window.rows = [] := List.isEmpty_iff.mp hempty
      refine ⟨rfl, (List.filter_eq_self.mpr fun row _ => ?_).symm⟩
      simp [DataFrame.hasMatch, hnil]
    · simp only [except_bind_ok] at h
      obtain ⟨selWindow, hsw, selChunk, hsc, overlap, ho, h⟩ := h
      simp only [DataFrame.semiJoin, except_guard_ok] at ho
      obtain rfl := Except.ok.inj ho.2
      split_ifs at h with hoverlap
      · -- no key of the chunk is in the window: the shortcut hands the chunk back
        obtain rfl := Except.ok.inj h
        refine ⟨rfl, (List.filter_eq_self.mpr fun row hrow => ?_).symm⟩
        have hnil := List.filter_eq_nil_iff.mp (List.isEmpty_iff.mp hoverlap)
          (cellsOf chunk.columns row spec.pkColumns)
          (by rw [(DataFrame.select_ok hsc).2.2]; exact List.mem_map_of_mem hrow)
        rw [DataFrame.hasMatch_select hsc, DataFrame.hasMatch_unique hsw] at hnil
        simpa using hnil
      · simp only [DataFrame.antiJoin, except_guard_ok] at h
        obtain rfl := Except.ok.inj h.2
        refine ⟨rfl, List.filter_congr fun row _ => ?_⟩
        rw [DataFrame.hasMatch_unique hsw]

/-- What a merge that returns has built: the window's rows, then the stamped survivors. -/
theorem mergeChunk_ok {chunk frame : DataFrame} {window : Option DataFrame} {low : Datetime}
    {spec : TableSpec} (h : mergeChunk C chunk window low spec w = .ok frame w') :
    ∃ kept events, supersede chunk window spec = .ok kept ∧
      C.toEvents kept spec (some low) w = .ok events w' ∧ frame.schema = events.schema ∧
      frame.rows = windowRows window ++ events.rows ∧
      (windowRows window ≠ [] → ∀ top, window = some top → top.schema = events.schema) := by
  simp only [mergeChunk, bind_ok, ofExcept_ok] at h
  obtain ⟨kept, _, ⟨hs, rfl⟩, events, w₁, he, h⟩ := h
  refine ⟨kept, events, hs, ?_⟩
  cases window with
  | none =>
    obtain ⟨rfl, rfl⟩ := pure_ok.mp h
    exact ⟨he, rfl, by simp [windowRows], by simp⟩
  | some window =>
    dsimp only at h
    split_ifs at h with hempty
    · obtain ⟨rfl, rfl⟩ := pure_ok.mp h
      have hnil : window.rows = [] := List.isEmpty_iff.mp hempty
      exact ⟨he, rfl, by simp [windowRows, hnil], fun hne => absurd hnil hne⟩
    · simp only [ofExcept_ok, DataFrame.concat, except_bind_ok, DataFrame.concat₂, except_guard_ok,
        not_not, ne_eq] at h
      obtain ⟨⟨_, hb, hschema, h⟩, rfl⟩ := h
      obtain rfl := Except.ok.inj hb
      obtain rfl := Except.ok.inj h
      exact ⟨he, hschema, rfl, fun _ top ht => by obtain rfl := Option.some.inj ht; exact hschema⟩

/-! ### One call -/

/-- **A returning call**: the state it opened with, the rows it read off the table (none in the
tail), the max LSN it read when closing the window, the world at that moment, and the window. -/
inductive BatchRead (C : SourceConnector σ) (now : ℤ) (schema table : String) (chunkSize : ℤ)
    (inspectEvery : Option Timedelta) :
    Option RunState → σ → RunState → List Row → LSN → Option DataFrame → BatchResult → σ → Prop
  | tail {state w opened w₁ high window state' w'}
      (opens : openRun C now schema table state inspectEvery w = .ok opened w₁)
      (walked : opened.dumpDone = true) (closes : WindowRead C opened w₁ high window state' w') :
      BatchRead C now schema table chunkSize inspectEvery state w opened [] high window
        ⟨window, state'⟩ w'
  | last {state w opened w₁ low w₂ rows paged w₃ mark w₄ w₅ high window state' w'}
      (opens : openRun C now schema table state inspectEvery w = .ok opened w₁)
      (walking : opened.dumpDone = false) (lows : C.watermark w₁ = .ok low w₂)
      (pages : PageRead C chunkSize opened w₂ rows none paged w₃)
      (marks : C.watermark w₃ = .ok mark w₄) (awaits : C.awaitWatermark mark w₄ = .ok () w₅)
      (closes : WindowRead C paged w₅ high window state' w') :
      BatchRead C now schema table chunkSize inspectEvery state w opened [] high window
        ⟨window, state'⟩ w'
  | chunk {state w opened w₁ low w₂ rows paged w₃ mark w₄ w₅ high window state' w₆ frame w'}
      (opens : openRun C now schema table state inspectEvery w = .ok opened w₁)
      (walking : opened.dumpDone = false) (lows : C.watermark w₁ = .ok low w₂)
      (pages : PageRead C chunkSize opened w₂ rows (some rows) paged w₃)
      (marks : C.watermark w₃ = .ok mark w₄) (awaits : C.awaitWatermark mark w₄ = .ok () w₅)
      (closes : WindowRead C paged w₅ high window state' w₆)
      (merges : mergeChunk C rows window low state'.spec w₆ = .ok frame w') :
      BatchRead C now schema table chunkSize inspectEvery state w opened rows.rows high window
        ⟨some frame, state'⟩ w'

/-- A page that is handed on is the page that was read, and holds rows. -/
theorem PageRead.some_eq {chunkSize : ℤ} {state state' : RunState} {rows chunk : DataFrame}
    (h : PageRead C chunkSize state w rows (some chunk) state' w') : chunk = rows := by
  cases h; rfl

theorem dblog_ok {state : Option RunState} {chunkSize : ℤ} {inspectEvery : Option Timedelta}
    {b : BatchResult} : dblog C now schema table state chunkSize inspectEvery w = .ok b w' ↔
      1 ≤ chunkSize ∧ ∃ opened rows high window,
        BatchRead C now schema table chunkSize inspectEvery state w opened rows high window b w' := by
  simp only [dblog, guard_ok, not_lt, bind_ok]
  refine and_congr_right fun _ => ⟨?_, ?_⟩
  · rintro ⟨opened, w₁, ho, h⟩
    refine ⟨opened, ?_⟩
    split_ifs at h with hd
    · simp only [tailBatch, bind_ok, pure_ok, Prod.exists, readWindow_ok] at h
      obtain ⟨window, st, w₂, ⟨high, hw⟩, rfl, rfl⟩ := h
      exact ⟨[], high, window, .tail ho hd hw⟩
    · simp only [dumpBatch, bind_ok, Prod.exists, nextChunk_ok, readWindow_ok] at h
      obtain ⟨low, w₂, hlow, chunk, paged, w₃, ⟨rows, hp⟩, mark, w₄, hm, _, w₅, ha, window, st, w₆,
        ⟨high, hw⟩, h⟩ := h
      have hwalking := eq_false_of_ne_true hd
      cases chunk with
      | none =>
        obtain ⟨rfl, rfl⟩ := pure_ok.mp h
        exact ⟨[], high, window, .last ho hwalking hlow hp hm ha hw⟩
      | some chunk =>
        simp only [bind_ok, pure_ok] at h
        obtain ⟨frame, w₇, hmerge, rfl, rfl⟩ := h
        obtain rfl := hp.some_eq
        exact ⟨chunk.rows, high, window, .chunk ho hwalking hlow hp hm ha hw hmerge⟩
  · rintro ⟨opened, rows, high, window, h⟩
    cases h with
    | tail ho hd hw =>
      refine ⟨opened, _, ho, ?_⟩
      rw [if_pos hd]
      simp only [tailBatch, bind_ok, pure_ok, Prod.exists, readWindow_ok]
      exact ⟨_, _, w', ⟨high, hw⟩, rfl, rfl⟩
    | last ho hd hlow hp hm ha hw =>
      refine ⟨opened, _, ho, ?_⟩
      rw [if_neg (by simp [hd])]
      simp only [dumpBatch, bind_ok, Prod.exists, nextChunk_ok, readWindow_ok]
      exact ⟨_, _, hlow, none, _, _, ⟨_, hp⟩, _, _, hm, (), _, ha, _, _, w', ⟨high, hw⟩,
        pure_ok.mpr ⟨rfl, rfl⟩⟩
    | chunk ho hd hlow hp hm ha hw hmerge =>
      refine ⟨opened, _, ho, ?_⟩
      rw [if_neg (by simp [hd])]
      simp only [dumpBatch, bind_ok, Prod.exists, nextChunk_ok, readWindow_ok]
      refine ⟨_, _, hlow, some _, _, _, ⟨_, hp⟩, _, _, hm, (), _, ha, _, _, _, ⟨high, hw⟩, ?_⟩
      simp only [bind_ok, pure_ok]
      exact ⟨_, w', hmerge, rfl, rfl⟩

end PyDBLog.Model.Returns
