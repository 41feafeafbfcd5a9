import PyDBLog.Model.Returns

/-! # What a raising call has done

The other half of `Returns`: one inversion for each function of what it raises, and of what it had
been answered before (`dblog_error` for the whole call). An exception is one that a primitive of the
source has raised (`FromSource`), or one of the program's own refusals, each under its condition
(`Refusal`); no third kind leaves a call (`dblog_raises`). -/

namespace PyDBLog.Model.Raises

open PyDBLog.Model.Python PyDBLog.Model.Frame PyDBLog.Model.Types PyDBLog.Model.Connector
open PyDBLog.Model.DBLog PyDBLog.Model.Returns

variable {σ α β : Type} {C : SourceConnector σ} {now : ℤ} {schema table : String} {w w' : σ}
  {e : PyError}

/-! ### Raising computations -/

section calls

theorem bind_error {x : Call σ α} {f : α → Call σ β} : (x >>= f) w = .error e w' ↔
    x w = .error e w' ∨ ∃ a w₁, x w = .ok a w₁ ∧ f a w₁ = .error e w' := by
  show EStateM.bind x f w = _ ↔ _
  unfold EStateM.bind
  cases x w <;> simp

theorem pure_error {a : α} : (pure a : Call σ α) w = .error e w' ↔ False := by
  show EStateM.Result.ok a w = _ ↔ _
  simp

theorem throw_error {e' : PyError} : (throw e' : Call σ α) w = .error e w' ↔ e' = e ∧ w = w' := by
  show EStateM.Result.error e' w = _ ↔ _
  simp

theorem ofExcept_error {x : Except PyError α} :
    (ofExcept x : Call σ α) w = .error e w' ↔ x = .error e ∧ w = w' := by
  cases x with
  | ok a => simp [MonadExcept.ofExcept, pure_error]
  | error e' => simp [MonadExcept.ofExcept, throw_error]

theorem except_bind_error {x : Except PyError α} {f : α → Except PyError β} :
    (x >>= f) = .error e ↔ x = .error e ∨ ∃ a, x = .ok a ∧ f a = .error e := by
  cases x <;> simp [bind, Except.bind]

theorem guard_error {c : Prop} [Decidable c] {e' : PyError} {x : Call σ α} :
    (if c then throw e' else x) w = .error e w' ↔ (c ∧ e' = e ∧ w = w') ∨ ¬ c ∧ x w = .error e w' := by
  split_ifs with h
  · simp [h, throw_error]
  · simp [h]

theorem except_guard_error {c : Prop} [Decidable c] {e' : PyError} {x : Except PyError α} :
    (if c then .error e' else x) = .error e ↔ (c ∧ e' = e) ∨ ¬ c ∧ x = .error e := by
  split_ifs with h <;> simp [h]

/-- Every exception the computation can raise has the property. -/
def Only (P : PyError → Prop) (x : Call σ α) : Prop := ∀ w e w', x w = .error e w' → P e

variable {P : PyError → Prop}

theorem Only.bind {x : Call σ α} {f : α → Call σ β} (hx : Only P x) (hf : ∀ a, Only P (f a)) :
    Only P (x >>= f) := by
  intro w e w' h
  rcases bind_error.mp h with h | ⟨a, w₁, -, h⟩
  · exact hx w e w' h
  · exact hf a w₁ e w' h

theorem Only.pure (a : α) : Only P (Pure.pure a : Call σ α) := fun _ _ _ h => (pure_error.mp h).elim

theorem Only.throw (h : P e) : Only P (throw e : Call σ α) := fun _ _ _ hthrow =>
  (throw_error.mp hthrow).1 ▸ h

/-- The same of a computation that reaches no world. -/
def OnlyPure (P : PyError → Prop) (x : Except PyError α) : Prop := ∀ e, x = .error e → P e

theorem Only.ite {c : Prop} [Decidable c] {x y : Call σ α} (hx : Only P x) (hy : Only P y) :
    Only P (if c then x else y) := by
  split_ifs <;> assumption

theorem Only.ofExcept {x : Except PyError α} (h : OnlyPure P x) : Only P (ofExcept x : Call σ α) :=
  fun _ _ _ hx => h _ (ofExcept_error.mp hx).1

theorem OnlyPure.ok (a : α) : OnlyPure P (.ok a : Except PyError α) := fun _ h => by cases h

theorem OnlyPure.error (h : P e) : OnlyPure P (.error e : Except PyError α) :=
  fun _ he => Except.error.inj he ▸ h

theorem OnlyPure.ite {c : Prop} [Decidable c] {x y : Except PyError α} (hx : OnlyPure P x)
    (hy : OnlyPure P y) : OnlyPure P (if c then x else y) := by
  split_ifs <;> assumption

theorem OnlyPure.bind {x : Except PyError α} {f : α → Except PyError β} (hx : OnlyPure P x)
    (hf : ∀ a, OnlyPure P (f a)) : OnlyPure P (x >>= f) := by
  intro e h
  rcases except_bind_error.mp h with h | ⟨a, -, h⟩
  · exact hx e h
  · exact hf a e h

theorem OnlyPure.mapM {f : α → Except PyError β} (hf : ∀ a, OnlyPure P (f a)) :
    ∀ xs : List α, OnlyPure P (xs.mapM f)
  | [] => .ok _
  | x :: xs => by
    rw [List.mapM_cons]
    exact (hf x).bind fun _ => (OnlyPure.mapM hf xs).bind fun _ => .ok _

theorem OnlyPure.forM {f : α → Except PyError PUnit} (hf : ∀ a, OnlyPure P (f a)) :
    ∀ xs : List α, OnlyPure P (xs.forM f)
  | [] => .ok _
  | x :: xs => (hf x).bind fun _ => OnlyPure.forM hf xs

end calls

/-! ### Opening -/

/-- The refusal of a table without a capture instance. -/
def uncaptured (spec : TableSpec) : PyError :=
  .valueError s!"{spec.qualifiedName} has no capture instance: nothing to read a change log from"

theorem requireCaptureInstance_error {spec : TableSpec} : requireCaptureInstance spec = .error e ↔
    spec.captureInstance = none ∧ e = uncaptured spec := by
  unfold requireCaptureInstance
  cases spec.captureInstance with
  | none => simp [uncaptured, eq_comm]
  | some ci => simp

/-- The refusal of a state whose position is below the floor. -/
def expired (state : RunState) (floor : LSN) : PyError :=
  .cdcRetentionExpiredError
    (s!"{state.spec.qualifiedName} no longer retains {hex state.lastLsn}: the log starts at " ++
      s!"{hex floor}. The gap cannot be read, so the table has to be dumped again.")

theorem checkRetention_error {state : RunState} {captureInstance : String} :
    checkRetention C state captureInstance w = .error e w' ↔
      C.getMinLsn captureInstance w = .error e w' ∨
        ∃ floor, C.getMinLsn captureInstance w = .ok floor w' ∧ state.lastLsn < floor ∧
          e = expired state floor := by
  simp only [checkRetention, bind_error, guard_error, pure_error, and_false, or_false]
  refine or_congr_right ⟨?_, ?_⟩
  · rintro ⟨floor, _, hf, hlt, rfl, rfl⟩
    exact ⟨floor, hf, hlt, rfl⟩
  · rintro ⟨floor, hf, hlt, rfl⟩
    exact ⟨floor, w', hf, hlt, rfl, rfl⟩

/-- A run that cannot be opened on nothing. -/
theorem seed_error : seed C now schema table w = .error e w' ↔
    C.inspect schema table w = .error e w' ∨ ∃ spec w₁, C.inspect schema table w = .ok spec w₁ ∧
      ((spec.captureInstance = none ∧ e = uncaptured spec ∧ w' = w₁) ∨
        ∃ captureInstance, spec.captureInstance = some captureInstance ∧
          (C.getMinLsn captureInstance w₁ = .error e w' ∨ ∃ floor w₂,
            C.getMinLsn captureInstance w₁ = .ok floor w₂ ∧ C.getMaxLsn w₂ = .error e w')) := by
  simp only [seed, bind_error, ofExcept_ok, ofExcept_error, requireCaptureInstance_ok,
    requireCaptureInstance_error, pure_error, and_false, exists_false, or_false]
  refine or_congr_right (exists_congr fun spec => exists_congr fun w₁ => and_congr_right fun _ => ?_)
  refine or_congr ⟨?_, ?_⟩ ⟨?_, ?_⟩
  · rintro ⟨⟨hnone, rfl⟩, rfl⟩; exact ⟨hnone, rfl, rfl⟩
  · rintro ⟨hnone, rfl, rfl⟩; exact ⟨⟨hnone, rfl⟩, rfl⟩
  · rintro ⟨ci, _, ⟨hci, rfl⟩, h⟩; exact ⟨ci, hci, h⟩
  · rintro ⟨ci, hci, h⟩; exact ⟨ci, w₁, ⟨hci, rfl⟩, h⟩

/-- The refusal of a state of another table. -/
def foreign (state : RunState) (schema table : String) : PyError :=
  let asked := s!"{schema}.{table}"
  .valueError
    (s!"state belongs to {state.spec.qualifiedName}, not {asked}: its chunk key " ++
      "is a position in a key space this table does not share")

theorem checkTable_error {state : RunState} : checkTable state schema table = .error e ↔
    state.spec.qualifiedName ≠ s!"{schema}.{table}" ∧ e = foreign state schema table := by
  simp only [checkTable, except_guard_error, reduceCtorEq, and_false, or_false]
  exact and_congr_right fun _ => eq_comm

theorem checkSpec_error {was isNow : TableSpec} (h : checkSpec was isNow = .error e) :
    (was.pkColumns ≠ isNow.pkColumns ∨ (was.capturedColumns != isNow.capturedColumns) = true) ∧
      ∃ message, e = .schemaChangedError message := by
  simp only [checkSpec, except_guard_error, reduceCtorEq, and_false, or_false] at h
  rcases h with ⟨hpk, rfl⟩ | ⟨-, hcap, rfl⟩
  · exact ⟨Or.inl hpk, _, rfl⟩
  · exact ⟨Or.inr hcap, _, rfl⟩

/-- A refresh that raises has found the state stale, and the re-inspection has raised, has found no
capture instance, or has found another frame schema. -/
theorem refreshSpec_error {state : RunState} {inspectEvery : Option Timedelta}
    (h : refreshSpec C now state inspectEvery w = .error e w') :
    (∃ every, inspectEvery = some every ∧ ¬ now - state.lastInspect.instant < every) ∧
      (C.inspect state.spec.sourceSchema state.spec.sourceTable w = .error e w' ∨
        ∃ fresh, C.inspect state.spec.sourceSchema state.spec.sourceTable w = .ok fresh w' ∧
          ((fresh.captureInstance = none ∧ e = uncaptured fresh) ∨
            checkSpec state.spec fresh = .error e)) := by
  unfold refreshSpec at h
  cases inspectEvery with
  | none => exact absurd h (by simp [pure_error])
  | some every =>
    dsimp only at h
    split_ifs at h with hfresh
    · exact absurd h (by simp [pure_error])
    refine ⟨⟨every, rfl, hfresh⟩, ?_⟩
    simp only [bind_error, ofExcept_error, ofExcept_ok, requireCaptureInstance_ok,
      requireCaptureInstance_error, pure_error, and_false, exists_false, or_false] at h
    rcases h with h | ⟨fresh, w₁, hi, ⟨⟨hnone, rfl⟩, rfl⟩ | ⟨ci, _, ⟨-, rfl⟩, hspec, rfl⟩⟩
    · exact Or.inl h
    · exact Or.inr ⟨fresh, hi, Or.inl ⟨hnone, rfl⟩⟩
    · exact Or.inr ⟨fresh, hi, Or.inr hspec⟩

/-- A carried state that cannot be opened. -/
theorem openRun_some_error {state : RunState} {inspectEvery : Option Timedelta} :
    openRun C now schema table (some state) inspectEvery w = .error e w' ↔
      (state.spec.qualifiedName ≠ s!"{schema}.{table}" ∧ e = foreign state schema table ∧ w' = w) ∨
        state.spec.qualifiedName = s!"{schema}.{table}" ∧
          (refreshSpec C now state inspectEvery w = .error e w' ∨
            ∃ opened w₁, refreshSpec C now state inspectEvery w = .ok opened w₁ ∧
              ((opened.spec.captureInstance = none ∧ e = uncaptured opened.spec ∧ w' = w₁) ∨
                ∃ captureInstance, opened.spec.captureInstance = some captureInstance ∧
                  checkRetention C opened captureInstance w₁ = .error e w')) := by
  simp only [openRun, bind_error, ofExcept_error, ofExcept_ok, checkTable_error, checkTable_ok,
    requireCaptureInstance_ok, requireCaptureInstance_error, pure_error, and_false,
    exists_false, or_false]
  refine or_congr ⟨?_, ?_⟩ ⟨?_, ?_⟩
  · rintro ⟨⟨hne, rfl⟩, rfl⟩; exact ⟨hne, rfl, rfl⟩
  · rintro ⟨hne, rfl, rfl⟩; exact ⟨⟨hne, rfl⟩, rfl⟩
  · rintro ⟨-, _, ⟨heq, rfl⟩, h | ⟨opened, w₁, hr, ⟨⟨hnone, rfl⟩, rfl⟩ | ⟨ci, _, ⟨hci, rfl⟩, h⟩⟩⟩
    · exact ⟨heq, Or.inl h⟩
    · exact ⟨heq, Or.inr ⟨opened, w₁, hr, Or.inl ⟨hnone, rfl, rfl⟩⟩⟩
    · exact ⟨heq, Or.inr ⟨opened, w₁, hr, Or.inr ⟨ci, hci, h⟩⟩⟩
  · rintro ⟨heq, h | ⟨opened, w₁, hr, ⟨hnone, rfl, rfl⟩ | ⟨ci, hci, h⟩⟩⟩
    · exact ⟨(), w, ⟨heq, rfl⟩, Or.inl h⟩
    · exact ⟨(), w, ⟨heq, rfl⟩, Or.inr ⟨opened, w', hr, Or.inl ⟨⟨hnone, rfl⟩, rfl⟩⟩⟩
    · exact ⟨(), w, ⟨heq, rfl⟩, Or.inr ⟨opened, w₁, hr, Or.inr ⟨ci, w₁, ⟨hci, rfl⟩, h⟩⟩⟩

/-! ### Pages, windows and merges -/

theorem nextChunk_error {state : RunState} {chunkSize : ℤ} :
    nextChunk C state chunkSize w = .error e w' ↔
    C.readTable state.spec state.chunkKey none chunkSize w = .error e w' ∨
      ∃ rows, C.readTable state.spec state.chunkKey none chunkSize w = .ok rows w' ∧ rows.rows ≠ [] ∧
        keyAfter rows state.spec = .error e := by
  simp only [nextChunk, bind_error]
  refine or_congr_right ⟨?_, ?_⟩
  · rintro ⟨rows, w₁, hr, h⟩
    split_ifs at h with hempty
    · exact absurd h (by simp [pure_error])
    simp only [bind_error, ofExcept_error, pure_error, and_false, exists_false, or_false] at h
    obtain ⟨hk, rfl⟩ := h
    exact ⟨rows, hr, fun hnil => hempty (by rw [DataFrame.isEmpty, hnil]; rfl), hk⟩
  · rintro ⟨rows, hr, hne, hk⟩
    refine ⟨rows, w', hr, ?_⟩
    rw [if_neg (by rw [DataFrame.isEmpty, List.isEmpty_iff]; exact hne)]
    exact bind_error.mpr (Or.inl (ofExcept_error.mpr ⟨hk, rfl⟩))

theorem readWindow_error {state : RunState} : readWindow C state w = .error e w' ↔
    C.getMaxLsn w = .error e w' ∨ ∃ high w₁, C.getMaxLsn w = .ok high w₁ ∧ state.lastLsn ≤ high ∧
      (C.readEventLog state.spec state.lastLsn high w₁ = .error e w' ∨
        ∃ events w₂, C.readEventLog state.spec state.lastLsn high w₁ = .ok events w₂ ∧
          C.incrementLsn high w₂ = .error e w') := by
  simp only [readWindow, bind_error]
  refine or_congr_right (exists_congr fun high => exists_congr fun w₁ => and_congr_right fun _ => ?_)
  split_ifs with hpast
  · simp [pure_error, hpast]
  · simp only [bind_error, pure_error, and_false, exists_false, or_false, not_lt.mp hpast, true_and]

/-- What a merge can fail on: the join, the stamping, or stacking frames of two schemas. -/
theorem mergeChunk_error {chunk : DataFrame} {window : Option DataFrame} {low : Datetime}
    {spec : TableSpec} (h : mergeChunk C chunk window low spec w = .error e w') :
    supersede chunk window spec = .error e ∨ ∃ kept, supersede chunk window spec = .ok kept ∧
      (C.toEvents kept spec (some low) w = .error e w' ∨
        ∃ events top, C.toEvents kept spec (some low) w = .ok events w' ∧ window = some top ∧
          top.rows ≠ [] ∧ top.schema ≠ events.schema ∧ e = .polarsError "schema mismatch") := by
  simp only [mergeChunk, bind_error, ofExcept_error, ofExcept_ok] at h
  rcases h with ⟨h, -⟩ | ⟨kept, _, ⟨hkept, rfl⟩, h⟩
  · exact Or.inl h
  refine Or.inr ⟨kept, hkept, ?_⟩
  rcases h with h | ⟨events, w₁, he, h⟩
  · exact Or.inl h
  cases window with
  | none => exact absurd h (by simp [pure_error])
  | some top =>
    dsimp only at h
    split_ifs at h with hempty
    · exact absurd h (by simp [pure_error])
    rw [ofExcept_error] at h
    obtain ⟨hconcat, rfl⟩ := h
    have hrows : top.rows ≠ [] := fun hnil => hempty (by rw [DataFrame.isEmpty, hnil]; rfl)
    simp only [DataFrame.concat, except_bind_error, DataFrame.concat₂, except_guard_error, ne_eq,
      reduceCtorEq, and_false, or_false, false_or, Except.ok.injEq, exists_eq_left'] at hconcat
    exact Or.inr ⟨events, top, he, rfl, hrows, hconcat.1, hconcat.2.symm⟩

/-! ### One call -/

/-- **A raising call**: how far it got, and which part of it raised. -/
inductive CallRaises (C : SourceConnector σ) (now : ℤ) (schema table : String) (chunkSize : ℤ)
    (inspectEvery : Option Timedelta) (state : Option RunState) (w : σ) (e : PyError) (w' : σ) : Prop
  | size (small : chunkSize < 1)
      (refused : e = .valueError s!"chunk_size must be at least 1, got {chunkSize}") (stays : w' = w)
  | opening (raised : openRun C now schema table state inspectEvery w = .error e w')
  | tail {opened w₁} (opens : openRun C now schema table state inspectEvery w = .ok opened w₁)
      (walked : opened.dumpDone = true) (raised : readWindow C opened w₁ = .error e w')
  | low {opened w₁} (opens : openRun C now schema table state inspectEvery w = .ok opened w₁)
      (raised : C.watermark w₁ = .error e w')
  | page {opened w₁ low w₂} (opens : openRun C now schema table state inspectEvery w = .ok opened w₁)
      (walking : opened.dumpDone = false) (lows : C.watermark w₁ = .ok low w₂)
      (raised : nextChunk C opened chunkSize w₂ = .error e w')
  | mark {opened w₁ low w₂ page w₃}
      (opens : openRun C now schema table state inspectEvery w = .ok opened w₁)
      (lows : C.watermark w₁ = .ok low w₂) (pages : nextChunk C opened chunkSize w₂ = .ok page w₃)
      (raised : C.watermark w₃ = .error e w')
  | await {opened w₁ low w₂ page w₃ mark w₄}
      (opens : openRun C now schema table state inspectEvery w = .ok opened w₁)
      (lows : C.watermark w₁ = .ok low w₂) (pages : nextChunk C opened chunkSize w₂ = .ok page w₃)
      (marks : C.watermark w₃ = .ok mark w₄) (raised : C.awaitWatermark mark w₄ = .error e w')
  | window {opened w₁ low w₂ page w₃ mark w₄ w₅}
      (opens : openRun C now schema table state inspectEvery w = .ok opened w₁)
      (lows : C.watermark w₁ = .ok low w₂) (pages : nextChunk C opened chunkSize w₂ = .ok page w₃)
      (marks : C.watermark w₃ = .ok mark w₄) (awaits : C.awaitWatermark mark w₄ = .ok () w₅)
      (raised : readWindow C page.2 w₅ = .error e w')
  | merge {opened w₁ low w₂ chunk paged w₃ mark w₄ w₅ window closed w₆}
      (opens : openRun C now schema table state inspectEvery w = .ok opened w₁)
      (lows : C.watermark w₁ = .ok low w₂)
      (pages : nextChunk C opened chunkSize w₂ = .ok (some chunk, paged) w₃)
      (marks : C.watermark w₃ = .ok mark w₄) (awaits : C.awaitWatermark mark w₄ = .ok () w₅)
      (closes : readWindow C paged w₅ = .ok (window, closed) w₆)
      (raised : mergeChunk C chunk window low closed.spec w₆ = .error e w')

theorem dblog_error {state : Option RunState} {chunkSize : ℤ} {inspectEvery : Option Timedelta}
    (h : dblog C now schema table state chunkSize inspectEvery w = .error e w') :
    CallRaises C now schema table chunkSize inspectEvery state w e w' := by
  simp only [dblog, guard_error, bind_error] at h
  rcases h with ⟨hsmall, rfl, rfl⟩ | ⟨-, h | ⟨opened, w₁, ho, h⟩⟩
  · exact .size hsmall rfl rfl
  · exact .opening h
  split_ifs at h with hdone
  · simp only [tailBatch, bind_error, pure_error, and_false, exists_false, or_false] at h
    exact .tail ho hdone h
  simp only [dumpBatch, bind_error] at h
  rcases h with h | ⟨low, w₂, hlow, h⟩
  · exact .low ho h
  rcases h with h | ⟨page, w₃, hp, h⟩
  · exact .page ho (eq_false_of_ne_true hdone) hlow h
  rcases h with h | ⟨mark, w₄, hm, h⟩
  · exact .mark ho hlow hp h
  rcases h with h | ⟨_, w₅, ha, h⟩
  · exact .await ho hlow hp hm h
  rcases h with h | ⟨⟨window, closed⟩, w₆, hw, h⟩
  · exact .window ho hlow hp hm ha h
  obtain ⟨chunk, paged⟩ := page
  cases chunk with
  | none => exact absurd h (by simp [pure_error])
  | some chunk =>
    simp only [bind_error, pure_error, and_false, exists_false, or_false] at h
    exact .merge ho hlow hp hm ha hw h

/-! ### Where exceptions come from -/

/-- A primitive of the source has raised it. -/
inductive FromSource (C : SourceConnector σ) (e : PyError) : Prop
  | getMaxLsn {v v' : σ} (raised : C.getMaxLsn v = .error e v')
  | getMinLsn {captureInstance} {v v' : σ} (raised : C.getMinLsn captureInstance v = .error e v')
  | watermark {v v' : σ} (raised : C.watermark v = .error e v')
  | awaitWatermark {mark} {v v' : σ} (raised : C.awaitWatermark mark v = .error e v')
  | inspect {source target} {v v' : σ} (raised : C.inspect source target v = .error e v')
  | readEventLog {spec fromLsn toLsn} {v v' : σ}
      (raised : C.readEventLog spec fromLsn toLsn v = .error e v')
  | toEvents {rows spec low} {v v' : σ} (raised : C.toEvents rows spec low v = .error e v')
  | readTable {spec startPk endPk limit} {v v' : σ}
      (raised : C.readTable spec startPk endPk limit v = .error e v')
  | incrementLsn {lsn} {v v' : σ} (raised : C.incrementLsn lsn v = .error e v')

/-- What a call refuses of its own, and when. -/
inductive Refusal (schema table : String) (chunkSize : ℤ) (state : Option RunState) : PyError → Prop
  | size (small : chunkSize < 1) :
      Refusal schema table chunkSize state
        (.valueError s!"chunk_size must be at least 1, got {chunkSize}")
  | table {st} (given : state = some st) (other : st.spec.qualifiedName ≠ s!"{schema}.{table}") :
      Refusal schema table chunkSize state (foreign st schema table)
  | uncaptured {spec} (none : spec.captureInstance = none) :
      Refusal schema table chunkSize state (uncaptured spec)
  | drifted {st : RunState} {fresh : TableSpec} {message} (given : state = some st)
      (moved : st.spec.pkColumns ≠ fresh.pkColumns ∨
        (st.spec.capturedColumns != fresh.capturedColumns) = true) :
      Refusal schema table chunkSize state (.schemaChangedError message)
  | expired {st opened floor} (given : state = some st) (carried : opened.lastLsn = st.lastLsn)
      (below : st.lastLsn < floor) : Refusal schema table chunkSize state (expired opened floor)
  | page {rows spec raised} (something : rows.rows ≠ []) (refused : keyAfter rows spec = .error raised) :
      Refusal schema table chunkSize state raised
  | join {chunk window spec raised} (refused : supersede chunk window spec = .error raised) :
      Refusal schema table chunkSize state raised
  | stack {window events : DataFrame} (other : window.schema ≠ events.schema) :
      Refusal schema table chunkSize state (.polarsError "schema mismatch")

section sources

variable {state : Option RunState} {chunkSize : ℤ} {inspectEvery : Option Timedelta}

theorem openRun_raises (h : openRun C now schema table state inspectEvery w = .error e w') :
    FromSource C e ∨ Refusal schema table chunkSize state e := by
  cases state with
  | none =>
    rcases seed_error.mp h with h | ⟨spec, w₁, -, ⟨hnone, rfl, -⟩ | ⟨ci, -, h | ⟨floor, w₂, -, h⟩⟩⟩
    · exact Or.inl (.inspect h)
    · exact Or.inr (.uncaptured hnone)
    · exact Or.inl (.getMinLsn h)
    · exact Or.inl (.getMaxLsn h)
  | some st =>
    rcases openRun_some_error.mp h with ⟨hother, rfl, -⟩ | ⟨-, h | ⟨opened, w₁, hr, h⟩⟩
    · exact Or.inr (.table rfl hother)
    · rcases (refreshSpec_error h).2 with h | ⟨fresh, -, ⟨hnone, rfl⟩ | hspec⟩
      · exact Or.inl (.inspect h)
      · exact Or.inr (.uncaptured hnone)
      · obtain ⟨hmoved, message, rfl⟩ := checkSpec_error hspec
        exact Or.inr (.drifted rfl hmoved)
    have hlsn : opened.lastLsn = st.lastLsn := by
      rcases refreshSpec_ok hr with ⟨rfl, -⟩ | ⟨fresh, -, -, -, rfl⟩ <;> rfl
    rcases h with ⟨hnone, rfl, -⟩ | ⟨ci, -, h⟩
    · exact Or.inr (.uncaptured hnone)
    rcases checkRetention_error.mp h with h | ⟨floor, -, hlt, rfl⟩
    · exact Or.inl (.getMinLsn h)
    · exact Or.inr (.expired rfl hlsn (hlsn ▸ hlt))

theorem readWindow_raises {st : RunState} (h : readWindow C st w = .error e w') : FromSource C e := by
  rcases readWindow_error.mp h with h | ⟨high, w₁, -, -, h | ⟨events, w₂, -, h⟩⟩
  · exact .getMaxLsn h
  · exact .readEventLog h
  · exact .incrementLsn h

/-- **Whatever a call raises** has been raised by a primitive of the source, or is a refusal of the
call's own, under its condition. -/
theorem dblog_raises (h : dblog C now schema table state chunkSize inspectEvery w = .error e w') :
    FromSource C e ∨ Refusal schema table chunkSize state e := by
  cases dblog_error h with
  | size small refused => exact Or.inr (refused ▸ .size small)
  | opening raised => exact openRun_raises raised
  | tail opens walked raised => exact Or.inl (readWindow_raises raised)
  | low opens raised => exact Or.inl (.watermark raised)
  | page opens walking lows raised =>
    rcases nextChunk_error.mp raised with h | ⟨rows, -, hne, hkey⟩
    · exact Or.inl (.readTable h)
    · exact Or.inr (.page hne hkey)
  | mark opens lows pages raised => exact Or.inl (.watermark raised)
  | await opens lows pages marks raised => exact Or.inl (.awaitWatermark raised)
  | window opens lows pages marks awaits raised => exact Or.inl (readWindow_raises raised)
  | merge opens lows pages marks awaits closes raised =>
    rcases mergeChunk_error raised with h | ⟨kept, -, h | ⟨events, top, -, -, -, hschema, rfl⟩⟩
    · exact Or.inr (.join h)
    · exact Or.inl (.toEvents h)
    · exact Or.inr (.stack hschema)

end sources

end PyDBLog.Model.Raises
