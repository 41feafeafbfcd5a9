import PyDBLog.Model.Links
import PyDBLog.Mssql.Handles
import PyDBLog.Runs.OnServer

/-! # What inspections cost

An inspection reads four tables of the catalogue; `inspect_every` is there so that calls do not pay
for it. The count of inspections runs beside the source (`counted`). A call makes at most one, a
call on a state that was inspected less than the interval ago none, and every state handed back was.
So over any life of a consumer the inspections are no more than the intervals it lasts, and one for
each call that raises, is made on nothing or is handed a state from elsewhere
(`inspections_spaced`). -/

namespace PyDBLog.Runs.Inspections

open PyDBLog.Model.Python PyDBLog.Model.Frame PyDBLog.Model.Types PyDBLog.Model.Connector
open PyDBLog.Model.DBLog PyDBLog.Model.Returns PyDBLog.Model.Worlds PyDBLog.Model.Links
open PyDBLog.Mssql.Handles

variable {σ α β : Type}

/-! ### Counting -/

/-- A computation adds at most `k` to the count beside the world, returning or raising. -/
def Costs (k : ℕ) (x : Call (σ × ℕ) α) : Prop := ∀ p, (leaves (x p)).2 ≤ p.2 + k

namespace Costs

variable {k l : ℕ} {x : Call (σ × ℕ) α} {f : α → Call (σ × ℕ) β} {p p' : σ × ℕ}

theorem ok (h : Costs k x) {a : α} (hx : x p = .ok a p') : p'.2 ≤ p.2 + k := by
  have := h p
  rwa [hx] at this

theorem error (h : Costs k x) {e : PyError} (hx : x p = .error e p') : p'.2 ≤ p.2 + k := by
  have := h p
  rwa [hx] at this

theorem pure (a : α) : Costs k (Pure.pure a : Call (σ × ℕ) α) := fun _ => Nat.le_add_right _ _

theorem throw (e : PyError) : Costs k (throw e : Call (σ × ℕ) α) := fun _ => Nat.le_add_right _ _

theorem ofExcept (x : Except PyError α) : Costs k (ofExcept x : Call (σ × ℕ) α) := by
  cases x with
  | ok a => exact pure a
  | error e => exact throw e

theorem beside (x : Call σ α) : Costs k (Mssql.Handles.beside x : Call (σ × ℕ) α) := by
  intro p
  unfold Mssql.Handles.beside
  cases x p.1 <;> exact Nat.le_add_right _ _

/-- Costs add up. -/
theorem bind (hx : Costs k x) (hf : ∀ a, Costs l (f a)) : Costs (k + l) (x >>= f) := by
  intro p
  cases h : x p with
  | ok a p₁ =>
    rw [leaves_bind_ok h]
    have h1 := hx.ok h
    have h2 := hf a p₁
    omega
  | error e p₁ =>
    rw [leaves_bind_error h]
    have h1 := hx.error h
    omega

theorem bind_free (hx : Costs 0 x) (hf : ∀ a, Costs l (f a)) : Costs l (x >>= f) := by
  have h := hx.bind hf
  rwa [Nat.zero_add] at h

theorem bind_rest (hx : Costs k x) (hf : ∀ a, Costs 0 (f a)) : Costs k (x >>= f) := hx.bind hf

theorem ite {c : Prop} [Decidable c] {y : Call (σ × ℕ) α} (hx : Costs k x) (hy : Costs k y) :
    Costs k (if c then x else y) := by
  split_ifs
  · exact hx
  · exact hy

end Costs

/-- The source, with the inspections it is asked for counted. -/
def counted (C : SourceConnector σ) : SourceConnector (σ × ℕ) where
  getMaxLsn := beside C.getMaxLsn
  getMinLsn captureInstance := beside (C.getMinLsn captureInstance)
  watermark := beside C.watermark
  awaitWatermark mark := beside (C.awaitWatermark mark)
  inspect schema table := fun p => beside (C.inspect schema table) (p.1, p.2 + 1)
  readEventLog spec fromLsn toLsn := beside (C.readEventLog spec fromLsn toLsn)
  toEvents rows spec commitTimestamp := beside (C.toEvents rows spec commitTimestamp)
  readTable spec startPk endPk limit := beside (C.readTable spec startPk endPk limit)
  incrementLsn lsn := beside (C.incrementLsn lsn)

theorem beside_follows (x : Call σ α) : Follows (firstLink (τ := ℕ)) (beside x) x where
  moves _ := trivial
  returns := by
    rintro ⟨w, n⟩ _ a p' rfl h
    unfold beside at h
    cases hx : x w <;> simp only [hx] at h <;> cases h
    exact ⟨_, rfl, rfl⟩
  raises := by
    rintro ⟨w, n⟩ _ e p' rfl h
    unfold beside at h
    cases hx : x w <;> simp only [hx] at h <;> cases h
    exact ⟨_, Or.inl rfl, rfl⟩

/-- Counting changes nothing. -/
theorem counted_simulates (C : SourceConnector σ) : Simulates firstLink (counted C) C where
  getMaxLsn := beside_follows _
  getMinLsn _ := beside_follows _
  watermark := beside_follows _
  awaitWatermark _ := beside_follows _
  inspect schema table :=
    { moves := fun _ => trivial
      returns := fun {p} _ _ _ hrel h =>
        (beside_follows (C.inspect schema table)).returns (s := (p.1, p.2 + 1)) hrel h
      raises := fun {p} _ _ _ hrel h =>
        (beside_follows (C.inspect schema table)).raises (s := (p.1, p.2 + 1)) hrel h }
  readEventLog _ _ _ := beside_follows _
  toEvents _ _ _ := beside_follows _
  readTable _ _ _ _ := beside_follows _
  incrementLsn _ := beside_follows _

/-! ### One call -/

section call

variable {C : SourceConnector σ} {now chunkSize every : ℤ} {schema table : String}
  {p p' : σ × ℕ}

theorem inspect_costs (schema table : String) : Costs 1 ((counted C).inspect schema table) := by
  intro p
  have h := Costs.beside (k := 0) (C.inspect schema table) (p.1, p.2 + 1)
  dsimp only [counted] at h ⊢
  omega

theorem checkRetention_costs (state : RunState) (captureInstance : String) :
    Costs 0 (checkRetention (counted C) state captureInstance) :=
  (Costs.beside _).bind_free fun _ => (Costs.throw _).ite (.pure _)

theorem seed_costs (now : ℤ) (schema table : String) : Costs 1 (seed (counted C) now schema table) :=
  (inspect_costs schema table).bind_rest fun _ => (Costs.ofExcept _).bind_free fun _ =>
    (Costs.beside _).bind_free fun _ => (Costs.beside _).bind_free fun _ => .pure _

theorem stateAtLsn_costs (now : ℤ) (schema table : String) (fromLsn : LSN) (dumpDone : Bool) :
    Costs 1 (stateAtLsn (counted C) now schema table fromLsn dumpDone) :=
  (inspect_costs schema table).bind_rest fun _ => (Costs.ofExcept _).bind_free fun _ =>
    (checkRetention_costs _ _).bind_free fun _ => .pure _

theorem refreshSpec_costs (now : ℤ) (state : RunState) (inspectEvery : Option Timedelta) :
    Costs 1 (refreshSpec (counted C) now state inspectEvery) := by
  unfold refreshSpec
  cases inspectEvery with
  | none => exact .pure _
  | some every =>
    exact (Costs.pure _).ite ((inspect_costs _ _).bind_rest fun _ =>
      (Costs.ofExcept _).bind_free fun _ =>
      (Costs.ofExcept _).bind_free fun _ => .pure _)

theorem openRun_costs (now : ℤ) (schema table : String) (state : Option RunState)
    (inspectEvery : Option Timedelta) :
    Costs 1 (openRun (counted C) now schema table state inspectEvery) := by
  cases state with
  | none => exact seed_costs now schema table
  | some state =>
    exact (Costs.ofExcept _).bind_free fun _ => (refreshSpec_costs _ _ _).bind_rest fun _ =>
      (Costs.ofExcept _).bind_free fun _ => (checkRetention_costs _ _).bind_free fun _ => .pure _

theorem readWindow_costs (state : RunState) : Costs 0 (readWindow (counted C) state) :=
  (Costs.beside _).bind_free fun _ => (Costs.pure _).ite
    ((Costs.beside _).bind_free fun _ => (Costs.beside _).bind_free fun _ => .pure _)

theorem nextChunk_costs (state : RunState) (chunkSize : ℤ) :
    Costs 0 (nextChunk (counted C) state chunkSize) :=
  (Costs.beside _).bind_free fun _ => (Costs.pure _).ite ((Costs.ofExcept _).bind_free fun _ => .pure _)

theorem mergeChunk_costs (chunk : DataFrame) (window : Option DataFrame) (low : Datetime)
    (spec : TableSpec) :
    Costs 0 (mergeChunk (counted C) chunk window low spec) := by
  refine (Costs.ofExcept _).bind_free fun kept => (Costs.beside _).bind_free fun events => ?_
  cases window with
  | none => exact .pure _
  | some window => exact (Costs.pure _).ite (.ofExcept _)

/-- Past its opening a call inspects nothing. -/
theorem batch_costs (opened : RunState) (chunkSize : ℤ) : Costs 0 (if opened.dumpDone then
    tailBatch (counted C) opened else dumpBatch (counted C) opened chunkSize) := by
  refine ((readWindow_costs _).bind_free fun _ => .pure _).ite ?_
  refine (Costs.beside _).bind_free fun low => (nextChunk_costs _ _).bind_free fun page =>
    (Costs.beside _).bind_free fun high => (Costs.beside _).bind_free fun _ =>
      (readWindow_costs _).bind_free fun window => ?_
  cases page.1 with
  | none => exact .pure _
  | some chunk => exact (mergeChunk_costs _ _ _ _).bind_free fun _ => .pure _

/-- A call inspects once at most. -/
theorem dblog_costs (now : ℤ) (schema table : String) (state : Option RunState) (chunkSize : ℤ)
    (inspectEvery : Option Timedelta) :
    Costs 1 (dblog (counted C) now schema table state chunkSize inspectEvery) :=
  (Costs.throw _).ite ((openRun_costs _ _ _ _ _).bind_rest fun opened => batch_costs opened chunkSize)

/-- A call hands back the inspection it opened with, and counts no more than it opened with. -/
theorem dblog_opened {state : Option RunState} {inspectEvery : Option Timedelta} {b : BatchResult}
    (h : dblog (counted C) now schema table state chunkSize inspectEvery p = .ok b p') :
    ∃ opened p₁, openRun (counted C) now schema table state inspectEvery p = .ok opened p₁ ∧
      b.state.lastInspect = opened.lastInspect ∧ p'.2 ≤ p₁.2 := by
  have hread := h
  unfold dblog at h
  split_ifs at h with hsize
  · exact (throw_ok.mp h).elim
  obtain ⟨opened, p₁, ho, hrest⟩ := bind_ok.mp h
  obtain ⟨-, opened', rows, high, window, hr⟩ := dblog_ok.mp hread
  have hkept : b.state.lastInspect = opened'.lastInspect ∧
      ∃ p₂, openRun (counted C) now schema table state inspectEvery p = .ok opened' p₂ := by
    cases hr with
    | tail ho _ hw => exact ⟨by rw [hw.frame], _, ho⟩
    | last ho _ _ hp _ _ hw => cases hp; exact ⟨by rw [hw.frame], _, ho⟩
    | chunk ho _ _ hp _ _ hw _ => cases hp; exact ⟨by rw [hw.frame], _, ho⟩
  obtain ⟨hkept, p₂, ho'⟩ := hkept
  rw [ho] at ho'
  cases ho'
  exact ⟨opened, p₁, ho, hkept, (batch_costs opened chunkSize).ok hrest⟩

/-- What a refresh does to the inspection a state carries: nothing while it is fresh; else it makes
one now. -/
theorem refreshSpec_inspection {state opened : RunState}
    (h : refreshSpec (counted C) now state (some every) p = .ok opened p') :
    (now - state.lastInspect.instant < every ∧ opened = state ∧ p' = p) ∨
      (every ≤ now - state.lastInspect.instant ∧ opened.lastInspect = .utc now) := by
  by_cases hfresh : now - state.lastInspect.instant < every
  · rw [refreshSpec, if_pos hfresh] at h
    obtain ⟨rfl, rfl⟩ := pure_ok.mp h
    exact Or.inl ⟨hfresh, rfl, rfl⟩
  · rw [refreshSpec, if_neg hfresh] at h
    simp only [bind_ok, pure_ok] at h
    obtain ⟨fresh, _, -, _, _, -, _, _, -, rfl, -⟩ := h
    exact Or.inr ⟨not_lt.mp hfresh, rfl⟩

/-- **One call**: what it hands back was inspected less than the interval ago, now or as it was
given; and in the second case nothing is counted. -/
theorem dblog_inspection {state : Option RunState} {b : BatchResult}
    (h : dblog (counted C) now schema table state chunkSize (some every) p = .ok b p') :
    (b.state.lastInspect = .utc now ∧ ∀ st ∈ state, every ≤ now - st.lastInspect.instant) ∨
      ∃ st ∈ state, now - st.lastInspect.instant < every ∧ b.state.lastInspect = st.lastInspect ∧
        p'.2 ≤ p.2 := by
  obtain ⟨opened, p₁, ho, hkept, hrest⟩ := dblog_opened h
  rw [hkept]
  cases state with
  | none =>
    obtain ⟨spec, ci, _, _, _, _, -, -, -, -, rfl⟩ := seed_ok.mp ho
    exact Or.inl ⟨rfl, by simp⟩
  | some st =>
    obtain ⟨p₂, ci, floor, -, hr, -, hmin, -⟩ := openRun_some ho
    rcases refreshSpec_inspection hr with ⟨hfresh, rfl, rfl⟩ | ⟨hstale, hnow⟩
    · have hfree := (Costs.beside (k := 0) (C.getMinLsn ci)).ok hmin
      exact Or.inr ⟨opened, rfl, hfresh, rfl, by omega⟩
    · refine Or.inl ⟨hnow, ?_⟩
      rintro _ ⟨⟩
      exact hstale

end call

/-! ### The life of a consumer -/

/-- Calls and whatever is between them, on a clock that does not go back: the time, the calls that
raised, were made on nothing or rebuilt a state, with the states that came from elsewhere, and what
the next call is given. -/
inductive Watched (C : SourceConnector σ) (schema table : String) (every began : ℤ) :
    ℤ → ℕ → Option RunState → σ × ℕ → Prop
  | starts (w : σ) : Watched C schema table every began began 0 none (w, 0)
  | idles {t m state w n} (w' : σ) (watched : Watched C schema table every began t m state (w, n)) :
      Watched C schema table every began t m state (w', n)
  | drops {t m state p} (watched : Watched C schema table every began t m state p) :
      Watched C schema table every began t m none p
  | loads {t m state p} (st : RunState) (watched : Watched C schema table every began t m state p) :
      Watched C schema table every began t (m + 1) (some st) p
  | rebuilds {t m state p now fromLsn dumpDone st p'}
      (watched : Watched C schema table every began t m state p) (later : t ≤ now)
        (returned : stateAtLsn (counted C) now schema table fromLsn dumpDone p = .ok st p') :
      Watched C schema table every began now (m + 1) (some st) p'
  | refused {t m state p now fromLsn dumpDone e p'}
      (watched : Watched C schema table every began t m state p) (later : t ≤ now)
        (raised : stateAtLsn (counted C) now schema table fromLsn dumpDone p = .error e p') :
      Watched C schema table every began now (m + 1) state p'
  | raises {t m state p now chunkSize e p'} (watched : Watched C schema table every began t m state p)
      (later : t ≤ now)
      (raised : dblog (counted C) now schema table state chunkSize (some every) p = .error e p') :
      Watched C schema table every began now (m + 1) state p'
  | opens {t m p now chunkSize b p'} (watched : Watched C schema table every began t m none p)
      (later : t ≤ now)
      (returned : dblog (counted C) now schema table none chunkSize (some every) p = .ok b p') :
      Watched C schema table every began now (m + 1) (some b.state) p'
  | returns {t m st p now chunkSize b p'} (watched : Watched C schema table every began t m (some st) p)
      (later : t ≤ now)
      (returned : dblog (counted C) now schema table (some st) chunkSize (some every) p = .ok b p') :
      Watched C schema table every began now m (some b.state) p'

/-- **The count is paid for** up to the inspection made last: with the state it is on no older than
that, or with one to spare. -/
structure Paid (every began t : ℤ) (m : ℕ) (state : Option RunState) (n : ℕ) (last : ℤ) : Prop where
  began_le : began ≤ last
  le_now : last ≤ t
  paid : ((∀ st ∈ state, last ≤ st.lastInspect.instant) ∧ (n - m : ℤ) * every ≤ last - began) ∨
    (n + 1 - m : ℤ) * every ≤ last - began

namespace Paid

variable {every began t last now : ℤ} {m n n' : ℕ} {state : Option RunState} {st : RunState}

/-- One inspection against one more of what is counted against it. -/
theorem mul_le {a : ℤ} (hevery : 0 < every) (hn : n' ≤ n + 1) :
    (n' + a - (m + 1 : ℕ) : ℤ) * every ≤ (n + a - m) * every := by
  refine mul_le_mul_of_nonneg_right ?_ hevery.le
  push_cast
  omega

theorem count (h : Paid every began t m state n last) (hevery : 0 < every) :
    (n - m : ℤ) * every ≤ last - began := by
  rcases h.paid with ⟨-, hpaid⟩ | hpaid
  · exact hpaid
  · have : (n - m : ℤ) * every ≤ (n + 1 - m) * every := mul_le_mul_of_nonneg_right (by omega) hevery.le
    omega

/-- A call that raises, or a state no call has handed back. -/
theorem spare (h : Paid every began t m state n last) (hevery : 0 < every) (st : RunState) :
    Paid every began t (m + 1) (some st) n last := by
  refine ⟨h.began_le, h.le_now, Or.inr ?_⟩
  have hcount := h.count hevery
  push_cast
  rwa [show (n + 1 - (m + 1) : ℤ) = n - m by ring]

theorem raised (h : Paid every began t m state n last) (hevery : 0 < every) (later : t ≤ now)
    (hn : n' ≤ n + 1) : Paid every began now (m + 1) state n' last := by
  refine ⟨h.began_le, h.le_now.trans later, ?_⟩
  rcases h.paid with ⟨hstate, hpaid⟩ | hpaid
  · have hmul := mul_le (m := m) (a := 0) hevery hn
    simp only [add_zero] at hmul
    exact Or.inl ⟨hstate, hmul.trans hpaid⟩
  · exact Or.inr ((mul_le hevery hn).trans hpaid)

/-- An inspection made now, on nothing. -/
theorem opened (h : Paid every began t m state n last) (hevery : 0 < every) (later : t ≤ now)
    (hn : n' ≤ n + 1) (hst : st.lastInspect = .utc now) :
    Paid every began now (m + 1) (some st) n' last := by
  have hcount := h.count hevery
  have hmul := mul_le (m := m) (a := 0) hevery hn
  simp only [add_zero] at hmul
  refine ⟨h.began_le, h.le_now.trans later, Or.inl ⟨?_, hmul.trans hcount⟩⟩
  rintro _ ⟨⟩
  rw [hst]
  exact h.le_now.trans later

/-- An inspection made now, an interval after the one before. -/
theorem inspected (h : Paid every began t m (some st) n last) (hevery : 0 < every) (later : t ≤ now)
    (hn : n' ≤ n + 1) {st' : RunState} (hstale : every ≤ now - st.lastInspect.instant)
    (hst : st'.lastInspect = .utc now) : Paid every began now m (some st') n' now := by
  have hbegan := h.began_le
  have hlast := h.le_now
  refine ⟨by omega, le_rfl, Or.inl ⟨?_, ?_⟩⟩
  · rintro _ ⟨⟩
    rw [hst]
    exact le_rfl
  have hmul : (n' - m : ℤ) * every ≤ (n + 1 - m) * every :=
    mul_le_mul_of_nonneg_right (by omega) hevery.le
  rcases h.paid with ⟨hstate, hpaid⟩ | hpaid
  · have hgiven := hstate st rfl
    have hsplit : (n + 1 - m : ℤ) * every = (n - m) * every + every := by ring
    omega
  · omega

/-- No inspection. -/
theorem kept (h : Paid every began t m (some st) n last) (hevery : 0 < every) (later : t ≤ now)
    (hn : n' ≤ n) {st' : RunState} (hst : st'.lastInspect = st.lastInspect) :
    Paid every began now m (some st') n' last := by
  have hmul : ∀ a : ℤ, (n' + a - m) * every ≤ (n + a - m) * every := fun a =>
    mul_le_mul_of_nonneg_right (by omega) hevery.le
  refine ⟨h.began_le, h.le_now.trans later, ?_⟩
  rcases h.paid with ⟨hstate, hpaid⟩ | hpaid
  · have hmul := hmul 0
    simp only [add_zero] at hmul
    refine Or.inl ⟨?_, hmul.trans hpaid⟩
    rintro _ ⟨⟩
    rw [hst]
    exact hstate st rfl
  · exact Or.inr ((hmul 1).trans hpaid)

end Paid

variable {C : SourceConnector σ} {schema table : String} {every began t : ℤ} {m n : ℕ}
  {state : Option RunState} {p : σ × ℕ}

/-- Over a whole life the count is paid for. -/
theorem Watched.paid (hevery : 0 < every) (watched : Watched C schema table every began t m state p) :
    ∃ last, Paid every began t m state p.2 last := by
  induction watched with
  | starts w => exact ⟨began, le_rfl, le_rfl, Or.inl ⟨by simp, by simp⟩⟩
  | idles w' watched ih => exact ih
  | drops watched ih =>
    obtain ⟨last, h⟩ := ih
    exact ⟨last, h.began_le, h.le_now, Or.inl ⟨by simp, h.count hevery⟩⟩
  | loads st watched ih =>
    obtain ⟨last, h⟩ := ih
    exact ⟨last, h.spare hevery st⟩
  | rebuilds watched later returned ih =>
    obtain ⟨last, h⟩ := ih
    obtain ⟨spec, ci, _, _, -, -, -, -, rfl⟩ := stateAtLsn_ok.mp returned
    exact ⟨last, h.opened hevery later ((stateAtLsn_costs _ _ _ _ _).ok returned) rfl⟩
  | refused watched later raised ih =>
    obtain ⟨last, h⟩ := ih
    exact ⟨last, h.raised hevery later ((stateAtLsn_costs _ _ _ _ _).error raised)⟩
  | raises watched later raised ih =>
    obtain ⟨last, h⟩ := ih
    exact ⟨last, h.raised hevery later ((dblog_costs _ _ _ _ _ _).error raised)⟩
  | opens watched later returned ih =>
    obtain ⟨last, h⟩ := ih
    rcases dblog_inspection returned with ⟨hnow, -⟩ | ⟨st, hst, -⟩
    · exact ⟨last, h.opened hevery later ((dblog_costs _ _ _ _ _ _).ok returned) hnow⟩
    · cases hst
  | returns watched later returned ih =>
    obtain ⟨last, h⟩ := ih
    rcases dblog_inspection returned with ⟨hnow, hstale⟩ | ⟨st, hst, -, hkept, hn⟩
    · exact ⟨_, h.inspected hevery later ((dblog_costs _ _ _ _ _ _).ok returned) (hstale _ rfl) hnow⟩
    · cases hst
      exact ⟨last, h.kept hevery later hn hkept⟩

/-- **Inspections keep their distance.** However a consumer lives, calling as often as it likes,
over any source and with any states, it makes no more inspections than the intervals its life lasts,
and one for each call that raises, is made on nothing or rebuilds a state, and for each state it is
handed from elsewhere. And no call returns under a spec that was inspected an interval ago or
more. -/
theorem inspections_spaced (hevery : 0 < every)
    (watched : Watched C schema table every began t m state p) :
    (p.2 : ℤ) ≤ (t - began) / every + m ∧
      ∀ {now chunkSize w b w'}, dblog C now schema table state chunkSize (some every) w = .ok b w' →
        now - b.state.lastInspect.instant < every := by
  refine ⟨?_, fun {now chunkSize w b w'} h => ?_⟩
  · obtain ⟨last, h⟩ := watched.paid hevery
    have hlast := h.le_now
    have hcount := h.count hevery
    have hintervals : (p.2 - m : ℤ) ≤ (t - began) / every := by
      rw [Int.le_ediv_iff_mul_le hevery]
      omega
    omega
  · have hfollows := (counted_simulates C).dblog now schema table state chunkSize (some every)
    obtain ⟨p', returned, -⟩ := hfollows.returns_of (fun _ hno => hno) (s := (w, 0)) rfl h
    rcases dblog_inspection returned with ⟨hnow, -⟩ | ⟨st, -, hfresh, hkept, -⟩
    · rw [hnow]
      show _ - _ < _
      dsimp only [AwareDatetime.utc]
      omega
    · rw [hkept]
      exact hfresh

/-! ### Two days on the items -/

open PyDBLog.Mssql.Connector PyDBLog.World.InMemory PyDBLog.Mssql.InMemory PyDBLog.Runs.OnServer

set_option maxRecDepth 100000 in
theorem stock_counted :
    dblog (counted server.source) 0 "dbo" "items" none 5 (some defaultInspectEvery) (stock, 0) =
    .ok ⟨some served, ⟨itemsSpec, lsnAt 5, .utc 0, some 3, true⟩⟩ (tick^[12] stock, 1) := rfl

set_option maxRecDepth 100000 in
theorem next_counted : dblog (counted server.source) defaultInspectEvery "dbo" "items"
    (some ⟨itemsSpec, lsnAt 5, .utc 0, some 3, true⟩) 5 (some defaultInspectEvery) (tick^[12] stock, 1) =
    .ok ⟨none, ⟨itemsSpec, lsnAt 5, .utc defaultInspectEvery, some 3, true⟩⟩ (tick^[18] stock, 2) := rfl

/-- The stock walked one day and tailed the next: two inspections, of the two there may be. -/
theorem inspections_spaced_stock :
    ((2 : ℕ) : ℤ) ≤ (defaultInspectEvery - 0) / defaultInspectEvery + (1 : ℕ) := by
  have opened : Watched server.source "dbo" "items" defaultInspectEvery 0 0 1 _ (tick^[12] stock, 1) :=
    .opens (.starts stock) le_rfl stock_counted
  have life := opened.returns (by decide) next_counted
  exact (inspections_spaced (by decide) life).1

end PyDBLog.Runs.Inspections
