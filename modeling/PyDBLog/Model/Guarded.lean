import PyDBLog.Model.Returns
import PyDBLog.Model.Worlds

/-! # Reads under some specs alone

A call reads under the spec its state holds and under those it inspects. A source that refuses to be
read under any other (`guarded`) is no other source to such a call (`dblog_guarded`), so that what a
source promises of the specs it inspects itself is as good as a promise of all. -/

namespace PyDBLog.Model.Guarded

open PyDBLog.Model.Python PyDBLog.Model.Frame PyDBLog.Model.Types PyDBLog.Model.Connector
open PyDBLog.Model.DBLog PyDBLog.Model.Returns PyDBLog.Model.Worlds

variable {σ α β : Type} {P : TableSpec → Prop} {C : SourceConnector σ} {now : ℤ} {schema table : String}
  {w w' : σ}

open Classical in
/-- The source, read under the specs with a property alone. -/
noncomputable def guarded (P : TableSpec → Prop) (C : SourceConnector σ) : SourceConnector σ :=
  { C with
    readEventLog := fun spec fromLsn toLsn =>
      if P spec then C.readEventLog spec fromLsn toLsn else throw (.valueError "not a spec of the table")
    readTable := fun spec startPk endPk limit =>
      if P spec then C.readTable spec startPk endPk limit
        else throw (.valueError "not a spec of the table") }

theorem moving_guarded {R : σ → σ → Prop} (hC : Moving R C) : Moving R (guarded P C) where
  refl := hC.refl
  trans := hC.trans
  getMaxLsn := hC.getMaxLsn
  getMinLsn := hC.getMinLsn
  watermark := hC.watermark
  awaitWatermark := hC.awaitWatermark
  inspect := hC.inspect
  toEvents := hC.toEvents
  incrementLsn := hC.incrementLsn
  readEventLog spec fromLsn toLsn := by
    unfold guarded
    dsimp only
    split_ifs
    · exact hC.readEventLog _ _ _
    · exact hC.throw _
  readTable spec startPk endPk limit := by
    unfold guarded
    dsimp only
    split_ifs
    · exact hC.readTable _ _ _ _
    · exact hC.throw _

/-- A guarded read that returns was made under such a spec. -/
theorem guard_returns {c : Prop} {_ : Decidable c} {x : Call σ α} {e : PyError} {a : α}
    (h : (if c then x else throw e) w = .ok a w') : c ∧ x w = .ok a w' := by
  split_ifs at h with hc
  · exact ⟨hc, h⟩
  · exact absurd h (by simp [throw_ok])

/-! ### A call on a guarded source -/

/-- Two calls agree that begin alike and go on alike with what the first part returned. -/
theorem bind_congr_ok {x y : Call σ α} {f g : α → Call σ β} (hx : x w = y w)
    (hf : ∀ a w₁, y w = .ok a w₁ → f a w₁ = g a w₁) : (x >>= f) w = (y >>= g) w := by
  show EStateM.bind x f w = EStateM.bind y g w
  rw [EStateM.bind, EStateM.bind, hx]
  cases h : y w with
  | ok a w₁ => exact hf a w₁ h
  | error e w₁ => rfl

variable {state : RunState} {chunkSize : ℤ}

theorem nextChunk_guarded (h : P state.spec) : nextChunk (guarded P C) state chunkSize =
    nextChunk C state chunkSize := by
  have hread : (guarded P C).readTable state.spec = C.readTable state.spec := by
    unfold guarded
    simp only [if_pos h]
  unfold nextChunk
  rw [hread]

theorem readWindow_guarded (h : P state.spec) : readWindow (guarded P C) state = readWindow C state := by
  have hread : (guarded P C).readEventLog state.spec = C.readEventLog state.spec := by
    unfold guarded
    simp only [if_pos h]
  have hmax : (guarded P C).getMaxLsn = C.getMaxLsn := rfl
  have hnext : (guarded P C).incrementLsn = C.incrementLsn := rfl
  unfold readWindow
  rw [hread, hmax, hnext]

theorem dumpBatch_guarded (h : P state.spec) :
    dumpBatch (guarded P C) state chunkSize w = dumpBatch C state chunkSize w := by
  unfold dumpBatch
  refine bind_congr_ok rfl fun low w₁ _ => bind_congr_ok (by rw [nextChunk_guarded h])
    fun page w₂ hpage => ?_
  obtain ⟨chunk, paged⟩ := page
  have hspec : P paged.spec := by
    obtain ⟨rows, hp⟩ := nextChunk_ok.mp hpage
    cases hp <;> exact h
  refine bind_congr_ok rfl fun mark w₃ _ => bind_congr_ok rfl fun _ w₄ _ => ?_
  exact bind_congr_ok (by rw [readWindow_guarded hspec]) fun window w₅ _ => rfl

/-- **A call that opens under such a spec** is the same call on the guarded source. -/
theorem dblog_guarded {given : Option RunState} {inspectEvery : Option Timedelta}
    (h : ∀ opened w₁, openRun C now schema table given inspectEvery w = .ok opened w₁ → P opened.spec) :
    dblog (guarded P C) now schema table given chunkSize inspectEvery w =
      dblog C now schema table given chunkSize inspectEvery w := by
  unfold dblog
  split_ifs
  · rfl
  refine bind_congr_ok rfl fun opened w₁ hopen => ?_
  have hspec := h opened w₁ hopen
  split_ifs
  · unfold tailBatch
    rw [readWindow_guarded hspec]
  · exact dumpBatch_guarded hspec

/-! ### An insistent source -/

/-- The source, refusing to inspect what nothing captures. Every caller of an inspection refuses it
next, with the same words. -/
def insistent (C : SourceConnector σ) : SourceConnector σ :=
  { C with
    inspect := fun schema table => do
      let spec ← C.inspect schema table
      let _ ← ofExcept (requireCaptureInstance spec)
      return spec }

theorem insistent_inspect_ok {spec : TableSpec} : (insistent C).inspect schema table w = .ok spec w' ↔
    C.inspect schema table w = .ok spec w' ∧
      ∃ captureInstance, spec.captureInstance = some captureInstance := by
  simp only [insistent, bind_ok, ofExcept_ok, requireCaptureInstance_ok, pure_ok]
  constructor
  · rintro ⟨spec, w₁, hi, ci, _, ⟨hci, rfl⟩, rfl, rfl⟩
    exact ⟨hi, ci, hci⟩
  · rintro ⟨hi, ci, hci⟩
    exact ⟨spec, w', hi, ci, w', ⟨hci, rfl⟩, rfl, rfl⟩

theorem moving_insistent {R : σ → σ → Prop} (hC : Moving R C) : Moving R (insistent C) where
  refl := hC.refl
  trans := hC.trans
  getMaxLsn := hC.getMaxLsn
  getMinLsn := hC.getMinLsn
  watermark := hC.watermark
  awaitWatermark := hC.awaitWatermark
  inspect schema table := hC.bind (hC.inspect schema table) fun _ =>
    hC.bind (hC.ofExcept _) fun _ => hC.pure _
  toEvents := hC.toEvents
  incrementLsn := hC.incrementLsn
  readEventLog := hC.readEventLog
  readTable := hC.readTable

/-- What refuses it next goes on the same. -/
theorem insistent_bind {f : TableSpec → String → Call σ β} :
    ((insistent C).inspect schema table >>= fun spec =>
        ofExcept (requireCaptureInstance spec) >>= fun captureInstance => f spec captureInstance) =
      C.inspect schema table >>= fun spec =>
        ofExcept (requireCaptureInstance spec) >>= fun captureInstance => f spec captureInstance := by
  funext w
  show EStateM.bind (EStateM.bind _ _) _ w = EStateM.bind _ _ w
  rw [EStateM.bind, EStateM.bind, EStateM.bind]
  cases C.inspect schema table w with
  | error e w₁ => rfl
  | ok spec w₁ =>
    cases hci : requireCaptureInstance spec with
    | error e => simp only [hci]; rfl
    | ok captureInstance =>
      have hinsists :
          (ofExcept (requireCaptureInstance spec) >>= fun _ => (pure spec : Call σ TableSpec)) w₁ =
            .ok spec w₁ := by
        rw [hci]
        rfl
      dsimp only
      rw [hinsists]

theorem openRun_insistent (inspectEvery : Option Timedelta) (given : Option RunState) :
    openRun (insistent C) now schema table given inspectEvery =
      openRun C now schema table given inspectEvery := by
  have hrefresh : ∀ st,
      refreshSpec (insistent C) now st inspectEvery = refreshSpec C now st inspectEvery := by
    intro st
    unfold refreshSpec
    cases inspectEvery with
    | none => rfl
    | some every => exact if_congr Iff.rfl rfl insistent_bind
  cases given with
  | none => exact insistent_bind
  | some st =>
    show (ofExcept _ >>= fun _ => refreshSpec (insistent C) now st inspectEvery >>= _) = _
    rw [hrefresh]
    rfl

/-- **A call cannot tell.** -/
theorem dblog_insistent (given : Option RunState) (inspectEvery : Option Timedelta) :
    dblog (insistent C) now schema table given chunkSize inspectEvery =
      dblog C now schema table given chunkSize inspectEvery := by
  unfold dblog
  rw [openRun_insistent]
  rfl

end PyDBLog.Model.Guarded
