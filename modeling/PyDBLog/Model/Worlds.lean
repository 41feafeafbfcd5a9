import PyDBLog.Model.DBLog

/-! # How a call moves the world

A relation between worlds that every primitive of a connector respects, whether it returns or
raises, is respected by a whole `dblog()` call and by `state_at_lsn()` (`Moving.dblog`,
`Moving.stateAtLsn`). -/

namespace PyDBLog.Model.Worlds

open PyDBLog.Model.Python PyDBLog.Model.Frame PyDBLog.Model.Types PyDBLog.Model.Connector
open PyDBLog.Model.DBLog

variable {σ α β : Type}

/-- The world a call leaves behind, returning or raising. -/
def leaves : EStateM.Result PyError σ α → σ
  | .ok _ w => w
  | .error _ w => w

/-- The call moves the world by the relation. -/
def Moves (R : σ → σ → Prop) (x : Call σ α) : Prop := ∀ w, R w (leaves (x w))

/-- Every primitive of the connector moves the world by a reflexive and transitive relation. -/
structure Moving (R : σ → σ → Prop) (C : SourceConnector σ) : Prop where
  refl : ∀ w, R w w
  trans : ∀ {w₁ w₂ w₃}, R w₁ w₂ → R w₂ w₃ → R w₁ w₃
  getMaxLsn : Moves R C.getMaxLsn
  getMinLsn : ∀ captureInstance, Moves R (C.getMinLsn captureInstance)
  watermark : Moves R C.watermark
  awaitWatermark : ∀ mark, Moves R (C.awaitWatermark mark)
  inspect : ∀ schema table, Moves R (C.inspect schema table)
  readEventLog : ∀ spec fromLsn toLsn, Moves R (C.readEventLog spec fromLsn toLsn)
  toEvents : ∀ rows spec commitTimestamp, Moves R (C.toEvents rows spec commitTimestamp)
  readTable : ∀ spec startPk endPk limit, Moves R (C.readTable spec startPk endPk limit)
  incrementLsn : ∀ lsn, Moves R (C.incrementLsn lsn)

variable {R : σ → σ → Prop} {C : SourceConnector σ}

theorem Moves.ok {x : Call σ α} (h : Moves R x) {w w' : σ} {a : α} (hx : x w = .ok a w') : R w w' := by
  have := h w
  rwa [hx] at this

theorem Moves.error {x : Call σ α} (h : Moves R x) {w w' : σ} {e : PyError}
    (hx : x w = .error e w') : R w w' := by
  have := h w
  rwa [hx] at this

section leaves

variable {x : Call σ α} {f : α → Call σ β} {w w' : σ} {a : α} {e : PyError}

theorem leaves_bind_ok (h : x w = .ok a w') : leaves ((x >>= f) w) = leaves (f a w') := by
  show leaves (EStateM.bind x f w) = _
  rw [EStateM.bind, h]

theorem leaves_bind_error (h : x w = .error e w') : leaves ((x >>= f) w) = w' := by
  show leaves (EStateM.bind x f w) = _
  rw [EStateM.bind, h]
  rfl

/-- What a call returns does not matter to the world it leaves. -/
theorem leaves_discard : leaves ((do let _ ← x) w) = leaves (x w) := by
  show leaves (EStateM.bind x _ w) = _
  unfold EStateM.bind
  cases x w <;> rfl

end leaves

/-- One computation after another moves the world by a transitive relation if both do. -/
theorem Moves.bind (trans : ∀ {w₁ w₂ w₃}, R w₁ w₂ → R w₂ w₃ → R w₁ w₃) {x : Call σ α} {f : α → Call σ β}
    (hx : Moves R x) (hf : ∀ a, Moves R (f a)) : Moves R (x >>= f) := by
  intro w
  cases h : x w with
  | ok a w₁ =>
    rw [leaves_bind_ok h]
    exact trans (hx.ok h) (hf a w₁)
  | error e w₁ =>
    rw [leaves_bind_error h]
    exact hx.error h

theorem Moves.pure (refl : ∀ w, R w w) (a : α) : Moves R (Pure.pure a : Call σ α) := fun w => refl w

theorem Moves.throw (refl : ∀ w, R w w) (e : PyError) : Moves R (throw e : Call σ α) := fun w => refl w

theorem Moves.ofExcept (refl : ∀ w, R w w) (x : Except PyError α) :
    Moves R (ofExcept x : Call σ α) := by
  cases x with
  | ok a => exact Moves.pure refl a
  | error e => exact Moves.throw refl e

namespace Moving

variable (hC : Moving R C)

include hC

theorem pure (a : α) : Moves R (Pure.pure a : Call σ α) := Moves.pure hC.refl a

theorem throw (e : PyError) : Moves R (throw e : Call σ α) := Moves.throw hC.refl e

theorem ofExcept (x : Except PyError α) : Moves R (ofExcept x : Call σ α) := Moves.ofExcept hC.refl x

theorem bind {x : Call σ α} {f : α → Call σ β} (hx : Moves R x) (hf : ∀ a, Moves R (f a)) :
    Moves R (x >>= f) := Moves.bind (R := R) hC.trans hx hf

theorem checkRetention (state : RunState) (captureInstance : String) :
    Moves R (checkRetention C state captureInstance) := by
  refine hC.bind (hC.getMinLsn _) fun floor => ?_
  split_ifs
  · exact hC.throw _
  · exact hC.pure _

theorem seed (now : ℤ) (schema table : String) : Moves R (seed C now schema table) :=
  hC.bind (hC.inspect _ _) fun _ => hC.bind (hC.ofExcept _) fun _ =>
    hC.bind (hC.getMinLsn _) fun _ => hC.bind hC.getMaxLsn fun _ => hC.pure _

theorem stateAtLsn (now : ℤ) (schema table : String) (fromLsn : LSN) (dumpDone : Bool) :
    Moves R (stateAtLsn C now schema table fromLsn dumpDone) :=
  hC.bind (hC.inspect _ _) fun _ => hC.bind (hC.ofExcept _) fun _ =>
    hC.bind (hC.checkRetention _ _) fun _ => hC.pure _

theorem refreshSpec (now : ℤ) (state : RunState) (inspectEvery : Option Timedelta) :
    Moves R (refreshSpec C now state inspectEvery) := by
  unfold DBLog.refreshSpec
  cases inspectEvery with
  | none => exact hC.pure _
  | some every =>
    dsimp only
    split_ifs
    · exact hC.pure _
    · exact hC.bind (hC.inspect _ _) fun _ => hC.bind (hC.ofExcept _) fun _ =>
        hC.bind (hC.ofExcept _) fun _ => hC.pure _

theorem openRun (now : ℤ) (schema table : String) (state : Option RunState)
    (inspectEvery : Option Timedelta) : Moves R (openRun C now schema table state inspectEvery) := by
  cases state with
  | none => exact hC.seed now schema table
  | some state =>
    exact hC.bind (hC.ofExcept _) fun _ => hC.bind (hC.refreshSpec _ _ _) fun _ =>
      hC.bind (hC.ofExcept _) fun _ => hC.bind (hC.checkRetention _ _) fun _ => hC.pure _

theorem nextChunk (state : RunState) (chunkSize : ℤ) : Moves R (nextChunk C state chunkSize) := by
  refine hC.bind (hC.readTable _ _ _ _) fun rows => ?_
  dsimp only
  split_ifs
  · exact hC.pure _
  · exact hC.bind (hC.ofExcept _) fun _ => hC.pure _

theorem readWindow (state : RunState) : Moves R (readWindow C state) := by
  refine hC.bind hC.getMaxLsn fun high => ?_
  split_ifs
  · exact hC.pure _
  · exact hC.bind (hC.readEventLog _ _ _) fun _ => hC.bind (hC.incrementLsn _) fun _ => hC.pure _

theorem mergeChunk (chunk : DataFrame) (window : Option DataFrame) (low : Datetime)
    (spec : TableSpec) : Moves R (mergeChunk C chunk window low spec) := by
  refine hC.bind (hC.ofExcept _) fun kept => hC.bind (hC.toEvents _ _ _) fun events => ?_
  cases window with
  | none => exact hC.pure _
  | some window =>
    dsimp only
    split_ifs
    · exact hC.pure _
    · exact hC.ofExcept _

/-- **A call moves the world as its primitives do.** -/
theorem dblog (now : ℤ) (schema table : String) (state : Option RunState) (chunkSize : ℤ)
    (inspectEvery : Option Timedelta) :
    Moves R (dblog C now schema table state chunkSize inspectEvery) := by
  unfold DBLog.dblog
  split_ifs
  · exact hC.throw _
  refine hC.bind (hC.openRun _ _ _ _ _) fun opened => ?_
  split_ifs
  · exact hC.bind (hC.readWindow _) fun _ => hC.pure _
  refine hC.bind hC.watermark fun low => hC.bind (hC.nextChunk _ _) fun page =>
    hC.bind hC.watermark fun high => hC.bind (hC.awaitWatermark _) fun _ =>
      hC.bind (hC.readWindow _) fun window => ?_
  cases page.1 with
  | none => exact hC.pure _
  | some chunk => exact hC.bind (hC.mergeChunk _ _ _ _) fun _ => hC.pure _

end Moving

end PyDBLog.Model.Worlds
