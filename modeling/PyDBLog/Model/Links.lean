import PyDBLog.Model.Raises
import PyDBLog.Model.Worlds

/-! # One source behind another

A source that does its work through another (`Simulates`): a primitive that returns returns what the
other's returns, and one that raises raises what the other's raises, or an error of its own, before
which the other may have moved on. A whole call then does the same (`Simulates.dblog`,
`Simulates.stateAtLsn`). -/

namespace PyDBLog.Model.Links

open PyDBLog.Model.Python PyDBLog.Model.Frame PyDBLog.Model.Types PyDBLog.Model.Connector
open PyDBLog.Model.DBLog PyDBLog.Model.Worlds PyDBLog.Model.Raises

variable {σ τ α β : Type}

/-- What the near side raises on its own, and how the far side moves. -/
structure Leeway (τ : Type) where
  own : PyError → Prop
  moves : τ → τ → Prop
  refl : ∀ v, moves v v
  trans : ∀ {v₁ v₂ v₃}, moves v₁ v₂ → moves v₂ v₃ → moves v₁ v₃

/-- How two sides belong together. -/
structure Link (σ τ : Type) extends Leeway τ where
  related : σ → τ → Prop

/-- **A call does what another does**, or raises an error of its own. -/
structure Follows (link : Link σ τ) (x : Call σ α) (y : Call τ α) : Prop where
  moves : Moves link.moves y
  returns : ∀ {s v a s'}, link.related s v → x s = .ok a s' → ∃ v', y v = .ok a v' ∧ link.related s' v'
  raises : ∀ {s v e s'}, link.related s v → x s = .error e s' →
    ∃ v', (y v = .error e v' ∨ link.own e ∧ link.moves v v') ∧ link.related s' v'

/-- **Every primitive does what the other source's does.** -/
structure Simulates (link : Link σ τ) (C : SourceConnector σ) (D : SourceConnector τ) : Prop where
  getMaxLsn : Follows link C.getMaxLsn D.getMaxLsn
  getMinLsn : ∀ captureInstance, Follows link (C.getMinLsn captureInstance) (D.getMinLsn captureInstance)
  watermark : Follows link C.watermark D.watermark
  awaitWatermark : ∀ mark, Follows link (C.awaitWatermark mark) (D.awaitWatermark mark)
  inspect : ∀ schema table, Follows link (C.inspect schema table) (D.inspect schema table)
  readEventLog : ∀ spec fromLsn toLsn,
    Follows link (C.readEventLog spec fromLsn toLsn) (D.readEventLog spec fromLsn toLsn)
  toEvents : ∀ rows spec commitTimestamp,
    Follows link (C.toEvents rows spec commitTimestamp) (D.toEvents rows spec commitTimestamp)
  readTable : ∀ spec startPk endPk limit,
    Follows link (C.readTable spec startPk endPk limit) (D.readTable spec startPk endPk limit)
  incrementLsn : ∀ lsn, Follows link (C.incrementLsn lsn) (D.incrementLsn lsn)

variable {link : Link σ τ} {C : SourceConnector σ} {D : SourceConnector τ}

namespace Follows

variable {x : Call σ α} {y : Call τ α} {f : α → Call σ β} {g : α → Call τ β}

theorem pure (a : α) : Follows link (Pure.pure a) (Pure.pure a) where
  moves := Moves.pure link.refl a
  returns hrel h := by
    obtain ⟨rfl, rfl⟩ := pure_ok.mp h
    exact ⟨_, rfl, hrel⟩
  raises _ h := (pure_error.mp h).elim

theorem throw (e : PyError) : Follows link (throw e : Call σ α) (throw e) where
  moves := Moves.throw link.refl e
  returns _ h := (throw_ok.mp h).elim
  raises hrel h := by
    obtain ⟨rfl, rfl⟩ := throw_error.mp h
    exact ⟨_, Or.inl rfl, hrel⟩

theorem ofExcept (x : Except PyError α) : Follows link (ofExcept x : Call σ α) (ofExcept x) := by
  cases x with
  | ok a => exact pure a
  | error e => exact throw e

theorem ite {c : Prop} [Decidable c] {x' : Call σ α} {y' : Call τ α} (hx : Follows link x y)
    (hx' : Follows link x' y') : Follows link (if c then x else x') (if c then y else y') := by
  split_ifs
  · exact hx
  · exact hx'

/-- One call after another, if each does what its other does. -/
theorem bind (hx : Follows link x y) (hf : ∀ a, Follows link (f a) (g a)) :
    Follows link (x >>= f) (y >>= g) where
  moves := Moves.bind (R := link.moves) link.trans hx.moves fun a => (hf a).moves
  returns hrel h := by
    obtain ⟨a, s₁, hxa, hfa⟩ := bind_ok.mp h
    obtain ⟨v₁, hya, hrel₁⟩ := hx.returns hrel hxa
    obtain ⟨v', hga, hrel'⟩ := (hf a).returns hrel₁ hfa
    exact ⟨v', bind_ok.mpr ⟨a, v₁, hya, hga⟩, hrel'⟩
  raises hrel h := by
    rcases bind_error.mp h with h | ⟨a, s₁, hxa, hfa⟩
    · obtain ⟨v', hy, hrel'⟩ := hx.raises hrel h
      exact ⟨v', hy.imp_left fun hy => bind_error.mpr (Or.inl hy), hrel'⟩
    · obtain ⟨v₁, hya, hrel₁⟩ := hx.returns hrel hxa
      obtain ⟨v', hg, hrel'⟩ := (hf a).raises hrel₁ hfa
      refine ⟨v', ?_, hrel'⟩
      rcases hg with hg | ⟨hown, hmoved⟩
      · exact Or.inl (bind_error.mpr (Or.inr ⟨a, v₁, hya, hg⟩))
      -- the far side has returned from the first call before the near side fails in the second
      · exact Or.inr ⟨hown, link.trans (hx.moves.ok hya) hmoved⟩

/-- However the call ends, the other side has moved to a world that belongs to the one it leaves. -/
theorem goes (hx : Follows link x y) {s : σ} {v : τ} (hrel : link.related s v) :
    ∃ v', link.moves v v' ∧ link.related (leaves (x s)) v' := by
  cases h : x s with
  | ok a s' =>
    obtain ⟨v', hy, hrel'⟩ := hx.returns hrel h
    exact ⟨v', hx.moves.ok hy, hrel'⟩
  | error e s' =>
    obtain ⟨v', hy, hrel'⟩ := hx.raises hrel h
    exact ⟨v', hy.elim hx.moves.error And.right, hrel'⟩

/-- With no errors of its own, the call returns what the other does. -/
theorem returns_of (hx : Follows link x y) (hown : ∀ e, ¬ link.own e) {s : σ} {v v' : τ} {a : α}
    (hrel : link.related s v) (hy : y v = .ok a v') : ∃ s', x s = .ok a s' ∧ link.related s' v' := by
  cases h : x s with
  | ok b s' =>
    obtain ⟨v₁, hy₁, hrel'⟩ := hx.returns hrel h
    cases hy₁.symm.trans hy
    exact ⟨s', rfl, hrel'⟩
  | error e s' =>
    obtain ⟨v₁, hy₁ | ⟨howns, -⟩, -⟩ := hx.raises hrel h
    · cases hy₁.symm.trans hy
    · exact absurd howns (hown e)

end Follows

/-- A world beside something else, and the world alone: no error and no move tells them apart. -/
def firstLink : Link (σ × τ) σ where
  own _ := False
  moves _ _ := True
  refl _ := trivial
  trans _ _ := trivial
  related s w := s.1 = w

/-- A call beside something else leaves the world as the call does. -/
theorem leaves_first {x : Call (σ × τ) α} {y : Call σ α} (h : Follows firstLink x y) (w : σ) (v : τ) :
    (leaves (x (w, v))).1 = leaves (y w) := by
  cases hx : x (w, v) with
  | ok a s' =>
    obtain ⟨w', hy, hrel⟩ := h.returns rfl hx
    rw [hy]
    exact hrel
  | error e s' =>
    obtain ⟨w', hy | ⟨hown, -⟩, hrel⟩ := h.raises rfl hx
    · rw [hy]
      exact hrel
    · exact hown.elim

namespace Simulates

variable (h : Simulates link C D)

include h

theorem checkRetention (state : RunState) (captureInstance : String) :
    Follows link (checkRetention C state captureInstance) (checkRetention D state captureInstance) :=
  (h.getMinLsn captureInstance).bind fun _ => (Follows.throw _).ite (.pure _)

theorem seed (now : ℤ) (schema table : String) :
    Follows link (seed C now schema table) (seed D now schema table) :=
  (h.inspect schema table).bind fun _ => (Follows.ofExcept _).bind fun _ => (h.getMinLsn _).bind fun _ =>
    h.getMaxLsn.bind fun _ => .pure _

/-- **A state at a position** is built as the other side builds it. -/
theorem stateAtLsn (now : ℤ) (schema table : String) (fromLsn : LSN) (dumpDone : Bool) :
    Follows link (stateAtLsn C now schema table fromLsn dumpDone)
      (stateAtLsn D now schema table fromLsn dumpDone) :=
  (h.inspect schema table).bind fun _ => (Follows.ofExcept _).bind fun _ =>
    (h.checkRetention _ _).bind fun _ => .pure _

theorem refreshSpec (now : ℤ) (state : RunState) (inspectEvery : Option Timedelta) :
    Follows link (refreshSpec C now state inspectEvery) (refreshSpec D now state inspectEvery) := by
  unfold DBLog.refreshSpec
  cases inspectEvery with
  | none => exact .pure _
  | some every =>
    exact (Follows.pure _).ite ((h.inspect _ _).bind fun _ => (Follows.ofExcept _).bind fun _ =>
      (Follows.ofExcept _).bind fun _ => .pure _)

theorem openRun (now : ℤ) (schema table : String) (state : Option RunState)
    (inspectEvery : Option Timedelta) :
    Follows link (openRun C now schema table state inspectEvery)
      (openRun D now schema table state inspectEvery) := by
  cases state with
  | none => exact h.seed now schema table
  | some state =>
    exact (Follows.ofExcept _).bind fun _ => (h.refreshSpec _ _ _).bind fun _ =>
      (Follows.ofExcept _).bind fun _ => (h.checkRetention _ _).bind fun _ => .pure _

theorem nextChunk (state : RunState) (chunkSize : ℤ) :
    Follows link (nextChunk C state chunkSize) (nextChunk D state chunkSize) :=
  (h.readTable _ _ _ _).bind fun _ => (Follows.pure _).ite ((Follows.ofExcept _).bind fun _ => .pure _)

theorem readWindow (state : RunState) : Follows link (readWindow C state) (readWindow D state) :=
  h.getMaxLsn.bind fun _ => (Follows.pure _).ite
    ((h.readEventLog _ _ _).bind fun _ => (h.incrementLsn _).bind fun _ => .pure _)

theorem mergeChunk (chunk : DataFrame) (window : Option DataFrame) (low : Datetime) (spec : TableSpec) :
    Follows link (mergeChunk C chunk window low spec) (mergeChunk D chunk window low spec) := by
  refine (Follows.ofExcept _).bind fun kept => (h.toEvents _ _ _).bind fun events => ?_
  cases window with
  | none => exact .pure _
  | some window => exact (Follows.pure _).ite (.ofExcept _)

theorem dumpBatch (state : RunState) (chunkSize : ℤ) :
    Follows link (dumpBatch C state chunkSize) (dumpBatch D state chunkSize) := by
  refine h.watermark.bind fun low => (h.nextChunk _ _).bind fun page => h.watermark.bind fun high =>
    (h.awaitWatermark _).bind fun _ => (h.readWindow _).bind fun window => ?_
  cases page.1 with
  | none => exact .pure _
  | some chunk => exact (h.mergeChunk _ _ _ _).bind fun _ => .pure _

/-- **A batch is read as the other side reads it.** -/
theorem dblog (now : ℤ) (schema table : String) (state : Option RunState) (chunkSize : ℤ)
    (inspectEvery : Option Timedelta) :
    Follows link (dblog C now schema table state chunkSize inspectEvery)
      (dblog D now schema table state chunkSize inspectEvery) :=
  (Follows.throw _).ite ((h.openRun _ _ _ _ _).bind fun _ =>
    ((h.readWindow _).bind fun _ => .pure _).ite (h.dumpBatch _ _))

end Simulates

end PyDBLog.Model.Links
