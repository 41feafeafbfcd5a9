import PyDBLog.Replay.Cut
import Mathlib.Data.Set.Basic

/-! # Dumping a table beside its log

What an interleaved dump is for. A cursor is a log position and the keys the walk has passed. One
batch (`Batch`) moves a cursor: it delivers the window of the log between the two positions, then
rows read off the table that carry the image of their key at the closing position, and a key it
passes without delivering anything is absent there. A consumer replays what it is handed over the
map it holds.

`Tracks` ties the map to one cursor the consumer may come back to, relative to the furthest position
delivered so far (`top`): a key whose entries from the cursor's position on are all still to be
replayed is not constrained, any other key has its image at `top`, or has kept what the map held
under it when the run opened and has no entry since. Every batch preserves it, for the cursor it
continues (`Tracks.batch`) and for every other one (`Tracks.other`), whatever order the cursors are
used in. -/

namespace PyDBLog.Replay.Dump

open PyDBLog.Replay.Basic PyDBLog.Replay.Cut

universe u v w

variable {P : Type w} {K : Type u} {V : Type v}

/-- Where a run got to: a log position, and the keys its walk has passed. -/
structure Cursor (P : Type w) (K : Type u) where
  pos : P
  covers : Set K

/-- Where a run opened, and what the consumer's map held at that moment. -/
structure Origin (P : Type w) (K : Type u) (V : Type v) where
  pos : P
  held : Table K V

variable [LinearOrder P] [DecidableEq K]

/-- One batch from the cursor `c` to the cursor `c'` that hands over `rows` after its window. -/
structure Batch (init : Table K V) (log : List (Entry P K V)) (c : Cursor P K)
    (rows : List (Write K V)) (c' : Cursor P K) : Prop where
  pos_le : c.pos ≤ c'.pos
  current : ∀ e ∈ rows, e.image = tableAt init log c'.pos e.key
  keeps : c.covers ⊆ c'.covers
  reached : ∀ k ∈ c'.covers, k ∈ c.covers ∨ ¬ Quiet log k c.pos c'.pos ∨ ¬ Untouched k rows ∨
    tableAt init log c'.pos k = none

/-- What the batch delivers: the window, then the rows. -/
def delivered (log : List (Entry P K V)) (c : Cursor P K) (rows : List (Write K V))
    (c' : Cursor P K) : List (Write K V) :=
  writes (between log c.pos c'.pos) ++ rows

/-- The map is right for the cursor `c` of a run that opened at `o`, up to what a batch continuing
from `c` replays. -/
structure Tracks (init : Table K V) (log : List (Entry P K V)) (m : Table K V) (top : P)
    (o : Origin P K V) (c : Cursor P K) : Prop where
  opened : o.pos ≤ c.pos
  behind : c.pos ≤ top
  agrees : ∀ k, Quiet log k c.pos top → m k = tableAt init log top k ∨
    Quiet log k o.pos top ∧ m k = o.held k ∧ (k ∈ c.covers → tableAt init log top k = none)

variable {init m : Table K V} {log : List (Entry P K V)} {top : P} {o o₂ : Origin P K V}
  {c c' c₂ : Cursor P K} {rows : List (Write K V)} {k : K}

/-- A run that opens has delivered nothing yet. -/
theorem Tracks.opening (hc : c.pos = o.pos) (htop : o.pos ≤ top) (hheld : m = o.held)
    (hcov : c.covers = ∅) : Tracks init log m top o c where
  opened := hc.ge
  behind := hc.le.trans htop
  agrees k hk := by
    subst hheld
    exact Or.inr ⟨hc ▸ hk, rfl, fun h => by rw [hcov] at h; exact absurd h (Set.notMem_empty k)⟩

/-- Under each key a batch leaves the image at its close, or changes nothing. -/
theorem Batch.replay_key (hb : Batch init log c rows c') (hlog : Ordered log) (m : Table K V) (k : K) :
    replay m (delivered log c rows c') k = tableAt init log c'.pos k ∨
      Quiet log k c.pos c'.pos ∧ Untouched k rows ∧ replay m (delivered log c rows c') k = m k := by
  rw [delivered, replay_append]
  by_cases hr : Untouched k rows
  · rw [replay_of_untouched _ hr]
    by_cases hq : Quiet log k c.pos c'.pos
    · exact Or.inr ⟨hq, hr, replay_of_untouched _ (quiet_iff_untouched.mp hq)⟩
    · exact Or.inl (replay_window hb.pos_le hlog hq m)
  · exact Or.inl (replay_of_constant _ (fun e he hek => by rw [hb.current e he, hek]) hr)

/-- Between two positions without an entry above the first and below the second the table stands
still. -/
theorem tableAt_still {p q : P} (hlog : Ordered log)
    (h : ∀ a ∈ log, p ≤ a.pos → q ≤ a.pos) : tableAt init log (max q p) = tableAt init log p := by
  funext k
  refine tableAt_quiet (le_max_right q p) hlog fun a ha hp hlt => ?_
  exact absurd (max_le (h a ha hp) hp) (not_le.mpr hlt)

/-- **The batch preserves the invariant** for the run it continues. -/
theorem Tracks.batch (ht : Tracks init log m top o c) (hb : Batch init log c rows c')
    (hlog : Ordered log) (hstill : ∀ a ∈ log, c'.pos ≤ a.pos → top ≤ a.pos) :
    Tracks init log (replay m (delivered log c rows c')) (max top c'.pos) o c' where
  opened := ht.opened.trans hb.pos_le
  behind := le_max_right _ _
  agrees k hk := by
    rw [tableAt_still hlog hstill]
    rcases hb.replay_key hlog m k with h | ⟨hq, hr, h⟩
    · exact Or.inl h
    have hqtop : Quiet log k c.pos (max top c'.pos) := hq.trans hk
    have hsame : tableAt init log top k = tableAt init log c'.pos k := by
      rw [← tableAt_still hlog hstill]
      exact (tableAt_quiet (le_max_left _ _) hlog (hqtop.mono ht.behind le_rfl)).symm
    rcases ht.agrees k (hqtop.mono le_rfl (le_max_left _ _)) with h' | ⟨hqo, hheld, hcov⟩
    · exact Or.inl (by rw [h, h', hsame])
    refine Or.inr ⟨hqo.trans (hqtop.mono ht.behind le_rfl), by rw [h, hheld], fun hc' => ?_⟩
    rcases hb.reached k hc' with hc | hnq | hnr | hnone
    · rw [← hsame, hcov hc]
    · exact absurd hq hnq
    · exact absurd hr hnr
    · exact hnone

/-- The batch of one run preserves the invariant of every other cursor. -/
theorem Tracks.other (ht : Tracks init log m top o₂ c₂) (hb : Batch init log c rows c')
    (hlog : Ordered log) (hstill : ∀ a ∈ log, c'.pos ≤ a.pos → top ≤ a.pos) :
    Tracks init log (replay m (delivered log c rows c')) (max top c'.pos) o₂ c₂ where
  opened := ht.opened
  behind := ht.behind.trans (le_max_left _ _)
  agrees k hk := by
    rw [tableAt_still hlog hstill]
    rcases hb.replay_key hlog m k with h | ⟨-, -, h⟩
    · exact Or.inl h
    have hsame : tableAt init log top k = tableAt init log c'.pos k := by
      rw [← tableAt_still hlog hstill]
      exact (tableAt_quiet (le_max_left _ _) hlog (hk.mono ht.behind le_rfl)).symm
    rcases ht.agrees k (hk.mono le_rfl (le_max_left _ _)) with h' | ⟨hqo, hheld, hcov⟩
    · exact Or.inl (by rw [h, h', hsame])
    · exact Or.inr ⟨hqo.trans (hk.mono ht.behind le_rfl), by rw [h, hheld],
        fun hc => by rw [← hsame, hcov hc]⟩

/-- Raising the furthest position past nothing but still log keeps the invariant. -/
theorem Tracks.raise (ht : Tracks init log m top o c) (hlog : Ordered log) {top' : P}
    (htop : top ≤ top') : Tracks init log m top' o c where
  opened := ht.opened
  behind := ht.behind.trans htop
  agrees k hk := by
    have hsame : tableAt init log top' k = tableAt init log top k :=
      tableAt_quiet htop hlog (hk.mono ht.behind le_rfl)
    rcases ht.agrees k (hk.mono le_rfl htop) with h | ⟨hqo, hheld, hcov⟩
    · exact Or.inl (by rw [h, hsame])
    · exact Or.inr ⟨hqo.trans (hk.mono ht.behind le_rfl), hheld, fun hc => by rw [hsame, hcov hc]⟩

/-- What the invariant says of the cursor a batch has just returned. -/
theorem Tracks.reads (ht : Tracks init log m (max top c'.pos) o c') (hlog : Ordered log)
    (hstill : ∀ a ∈ log, c'.pos ≤ a.pos → top ≤ a.pos) (hk : k ∈ c'.covers) :
    m k = tableAt init log c'.pos k ∨
      Quiet log k o.pos c'.pos ∧ m k = o.held k ∧ tableAt init log c'.pos k = none := by
  have hquiet : Quiet log k c'.pos (max top c'.pos) := fun a ha hp hlt =>
    absurd (max_le (hstill a ha hp) hp) (not_le.mpr hlt)
  rw [← tableAt_still hlog hstill]
  rcases ht.agrees k hquiet with h | ⟨hqo, hheld, hcov⟩
  · exact Or.inl h
  · exact Or.inr ⟨hqo.mono le_rfl (le_max_right _ _), hheld, hcov hk⟩

/-- **Reconstruction**: over a map that was empty when the run opened, the passed keys hold the
table at the cursor's position. -/
theorem Tracks.reconstructs (ht : Tracks init log m (max top c'.pos) o c') (hlog : Ordered log)
    (hstill : ∀ a ∈ log, c'.pos ≤ a.pos → top ≤ a.pos) (hempty : ∀ k, o.held k = none)
    (hk : k ∈ c'.covers) : m k = tableAt init log c'.pos k := by
  rcases ht.reads hlog hstill hk with h | ⟨-, hheld, hnone⟩
  · exact h
  · rw [hheld, hempty, hnone]

end PyDBLog.Replay.Dump
