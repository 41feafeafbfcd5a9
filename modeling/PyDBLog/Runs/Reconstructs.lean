import PyDBLog.Runs.Consumer

/-! # A dump run reconstructs the table

The frames of a run opened on nothing, applied in the order they were written to an empty map, give
the table at the position of the last batch under every key the walk has passed: through raises and
retries, and through falls back to any state the run has returned (`dump_reconstructs`). -/

namespace PyDBLog.Runs.Reconstructs

open PyDBLog.Model.Python PyDBLog.Model.Frame PyDBLog.Model.Types PyDBLog.Model.Connector
open PyDBLog.Model.DBLog PyDBLog.Model.Returns PyDBLog.Model.Worlds
open PyDBLog.Replay.Basic PyDBLog.Replay.Cut PyDBLog.Replay.Dump
open PyDBLog.World.Log PyDBLog.World.Log.Source PyDBLog.World.Promises
open PyDBLog.Runs.Calls PyDBLog.Runs.Page PyDBLog.Runs.Consumer

variable {σ : Type} {d : Driver σ} {view : σ → Source} {init : Table ℤ Image}

/-- The map after the frames, from an empty one. -/
def applyFrames (t : Target) (m : Table ℤ Image) (frames : List DataFrame) : Table ℤ Image :=
  frames.foldl (fun m df => applyFrame t m (some df)) m

theorem applyFrames_append_toList (t : Target) (m : Table ℤ Image) (frames : List DataFrame)
    (frame : Option DataFrame) :
    applyFrames t m (frames ++ frame.toList) = applyFrame t (applyFrames t m frames) frame := by
  cases frame <;> simp [applyFrames, applyFrame]

/-- A consumer that has seen nothing. -/
def emptyMap : Table ℤ Image := fun _ => none

/-- The states of a run that opened at `L` over an empty map. -/
def heldFrom (L : LSN) (known : List RunState) : List (Origin LSN ℤ Image × RunState) :=
  known.map fun st => (⟨L, emptyMap⟩, st)

theorem mem_heldFrom {L : LSN} {known : List RunState} {st : RunState} (h : st ∈ known) :
    (⟨L, emptyMap⟩, st) ∈ heldFrom L known := List.mem_map_of_mem h

/-- Every state the run has returned is tracked, and the map is right for the last one. -/
theorem Run.ledger (hC : Laws d.connector view init d.target)
    (hmoves : ∀ w w', d.moves w w' → Later (view w) (view w'))
    (hresumes : ∀ known st, d.resumes known st → fallsBack known st) {L : LSN} {w : σ}
    {known : List RunState} {frames : List DataFrame} (run : Run d (Seeded d) L w known frames) :
    ∃ top st, Ledger view init d.target w (applyFrames d.target emptyMap frames)
        (heldFrom L known) top ∧ known.head? = some st ∧
      Holds view init d.target w (applyFrames d.target emptyMap frames) ⟨L, emptyMap⟩ st := by
  induction run with
  | begins h =>
    obtain ⟨req, w, opened, w₁, rows, high, window, b, fresh, -, hc, -, hd, hr, rfl, rfl, rfl⟩ := h.reads
    rw [Driver.Reads, fresh] at hr
    obtain ⟨top, hl, hh⟩ := (Ledger.empty w).seeds hC hd hc hr
    rw [← List.nil_append b.frame.toList, applyFrames_append_toList]
    exact ⟨top, b.state, hl, rfl, hh⟩
  | idles run moved ih =>
    obtain ⟨top, st, hl, hk, hh⟩ := ih
    exact ⟨top, st, hl.later (hmoves _ _ moved), hk, hh.later (hmoves _ _ moved)⟩
  | raises run resumed given raised ih =>
    obtain ⟨top, st, hl, hk, hh⟩ := ih
    have hm := Driver.raised_moves hC.later raised
    exact ⟨top, st, hl.later hm, hk, hh.later hm⟩
  | returns run resumed given admitted returned ih =>
    obtain ⟨top, -, hl, -, -⟩ := ih
    have hmem := mem_heldFrom (L := L) (hresumes _ _ resumed)
    obtain ⟨top', hl', hh⟩ := hl.continues hC hmem given returned
    rw [applyFrames_append_toList]
    exact ⟨top', _, hl', rfl, hh⟩

/-- **Reconstruction**: after every returned batch of a dump run the map agrees with the table after
the changes below `last_lsn`, on every key below `chunk_key`, and on every key once the dump is
done. -/
theorem dump_reconstructs (hC : Laws d.connector view init d.target)
    (hmoves : ∀ w w', d.moves w w' → Later (view w) (view w'))
    (hresumes : ∀ known st, d.resumes known st → fallsBack known st) {L : LSN} {w : σ}
    {known : List RunState} {frames : List DataFrame} (run : Run d (Seeded d) L w known frames) :
    ∃ st, known.head? = some st ∧ ∀ k,
      st.dumpDone = true ∨ (∃ c, st.chunkKey = some c ∧ k < c) →
        applyFrames d.target emptyMap frames k =
          tableAt init ((view w).entries d.target) st.lastLsn k := by
  obtain ⟨top, st, -, hk, hh⟩ := Run.ledger hC hmoves hresumes run
  refine ⟨st, hk, fun k hcov => ?_⟩
  rcases hh (view w) ⟨Later.refl _, hC.int_keys w⟩ k hcov with h | ⟨-, hheld, hnone⟩
  · exact h
  · rw [hheld, hnone]
    rfl

open PyDBLog.World.InMemory in
/-- The items after the bolt is sold. -/
theorem dump_reconstructs_sold : ∃ st, [walkedTo 9, walkedTo 5].head? = some st ∧ ∀ k,
    st.dumpDone = true ∨ (∃ c, st.chunkKey = some c ∧ k < c) →
      applyFrames items emptyMap [stockDumps, saleDeletes] k =
        tableAt emptyMap (sold.source.entries items) st.lastLsn k :=
  dump_reconstructs (d := itemsDriver fallsBack) (Memory.laws ⟨"id", rfl⟩) (fun _ _ h => h)
    (fun _ _ h => h)
    (sold_run fallsBack (Seeded (itemsDriver fallsBack)) (stock_seeded fallsBack) List.mem_cons_self)

end PyDBLog.Runs.Reconstructs
