import PyDBLog.Replay.Basic
import Mathlib.Order.Defs.LinearOrder

/-! # Replaying in the order of positions

Items that carry a position and a write, replayed in the order of the positions, ties in any order.
Under a key the items at or above any item of the key decide (`replay_of_top`), so the image there
does not depend on what lies below, nor on how often an item is repeated. -/

namespace PyDBLog.Replay.Sorted

open PyDBLog.Replay.Basic

universe u v w x

variable {P : Type w} {K : Type u} {V : Type v} {α : Type x} [LinearOrder P] [DecidableEq K]

/-- If the items of a key from `a` on carry one image, the replay leaves it. -/
theorem replay_of_top {pos : α → P} {write : α → Write K V} {k : K} {v : Option V} :
    ∀ {xs : List α} {a : α} (m : Table K V), (xs.Pairwise fun a b => pos a ≤ pos b) → a ∈ xs →
      (write a).key = k → (∀ b ∈ xs, (write b).key = k → pos a ≤ pos b → (write b).image = v) →
      replay m (xs.map write) k = v
  | [], _, _, _, ha, _, _ => absurd ha List.not_mem_nil
  | x :: xs, a, m, hsorted, ha, hk, hv => by
    obtain ⟨hx, hs⟩ := List.pairwise_cons.mp hsorted
    have htail : ∀ b ∈ xs, (write b).key = k → pos a ≤ pos b → (write b).image = v :=
      fun b hb => hv b (List.mem_cons_of_mem x hb)
    rw [List.map_cons, replay_cons]
    rcases List.mem_cons.mp ha with rfl | ha
    · by_cases hno : Untouched k (xs.map write)
      · rw [replay_of_untouched _ hno, ← hk, put_same]
        exact hv a List.mem_cons_self hk le_rfl
      · obtain ⟨e, he, hek⟩ := not_untouched.mp hno
        obtain ⟨b, hb, rfl⟩ := List.mem_map.mp he
        refine replay_of_top _ hs hb hek fun c hc hck hbc => ?_
        exact htail c hc hck ((hx b hb).trans hbc)
    · exact replay_of_top _ hs ha hk htail

end PyDBLog.Replay.Sorted
