import PyDBLog.Mssql.Connector

/-! # Positions as numbers

An LSN is compared as bytes and advanced as a number. At the width of an LSN the two orders are one
(`lt_iff_value_lt`), and `increment_lsn` is the successor in it (`incrementLsn_successor`). -/

namespace PyDBLog.Mssql.Lsn

open PyDBLog.Model.Python PyDBLog.Model.Types PyDBLog.Mssql.Connector
open PyDBLog.Bytes

/-- The number a position is, `int.from_bytes(lsn, "big")`. -/
def number (lsn : LSN) : ℕ := BigEndian.value lsn

/-- Positions of one width are ordered as their numbers. -/
theorem lt_iff_number_lt {a b : LSN} (h : a.length = b.length) : a < b ↔ number a < number b :=
  BigEndian.lt_iff_value_lt h

/-- What an increment that raises was given. -/
theorem incrementLsn_error {lsn : LSN} {e : PyError} (h : MSSQLConnector.incrementLsn lsn = .error e) :
    (∃ message, e = .valueError message) ∧
      (lsn.length ≠ lsnWidth ∨ lsn = List.replicate lsnWidth 255) := by
  unfold MSSQLConnector.incrementLsn at h
  split_ifs at h with hw
  · obtain rfl := Except.error.inj h
    exact ⟨⟨_, rfl⟩, Or.inl hw⟩
  · cases hs : BigEndian.succ lsnWidth lsn with
    | some next => rw [hs] at h; cases h
    | none =>
      rw [hs] at h
      obtain rfl := Except.error.inj h
      rw [not_not] at hw
      refine ⟨⟨_, rfl⟩, Or.inr (List.eq_replicate_iff.mpr ⟨hw, fun x hx => ?_⟩)⟩
      have := (BigEndian.succ_eq_none hw).mp hs x hx
      exact Fin.ext (by simpa using this)

/-- **The successor of a position**: `increment_lsn` refuses what is not ten bytes long and the
greatest position, with a `ValueError`, and otherwise answers the next position in byte order; byte
order is the order of the numbers. -/
theorem incrementLsn_successor (x : LSN) :
    ((∃ message, MSSQLConnector.incrementLsn x = .error (.valueError message)) ↔
      x.length ≠ lsnWidth ∨ x = List.replicate lsnWidth 255) ∧
    (¬ (x.length ≠ lsnWidth ∨ x = List.replicate lsnWidth 255) →
      ∃ y, MSSQLConnector.incrementLsn x = .ok y ∧ y.length = lsnWidth ∧ number y = number x + 1 ∧
        x < y ∧ (∀ z : LSN, z.length = lsnWidth → ¬ (x < z ∧ z < y)) ∧
        ∀ z : LSN, z.length = lsnWidth → z ≤ x ∨ y ≤ z) ∧
    ∀ a b : LSN, a.length = lsnWidth → b.length = lsnWidth → (a < b ↔ number a < number b) := by
  refine ⟨⟨fun ⟨message, h⟩ => (incrementLsn_error h).2, fun h => ?_⟩, fun hx => ?_, fun a b ha hb =>
    lt_iff_number_lt (ha.trans hb.symm)⟩
  · cases hi : MSSQLConnector.incrementLsn x with
    | error e =>
      obtain ⟨⟨message, rfl⟩, -⟩ := incrementLsn_error hi
      exact ⟨message, rfl⟩
    | ok y =>
      obtain ⟨hw, hs⟩ := MSSQLConnector.incrementLsn_ok.mp hi
      rcases h with h | rfl
      · exact absurd hw h
      · exfalso
        have hnone : BigEndian.succ lsnWidth (List.replicate lsnWidth (255 : Byte)) = none :=
          (BigEndian.succ_eq_none hw).mpr fun b hb => by rw [List.eq_of_mem_replicate hb]; rfl
        rw [hnone] at hs
        cases hs
  · cases hi : MSSQLConnector.incrementLsn x with
    | error e => exact absurd (incrementLsn_error hi).2 hx
    | ok y =>
      obtain ⟨hw, hs⟩ := MSSQLConnector.incrementLsn_ok.mp hi
      obtain ⟨hy, hv⟩ := BigEndian.succ_eq_some hs
      refine ⟨y, rfl, hy, hv, BigEndian.lt_succ hw hs, fun z hz ⟨hxz, hzy⟩ => ?_, fun z hz => ?_⟩
      · exact absurd hzy (not_lt.mpr (BigEndian.succ_le_of_lt hw hz hs hxz))
      · exact (le_or_gt z x).imp id fun hlt => BigEndian.succ_le_of_lt hw hz hs hlt

end PyDBLog.Mssql.Lsn
