import PyDBLog.Runs.Calls

/-! # What one call reads off the table

The keys a state has walked past (`covers`), and how a page moves them: the cursor goes one past the
last row, a short page ends the walk, and the keys gained are those the page covers
(`PageRead.walks`). -/

namespace PyDBLog.Runs.Page

open PyDBLog.Model.Python PyDBLog.Model.Frame PyDBLog.Model.Types PyDBLog.Model.Connector
open PyDBLog.Model.DBLog PyDBLog.Model.Returns
open PyDBLog.World.Log PyDBLog.World.Promises

/-- The keys a state has walked past. -/
def covers (state : RunState) : Set ℤ :=
  {k | state.dumpDone = true ∨ ∃ c, state.chunkKey = some c ∧ k < c}

/-- The leading key of a row. -/
def rowKey (leading : String) (df : DataFrame) (row : Row) : ℤ := keyOf (cellOf df.columns row leading)

/-- The keys a page covers: from its start to its last row, or on to the end if it is short. -/
def PageCovers (leading : String) (start : Option ℤ) (limit : ℤ) (df : DataFrame) (k : ℤ) : Prop :=
  (∀ a ∈ start, a ≤ k) ∧ ((df.rows.length : ℤ) < limit ∨ ∃ row ∈ df.rows, k ≤ rowKey leading df row)

variable {σ : Type} {C : SourceConnector σ} {leading : String} {start : Option ℤ} {limit : ℤ}
  {df : DataFrame}

/-- The next page opens one past the last row's key. -/
theorem keyAfter_last {spec : TableSpec} {key : ℤ} (hl : spec.pkColumns.headD "" = leading)
    (hne : df.rows ≠ []) (h : keyAfter df spec = .ok key) :
    rowKey leading df (df.rows.getLast hne) = key - 1 := by
  obtain ⟨leading', rest, hpk, -, -, hlast⟩ := keyAfter_ok h
  obtain rfl : leading' = leading := by simpa [hpk] using hl
  rw [List.getLast?_map, List.getLast?_eq_some_getLast hne] at hlast
  have : cellOf df.columns (df.rows.getLast hne) leading' = .int (key - 1) := by simpa using hlast
  rw [rowKey, this]
  rfl

/-- The last row's key is the greatest. -/
theorem KeyPage.next (hp : KeyPage leading start limit df) {spec : TableSpec} {key : ℤ}
    (hl : spec.pkColumns.headD "" = leading) (hne : df.rows ≠ []) (h : keyAfter df spec = .ok key) :
    (∃ row ∈ df.rows, rowKey leading df row = key - 1) ∧
      ∀ row ∈ df.rows, rowKey leading df row ≤ key - 1 := by
  have hkey := keyAfter_last hl hne h
  refine ⟨⟨_, List.getLast_mem hne, hkey⟩, fun row hrow => ?_⟩
  rw [← hkey]
  exact (hp.increasing.imp le_of_lt).rel_getLast_of_rel_getLast_getLast hrow le_rfl

/-- A page moves the walk forward over the keys it covers, and over no others. -/
theorem PageRead.walks {state state' : RunState} {w w' : σ} {chunk : Option DataFrame}
    (hpage : KeyPage leading state.chunkKey limit df) (hlimit : 1 ≤ limit)
    (hl : state.spec.pkColumns.headD "" = leading) (walking : state.dumpDone = false)
    (h : PageRead C limit state w df chunk state' w') (k : ℤ) :
    k ∈ covers state' ↔ k ∈ covers state ∨ PageCovers leading state.chunkKey limit df k := by
  have hstart : (∀ a ∈ state.chunkKey, a ≤ k) ↔ k ∉ covers state := by
    cases hck : state.chunkKey <;> simp [Page.covers, walking, hck]
  by_cases hcov : k ∈ covers state
  · refine ⟨fun _ => Or.inl hcov, fun _ => ?_⟩
    obtain hd | ⟨c, hck, hlt⟩ := hcov
    · rw [walking] at hd; cases hd
    cases h with
    | empty ha hnil => exact Or.inl (by simp; omega)
    | rows ha hne hkey =>
      rename_i key
      obtain ⟨⟨row, hrow, hkr⟩, -⟩ := KeyPage.next hpage hl hne hkey
      have hge := hpage.from_start row hrow c hck
      have hkey : c ≤ key - 1 := by rw [← hkr]; exact hge
      exact Or.inr ⟨key, rfl, by omega⟩
  · simp only [hcov, false_or, PageCovers, hstart, not_false_iff, true_and]
    cases h with
    | empty ha hnil =>
      simp only [hnil, List.length_nil, Page.covers, Set.mem_ofPred_eq]
      constructor
      · intro _; exact Or.inl (by omega)
      · intro _; exact Or.inl (by simp; omega)
    | rows ha hne hkey =>
      rename_i key
      obtain ⟨⟨row, hrow, hkr⟩, hall⟩ := KeyPage.next hpage hl hne hkey
      constructor
      · rintro (hd | ⟨c, hck, hlt⟩)
        · exact Or.inl (of_decide_eq_true hd)
        · obtain rfl := Option.some.inj hck
          exact Or.inr ⟨row, hrow, by omega⟩
      · rintro (hshort | ⟨row', hrow', hle⟩)
        · exact Or.inl (decide_eq_true hshort)
        · exact Or.inr ⟨key, rfl, by have := hall row' hrow'; omega⟩

end PyDBLog.Runs.Page
