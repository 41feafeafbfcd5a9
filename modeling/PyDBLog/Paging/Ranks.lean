import Mathlib.Algebra.BigOperators.Group.Finset.Basic
import Mathlib.Data.List.Dedup
import Mathlib.Tactic

/-! # Pages of a sorted list that are cut by length and continued by key

A list of sorted keys is read in pages of given lengths, each opening past the last key of the one
before it. A key that repeats is seen twice by a page unless a page ends on its first occurrence,
and pages that see no key twice end on the ranks the lengths add up to. So a repeated key is
`Caught` when its rank is no such sum (`caught_of_page`, `caught_next`). -/

namespace PyDBLog.Paging.Ranks

variable {β : Type*} [LinearOrder β] {ks : List β} {v last : β} {sizes : ℕ → ℤ} {n : ℕ}

/-- The number of different keys up to `v`. -/
def rank (ks : List β) (v : β) : ℕ := (ks.toFinset.filter (· ≤ v)).card

/-- Some key repeats whose rank is not a sum of the first page lengths. -/
def Caught (sizes : ℕ → ℤ) (ks : List β) : Prop :=
  ∃ v, 1 < ks.count v ∧ ∀ n, ∑ j ∈ Finset.range n, sizes j ≠ rank ks v

theorem not_caught_of_nodup (h : ks.Nodup) : ¬ Caught sizes ks := by
  rintro ⟨v, hv, -⟩
  exact absurd (List.nodup_iff_count_le_one.mp h v) (not_le.mpr hv)

/-- The order of the list does not matter. -/
theorem caught_perm {ks' : List β} (h : ks.Perm ks') : Caught sizes ks ↔ Caught sizes ks' := by
  simp only [Caught, rank, h.count_eq, List.toFinset_eq_of_perm _ _ h]

theorem card_toFinset_lt (h : ¬ ks.Nodup) : ks.toFinset.card < ks.length := by
  rw [List.card_toFinset]
  refine lt_of_le_of_ne (List.dedup_sublist ks).length_le fun heq => h ?_
  rw [← List.dedup_eq_self]
  exact (List.dedup_sublist ks).eq_of_length heq

theorem rank_pos (h : v ∈ ks) : 0 < rank ks v :=
  Finset.card_pos.mpr ⟨v, by simpa using h⟩

section page

variable (hs : ks.Pairwise (· ≤ ·))

include hs

/-- A key of the page is not below any key after the page. -/
theorem le_of_mem_drop {a b : β} (ha : a ∈ ks.take n) (hb : b ∈ ks.drop n) : a ≤ b := by
  rw [← List.take_append_drop n ks, List.pairwise_append] at hs
  exact hs.2.2 a ha b hb

/-- The keys up to a key of the page are in the page. -/
theorem toFinset_filter_le (hv : v ∈ ks.take n) :
    ks.toFinset.filter (· ≤ v) = (ks.take n).toFinset.filter (· ≤ v) := by
  ext a
  simp only [Finset.mem_filter, List.mem_toFinset]
  refine and_congr_left fun hav => ⟨fun ha => ?_, List.mem_of_mem_take⟩
  rw [← List.take_append_drop n ks, List.mem_append] at ha
  rcases ha with ha | ha
  · exact ha
  · rwa [le_antisymm hav (le_of_mem_drop hs hv ha)]

/-- **A page that sees a key twice** has caught it. -/
theorem caught_of_page (hsizes : ∀ i, 1 ≤ sizes i) (hn : sizes 0 = n) (h : ¬ (ks.take n).Nodup) :
    Caught sizes ks := by
  rw [List.nodup_iff_count_le_one, not_forall] at h
  obtain ⟨v, hv⟩ := h
  rw [not_le] at hv
  have hmem : v ∈ ks.take n := List.count_pos_iff.mp (by omega)
  refine ⟨v, hv.trans_le ((List.take_sublist n ks).count_le v), fun m hsum => ?_⟩
  have hlt : rank ks v < n := by
    have hnot : ¬ (ks.take n).Nodup := fun hnd =>
      absurd (List.nodup_iff_count_le_one.mp hnd v) (not_le.mpr hv)
    rw [rank, toFinset_filter_le hs hmem]
    calc ((ks.take n).toFinset.filter (· ≤ v)).card ≤ (ks.take n).toFinset.card :=
          Finset.card_filter_le _ _
      _ < (ks.take n).length := card_toFinset_lt hnot
      _ ≤ n := List.length_take_le _ _
  have hpos := rank_pos (List.mem_of_mem_take hmem)
  cases m with
  | zero => simp at hsum; omega
  | succ m =>
    rw [Finset.sum_range_succ', hn] at hsum
    have : 0 ≤ ∑ j ∈ Finset.range m, sizes (j + 1) :=
      Finset.sum_nonneg fun j _ => by have := hsizes (j + 1); omega
    omega

/-- The page lengths add up to the rank of the last key of a page that sees no key twice. -/
theorem rank_last (hnodup : (ks.take n).Nodup) (hlast : last ∈ ks.take n)
    (hmax : ∀ a ∈ ks.take n, a ≤ last) : rank ks last = (ks.take n).length := by
  rw [rank, toFinset_filter_le hs hlast, Finset.filter_true_of_mem, List.toFinset_card_of_nodup hnodup]
  exact fun a ha => hmax a (List.mem_toFinset.mp ha)

/-- Past the page the ranks begin anew. -/
theorem rank_past (hnodup : (ks.take n).Nodup) (hlast : last ∈ ks.take n)
    (hmax : ∀ a ∈ ks.take n, a ≤ last) (hv : last < v) :
    rank ks v = (ks.take n).length + rank (ks.filter (last < ·)) v := by
  rw [← rank_last hs hnodup hlast hmax, rank, rank, rank, ← Finset.card_union_of_disjoint]
  · congr 1
    ext a
    simp only [Finset.mem_filter, List.mem_toFinset, Finset.mem_union, List.mem_filter, decide_eq_true_eq]
    constructor
    · rintro ⟨ha, hav⟩
      rcases le_or_gt a last with h | h
      · exact Or.inl ⟨ha, h⟩
      · exact Or.inr ⟨⟨ha, h⟩, hav⟩
    · rintro (⟨ha, h⟩ | ⟨⟨ha, -⟩, hav⟩)
      · exact ⟨ha, h.trans hv.le⟩
      · exact ⟨ha, hav⟩
  · rw [Finset.disjoint_left]
    simp only [Finset.mem_filter, List.mem_toFinset, List.mem_filter, decide_eq_true_eq]
    rintro a ⟨-, h⟩ ⟨⟨-, h'⟩, -⟩
    exact absurd h (not_le.mpr h')

/-- **A page that sees no key twice** leaves what is caught to the pages after it. -/
theorem caught_next (hn : sizes 0 = (ks.take n).length) (hnodup : (ks.take n).Nodup)
    (hlast : last ∈ ks.take n) (hmax : ∀ a ∈ ks.take n, a ≤ last) :
    Caught sizes ks ↔ Caught (fun i => sizes (i + 1)) (ks.filter (last < ·)) := by
  have hsum : ∀ m, ∑ j ∈ Finset.range (m + 1), sizes j =
      (ks.take n).length + ∑ j ∈ Finset.range m, sizes (j + 1) := fun m => by
    rw [Finset.sum_range_succ', hn, add_comm]
  constructor
  · rintro ⟨v, hv, hne⟩
    rcases lt_trichotomy v last with hlt | rfl | hgt
    · -- all of its occurrences are in the page
      have hdrop : (ks.drop n).count v = 0 := List.count_eq_zero.mpr fun hmem =>
        absurd (le_of_mem_drop hs hlast hmem) (not_le.mpr hlt)
      rw [← List.take_append_drop n ks, List.count_append, hdrop] at hv
      have := List.nodup_iff_count_le_one.mp hnodup v
      omega
    · -- the page ends on its rank
      refine absurd ?_ (hne 1)
      rw [hsum, rank_last hs hnodup hlast hmax]
      simp
    · refine ⟨v, by rwa [List.count_filter (by simpa using hgt)], fun m heq => hne (m + 1) ?_⟩
      rw [hsum, rank_past hs hnodup hlast hmax hgt, heq]
      push_cast
      rfl
  · rintro ⟨v, hv, hne⟩
    have hmem : v ∈ ks.filter (last < ·) := List.count_pos_iff.mp (by omega)
    have hgt : last < v := by simpa using (List.mem_filter.mp hmem).2
    rw [List.count_filter (by simpa using hgt)] at hv
    refine ⟨v, hv, fun m heq => ?_⟩
    rw [rank_past hs hnodup hlast hmax hgt] at heq
    cases m with
    | zero =>
      have := rank_pos hmem
      simp at heq
      omega
    | succ m =>
      refine hne m ?_
      rw [hsum] at heq
      push_cast at heq
      linarith

end page

end PyDBLog.Paging.Ranks
