import PyDBLog.Runs.Page
import PyDBLog.Paging.Ranks

/-! # Walking a table that stands still

`_next_chunk` repeated from no chunk key, over a table whose key may have several columns. A page is
cut by its number of rows, the next one opens past the leading key of its last row, and `_key_after`
refuses a page that holds a leading key twice. What it cannot see is a run of equal leading keys
whose first row is the last of a page: the rows after it are passed over. `walk_is_whole_iff` says
exactly when a walk that does not raise has read the whole table. -/

namespace PyDBLog.Runs.Walk

open PyDBLog.Model.Python PyDBLog.Model.Frame PyDBLog.Model.Types PyDBLog.Model.Connector
open PyDBLog.Model.DBLog PyDBLog.Model.Returns
open PyDBLog.World.Log PyDBLog.Paging.Ranks

variable {σ κ : Type} [LinearOrder κ]

/-! ### The table -/

/-- A table: its rows, in no order, and its key, an integer column and others that are compared by
`order`. -/
structure Fixed (κ : Type) [LinearOrder κ] where
  schema : List (String × DType)
  rows : List Row
  leading : String
  others : List String
  order : List Cell → κ
  leading_mem : leading ∈ schema.map Prod.fst
  int_leading : ∀ row ∈ rows, ∃ k, cellOf (schema.map Prod.fst) row leading = .int k

namespace Fixed

variable (T : Fixed κ)

/-- The leading key of a row. -/
def lead (row : Row) : ℤ := keyOf (cellOf (T.schema.map Prod.fst) row T.leading)

/-- The primary key of a row. -/
def key (row : Row) : ℤ ×ₗ κ :=
  toLex (T.lead row, T.order (cellsOf (T.schema.map Prod.fst) row T.others))

/-- The table sorted by its primary key. -/
def sorted : List Row := T.rows.insertionSort fun a b => T.key a ≤ T.key b

/-- The rows from a leading key on. -/
def fromKey (start : Option ℤ) : List Row := T.sorted.filter fun row => start.getD (T.lead row) ≤ T.lead row

/-- The first `limit` rows from a leading key on. -/
def page (start : Option ℤ) (limit : ℤ) : DataFrame := ⟨T.schema, (T.fromKey start).take limit.toNat⟩

/-- The connector reads the table under the spec, whatever else happens. -/
structure ReadBy (C : SourceConnector σ) (spec : TableSpec) : Prop where
  pk_eq : spec.pkColumns = T.leading :: T.others
  read : ∀ start limit w, 1 ≤ limit →
    ∃ w', C.readTable spec start none limit w = .ok (T.page start limit) w'

variable {T}

theorem lead_sorted : (T.sorted.map T.lead).Pairwise (· ≤ ·) := by
  rw [List.pairwise_map]
  exact (List.pairwise_insertionSort (fun a b => T.key a ≤ T.key b) T.rows).imp fun h =>
    Prod.Lex.monotone_fst _ _ h

theorem int_sorted {row : Row} (h : row ∈ T.sorted) :
    cellOf (T.schema.map Prod.fst) row T.leading = .int (T.lead row) := by
  obtain ⟨k, hk⟩ := T.int_leading row (by simpa [sorted] using h)
  rw [lead, hk]
  rfl

theorem fromKey_sublist (start : Option ℤ) : (T.fromKey start).Sublist T.sorted := List.filter_sublist

/-- The leading keys of a page are the first of those from its start on. -/
theorem page_leads (start : Option ℤ) (limit : ℤ) : (T.page start limit).rows.map T.lead =
    ((T.fromKey start).map T.lead).take limit.toNat := by
  rw [page, List.map_take]

theorem mem_page {start : Option ℤ} {limit : ℤ} {row : Row} (h : row ∈ (T.page start limit).rows) :
    row ∈ T.sorted := (fromKey_sublist start).subset (List.mem_of_mem_take h)

/-! ### One page -/

variable {C : SourceConnector σ} {spec : TableSpec} {start : Option ℤ} {limit : ℤ}

/-- The leading column of a page. -/
theorem column_page (start : Option ℤ) (limit : ℤ) : (T.page start limit).column T.leading =
    .ok (((T.page start limit).rows.map T.lead).map Cell.int) := by
  rw [DataFrame.column, if_pos (show T.leading ∈ (T.page start limit).columns from T.leading_mem),
    List.map_map]
  exact congrArg Except.ok (List.map_congr_left fun row h => int_sorted (mem_page h))

/-- The guard of `_key_after` counts the different keys of a page. -/
theorem dedup_page (start : Option ℤ) (limit : ℤ) :
    (((T.page start limit).rows.map T.lead).map Cell.int).dedup.length ≠ (T.page start limit).height ↔
      ¬ ((T.page start limit).rows.map T.lead).Nodup := by
  have hinj : Function.Injective Cell.int := fun a b h => by cases h; rfl
  rw [List.dedup_map_of_injective hinj, List.length_map, DataFrame.height,
    ← List.length_map (f := T.lead), ne_eq, not_iff_not]
  refine ⟨fun h => ?_, fun h => by rw [h.dedup]⟩
  rw [← List.dedup_eq_self]
  exact (List.dedup_sublist _).eq_of_length h

theorem keyAfter_repeats (hpk : spec.pkColumns = T.leading :: T.others)
    (h : ¬ ((T.page start limit).rows.map T.lead).Nodup) :
    ∃ e, keyAfter (T.page start limit) spec = .error e := by
  rw [keyAfter, hpk]
  simp only [List.head?_cons, Option.elim_some, bind, Except.bind, column_page]
  rw [if_pos ((dedup_page start limit).mpr h)]
  exact ⟨_, rfl⟩

theorem keyAfter_nodup (hpk : spec.pkColumns = T.leading :: T.others)
    (h : ((T.page start limit).rows.map T.lead).Nodup) {last : ℤ}
    (hlast : ((T.page start limit).rows.map T.lead).getLast? = some last) :
    keyAfter (T.page start limit) spec = .ok (last + 1) := by
  rw [keyAfter, hpk]
  simp only [List.head?_cons, Option.elim_some, bind, Except.bind, column_page]
  rw [if_neg fun hne => (dedup_page start limit).mp hne h, List.getLast?_map, hlast]
  rfl

/-- **A page that holds a key twice raises.** -/
theorem nextChunk_repeats (hC : T.ReadBy C spec) {st : RunState} (hst : st.spec = spec)
    (hlimit : 1 ≤ limit) (h : ¬ (((T.fromKey st.chunkKey).map T.lead).take limit.toNat).Nodup) (w : σ) :
    ∃ e w', nextChunk C st limit w = .error e w' := by
  rw [← page_leads] at h
  obtain ⟨w', hread⟩ := hC.read st.chunkKey limit w hlimit
  obtain ⟨e, he⟩ := keyAfter_repeats hC.pk_eq h
  have hne : (T.page st.chunkKey limit).isEmpty = false := by
    rw [DataFrame.isEmpty, List.isEmpty_eq_false_iff]
    intro hnil
    exact h (by rw [hnil]; exact List.nodup_nil)
  refine ⟨e, w', ?_⟩
  rw [← hst] at hread he
  show EStateM.bind (C.readTable st.spec st.chunkKey none limit) _ w = _
  simp only [EStateM.bind, hread, hne, Bool.false_eq_true, if_false, he]
  rfl

/-- **A page that does not** is handed on, and the next one opens past its last row. -/
theorem nextChunk_nodup (hC : T.ReadBy C spec) {st : RunState} (hst : st.spec = spec)
    (hlimit : 1 ≤ limit) (h : (((T.fromKey st.chunkKey).map T.lead).take limit.toNat).Nodup) {last : ℤ}
    (hlast : (((T.fromKey st.chunkKey).map T.lead).take limit.toNat).getLast? = some last) (w : σ) :
    ∃ w', nextChunk C st limit w = .ok (some (T.page st.chunkKey limit), { st with
      chunkKey := some (last + 1)
      dumpDone := decide (((T.page st.chunkKey limit).height : ℤ) < limit) }) w' := by
  rw [← page_leads] at h hlast
  obtain ⟨w', hread⟩ := hC.read st.chunkKey limit w hlimit
  have hne : (T.page st.chunkKey limit).rows ≠ [] := by
    intro hnil
    rw [hnil] at hlast
    cases hlast
  rw [← hst] at hread
  refine ⟨w', nextChunk_ok.mpr ⟨_, .rows hread hne ?_⟩⟩
  exact keyAfter_nodup (hst ▸ hC.pk_eq) h hlast

/-- A page without a row ends the walk. -/
theorem nextChunk_nil (hC : T.ReadBy C spec) {st : RunState} (hst : st.spec = spec) (hlimit : 1 ≤ limit)
    (h : T.fromKey st.chunkKey = []) (w : σ) :
    ∃ w', nextChunk C st limit w = .ok (none, { st with dumpDone := true }) w' := by
  obtain ⟨w', hread⟩ := hC.read st.chunkKey limit w hlimit
  have hnil : (T.page st.chunkKey limit).rows = [] := by rw [page, h, List.take_nil]
  rw [← hst] at hread
  have hdone : decide (0 < limit) = true := decide_eq_true (by omega)
  have hpage := PageRead.empty hread hnil
  rw [hdone] at hpage
  exact ⟨w', nextChunk_ok.mpr ⟨_, hpage⟩⟩

theorem lead_fromKey (start : Option ℤ) : ((T.fromKey start).map T.lead).Pairwise (· ≤ ·) :=
  lead_sorted.sublist ((fromKey_sublist start).map T.lead)

/-- From past a key that is not before the start on. -/
theorem fromKey_next {last : ℤ} (h : ∀ a ∈ start, a ≤ last) :
    T.fromKey (some (last + 1)) = (T.fromKey start).filter fun row => last < T.lead row := by
  rw [fromKey, fromKey, List.filter_filter]
  refine List.filter_congr fun row _ => ?_
  cases start with
  | none => simp
  | some a =>
    have := h a rfl
    rw [Bool.eq_iff_iff]
    simp only [Option.getD_some, decide_eq_true_eq, Bool.and_eq_true]
    omega

theorem start_le {key : ℤ} (h : key ∈ (T.fromKey start).map T.lead) : ∀ a ∈ start, a ≤ key := by
  obtain ⟨row, hrow, rfl⟩ := List.mem_map.mp h
  rintro a rfl
  simpa using (List.mem_filter.mp hrow).2

/-- Past a key that is there less is left. -/
theorem fromKey_shorter {last : ℤ} (h : last ∈ (T.fromKey start).map T.lead) :
    (T.fromKey (some (last + 1))).length < (T.fromKey start).length := by
  rw [fromKey_next (start_le h)]
  obtain ⟨row, hrow, hkey⟩ := List.mem_map.mp h
  exact List.length_filter_lt_length_iff_exists.mpr ⟨row, hrow, by simp [hkey]⟩

end Fixed

/-! ### The walk -/

/-- The rows of the walk from a state on, call by call until the dump is done. -/
inductive Walks (C : SourceConnector σ) (sizes : ℕ → ℤ) : ℕ → RunState → σ → List Row → Prop
  | ends {i st w chunk st' w'} (page : nextChunk C st (sizes i) w = .ok (chunk, st') w')
      (done : st'.dumpDone = true) : Walks C sizes i st w (windowRows chunk)
  | goesOn {i st w chunk st' w' rest} (page : nextChunk C st (sizes i) w = .ok (chunk, st') w')
      (more : st'.dumpDone = false) (walks : Walks C sizes (i + 1) st' w' rest) :
      Walks C sizes i st w (windowRows chunk ++ rest)

/-- Some call of the walk raises. -/
inductive Raises (C : SourceConnector σ) (sizes : ℕ → ℤ) : ℕ → RunState → σ → Prop
  | now {i st w e w'} (raised : nextChunk C st (sizes i) w = .error e w') : Raises C sizes i st w
  | later {i st w chunk st' w'} (page : nextChunk C st (sizes i) w = .ok (chunk, st') w')
      (more : st'.dumpDone = false) (raises : Raises C sizes (i + 1) st' w') : Raises C sizes i st w

variable {C : SourceConnector σ} {sizes : ℕ → ℤ} {i : ℕ} {st : RunState} {w : σ}

/-- A walk has one outcome. -/
theorem Walks.unique {rows rows' : List Row} (h : Walks C sizes i st w rows)
    (h' : Walks C sizes i st w rows') : rows = rows' := by
  induction h generalizing rows' with
  | ends page done =>
    cases h' with
    | ends page' _ => rw [page] at page'; cases page'; rfl
    | goesOn page' more _ => rw [page] at page'; cases page'; rw [done] at more; cases more
  | goesOn page more _ ih =>
    cases h' with
    | ends page' done => rw [page] at page'; cases page'; rw [done] at more; cases more
    | goesOn page' _ walks => rw [page] at page'; cases page'; rw [ih walks]

theorem Walks.not_raises {rows : List Row} (h : Walks C sizes i st w rows) : ¬ Raises C sizes i st w := by
  induction h with
  | ends page done =>
    rintro (raised | ⟨page', more, _⟩)
    · rw [page] at raised; cases raised
    · rw [page] at page'; cases page'; rw [done] at more; cases more
  | goesOn page more _ ih =>
    rintro (raised | ⟨page', _, raises⟩)
    · rw [page] at raised; cases raised
    · rw [page] at page'; cases page'; exact ih raises

/-- What a walk that does not raise has read: rows of different leading keys, and all there are if
no leading key repeats. -/
structure Reads (T : Fixed κ) (left rows : List Row) : Prop where
  increasing : (rows.map T.lead).Pairwise (· < ·)
  mem : ∀ row ∈ rows, row ∈ left
  whole : (left.map T.lead).Nodup → rows = left

/-- A page in front of what a walk reads past it. -/
theorem Reads.page {T : Fixed κ} {left rest : List Row} {n : ℕ} {last : ℤ}
    (hs : (left.map T.lead).Pairwise (· ≤ ·)) (hnodup : ((left.map T.lead).take n).Nodup)
    (hlast : last ∈ (left.map T.lead).take n) (hmax : ∀ a ∈ (left.map T.lead).take n, a ≤ last)
    (h : Reads T (left.filter fun row => last < T.lead row) rest) :
    Reads T left (left.take n ++ rest) := by
  rw [← List.map_take] at hnodup hlast hmax
  have hrest : ∀ row ∈ rest, last < T.lead row := fun row hrow => by
    simpa using (List.mem_filter.mp (h.mem row hrow)).2
  have hpage : ∀ row ∈ left.take n, T.lead row ≤ last := fun row hrow =>
    hmax _ (List.mem_map_of_mem hrow)
  refine ⟨?_, fun row hrow => ?_, fun hwhole => ?_⟩
  · rw [List.map_append, List.pairwise_append]
    refine ⟨?_, h.increasing, ?_⟩
    · have hle : ((left.take n).map T.lead).Pairwise (· ≤ ·) :=
        hs.sublist ((List.take_sublist n left).map T.lead)
      exact (hle.and hnodup).imp fun h => lt_of_le_of_ne h.1 h.2
    · rintro a ha b hb
      obtain ⟨row, hrow, rfl⟩ := List.mem_map.mp ha
      obtain ⟨row', hrow', rfl⟩ := List.mem_map.mp hb
      exact (hpage row hrow).trans_lt (hrest row' hrow')
  · rcases List.mem_append.mp hrow with hrow | hrow
    · exact List.mem_of_mem_take hrow
    · exact (List.mem_filter.mp (h.mem row hrow)).1
  · have hdrop : (left.filter fun row => last < T.lead row) = left.drop n := by
      rw [← List.take_append_drop n left, List.map_append, List.nodup_append] at hwhole
      rw [← List.take_append_drop n left, List.map_append, List.pairwise_append] at hs
      conv_lhs => rw [← List.take_append_drop n left]
      rw [List.filter_append, List.filter_eq_nil_iff.mpr, List.nil_append, List.filter_eq_self.mpr]
      · intro row hrow
        have hmem := List.mem_map_of_mem (f := T.lead) hrow
        exact decide_eq_true (lt_of_le_of_ne (hs.2.2 last hlast _ hmem) (hwhole.2.2 last hlast _ hmem))
      · intro row hrow
        simpa using hpage row hrow
    rw [h.whole, hdrop, List.take_append_drop]
    rw [hdrop]
    exact hwhole.sublist ((List.drop_sublist n left).map T.lead)

theorem le_getLast {ks : List ℤ} {last : ℤ} (hs : ks.Pairwise (· ≤ ·)) (h : ks.getLast? = some last) :
    ∀ a ∈ ks, a ≤ last := by
  obtain ⟨front, rfl⟩ := List.getLast?_eq_some_iff.mp h
  intro a ha
  rcases List.mem_append.mp ha with ha | ha
  · exact (List.pairwise_append.mp hs).2.2 a ha last (by simp)
  · exact (List.mem_singleton.mp ha).le

/-- What a walk from a state on comes to: it raises if a repeated leading key is caught, and else it
ends. -/
def Outcome (T : Fixed κ) (C : SourceConnector σ) (sizes : ℕ → ℤ) (i : ℕ) (st : RunState) (w : σ) : Prop :=
  (Caught (fun j => sizes (i + j)) ((T.fromKey st.chunkKey).map T.lead) → Raises C sizes i st w) ∧
    (¬ Caught (fun j => sizes (i + j)) ((T.fromKey st.chunkKey).map T.lead) →
      ∃ rows, Walks C sizes i st w rows ∧ Reads T (T.fromKey st.chunkKey) rows)

section outcome

variable {T : Fixed κ} {spec : TableSpec} {last : ℤ} (hC : T.ReadBy C spec) (hsizes : ∀ i, 1 ≤ sizes i)
  (hst : st.spec = spec)

include hC hsizes hst

/-- Nothing is left. -/
theorem outcome_nil (h : T.fromKey st.chunkKey = []) : Outcome T C sizes i st w := by
  obtain ⟨w', hpage⟩ := Fixed.nextChunk_nil hC hst (hsizes i) h w
  rw [Outcome, h]
  exact ⟨fun h => absurd h (not_caught_of_nodup List.nodup_nil),
    fun _ => ⟨_, .ends hpage rfl, .nil, by simp [windowRows], fun _ => rfl⟩⟩

/-- The guard sees a key that repeats in the page. -/
theorem outcome_repeats (h : ¬ (((T.fromKey st.chunkKey).map T.lead).take (sizes i).toNat).Nodup) :
    Outcome T C sizes i st w := by
  obtain ⟨e, w', hraise⟩ := Fixed.nextChunk_repeats hC hst (hsizes i) h w
  have hsize : sizes (i + 0) = ((sizes i).toNat : ℤ) := by
    have := hsizes i
    rw [Nat.add_zero]
    omega
  exact ⟨fun _ => .now hraise,
    fun hnot => absurd (caught_of_page (Fixed.lead_fromKey _) (fun j => hsizes _) hsize h) hnot⟩

/-- A short page is the last one. -/
theorem outcome_short (h : (((T.fromKey st.chunkKey).map T.lead).take (sizes i).toNat).Nodup)
    (hlast : (((T.fromKey st.chunkKey).map T.lead).take (sizes i).toNat).getLast? = some last)
    (hshort : ((T.page st.chunkKey (sizes i)).height : ℤ) < sizes i) : Outcome T C sizes i st w := by
  obtain ⟨w', hpage⟩ := Fixed.nextChunk_nodup hC hst (hsizes i) h hlast w
  have htake : (T.fromKey st.chunkKey).take (sizes i).toNat = T.fromKey st.chunkKey := by
    rw [DataFrame.height, Fixed.page, List.length_take] at hshort
    exact List.take_of_length_le (by omega)
  have hrows : windowRows (some (T.page st.chunkKey (sizes i))) = T.fromKey st.chunkKey := htake
  rw [← List.map_take, htake] at h
  refine ⟨fun hc => absurd hc (not_caught_of_nodup h), fun _ => ?_⟩
  refine ⟨_, .ends hpage (decide_eq_true hshort), ?_⟩
  rw [hrows]
  exact ⟨((Fixed.lead_fromKey _).and h).imp fun h => lt_of_le_of_ne h.1 h.2, fun _ h => h, fun _ => rfl⟩

/-- A full page is followed by one that opens past its last key. -/
theorem outcome_full (h : (((T.fromKey st.chunkKey).map T.lead).take (sizes i).toNat).Nodup)
    (hlast : (((T.fromKey st.chunkKey).map T.lead).take (sizes i).toNat).getLast? = some last)
    (hfull : ¬ ((T.page st.chunkKey (sizes i)).height : ℤ) < sizes i)
    (next : ∀ w', Outcome T C sizes (i + 1) { st with chunkKey := some (last + 1), dumpDone := false } w') :
    Outcome T C sizes i st w := by
  obtain ⟨w', hpage⟩ := Fixed.nextChunk_nodup hC hst (hsizes i) h hlast w
  rw [decide_eq_false hfull] at hpage
  have hs := Fixed.lead_fromKey (T := T) st.chunkKey
  have hmem := List.mem_of_getLast? hlast
  have hmax := le_getLast (hs.sublist (List.take_sublist _ _)) hlast
  have hnext : T.fromKey (some (last + 1)) = (T.fromKey st.chunkKey).filter fun row => last < T.lead row :=
    Fixed.fromKey_next (Fixed.start_le (List.mem_of_mem_take hmem))
  have hleft : (T.fromKey (some (last + 1))).map T.lead =
      ((T.fromKey st.chunkKey).map T.lead).filter (last < ·) := by
    rw [hnext, List.filter_map]
    rfl
  have hlength : sizes i = (((T.fromKey st.chunkKey).map T.lead).take (sizes i).toNat).length := by
    have := hsizes i
    rw [DataFrame.height, Fixed.page, List.length_take] at hfull
    rw [List.length_take, List.length_map]
    omega
  have hshift : (fun k => sizes (i + (k + 1))) = fun j => sizes (i + 1 + j) := by
    funext k
    congr 1
    omega
  have hcaught : Caught (fun j => sizes (i + j)) ((T.fromKey st.chunkKey).map T.lead) ↔
      Caught (fun j => sizes (i + 1 + j)) ((T.fromKey (some (last + 1))).map T.lead) := by
    rw [hleft, ← hshift]
    exact caught_next hs hlength h hmem hmax
  obtain ⟨hraises, hwalks⟩ := next w'
  refine ⟨fun hc => .later hpage rfl (hraises (hcaught.mp hc)), fun hnot => ?_⟩
  obtain ⟨rest, hrest, hreads⟩ := hwalks fun hc => hnot (hcaught.mpr hc)
  refine ⟨_, .goesOn hpage rfl hrest, ?_⟩
  change Reads T (T.fromKey (some (last + 1))) rest at hreads
  rw [hnext] at hreads
  exact hreads.page hs h hmem hmax

end outcome

/-- **The outcome of a walk**, page by page. -/
theorem walk_outcome {T : Fixed κ} {spec : TableSpec} (hC : T.ReadBy C spec) (hsizes : ∀ i, 1 ≤ sizes i)
    {i : ℕ} {st : RunState} {w : σ} (hst : st.spec = spec) : Outcome T C sizes i st w := by
  by_cases h : (((T.fromKey st.chunkKey).map T.lead).take (sizes i).toNat).Nodup
  · cases hlast : (((T.fromKey st.chunkKey).map T.lead).take (sizes i).toNat).getLast? with
    | none =>
      have hsize := hsizes i
      rw [List.getLast?_eq_none_iff, List.take_eq_nil_iff, List.map_eq_nil_iff] at hlast
      exact outcome_nil hC hsizes hst (hlast.resolve_left (by omega))
    | some last =>
      have hmem := List.mem_of_mem_take (List.mem_of_getLast? hlast)
      by_cases hshort : ((T.page st.chunkKey (sizes i)).height : ℤ) < sizes i
      · exact outcome_short hC hsizes hst h hlast hshort
      · exact outcome_full hC hsizes hst h hlast hshort fun w' => walk_outcome hC hsizes hst
  · exact outcome_repeats hC hsizes hst h
termination_by (T.fromKey st.chunkKey).length
decreasing_by exact Fixed.fromKey_shorter hmem

/-- **The walk reads the table or raises, and exactly when.** From no chunk key on, either some call
raises or the pages are the table in the order of its primary key, if and only if no leading key
repeats, or one repeats whose rank among the different leading keys is no sum of the first chunk
sizes. -/
theorem walk_is_whole_iff {T : Fixed κ} (hC : T.ReadBy C st.spec) (hsizes : ∀ i, 1 ≤ sizes i)
    (hstart : st.chunkKey = none) :
    (Raises C sizes 0 st w ∨ Walks C sizes 0 st w T.sorted) ↔
      (T.rows.map T.lead).Nodup ∨ Caught sizes (T.rows.map T.lead) := by
  have hperm : (T.sorted.map T.lead).Perm (T.rows.map T.lead) := (List.perm_insertionSort _ _).map _
  have hall : T.fromKey st.chunkKey = T.sorted := by
    rw [hstart, Fixed.fromKey, List.filter_eq_self]
    simp
  have hout : Outcome T C sizes 0 st w := walk_outcome hC hsizes rfl
  rw [Outcome, hall] at hout
  simp only [Nat.zero_add] at hout
  obtain ⟨hraises, hwalks⟩ := hout
  rw [← hperm.nodup_iff, ← caught_perm hperm]
  constructor
  · intro h
    by_contra hnot
    rw [not_or] at hnot
    obtain ⟨rows, hrows, hreads⟩ := hwalks hnot.2
    rcases h with h | h
    · exact hrows.not_raises h
    · obtain rfl := h.unique hrows
      exact hnot.1 (hreads.increasing.imp ne_of_lt)
  · rintro (hnodup | hcaught)
    · obtain ⟨rows, hrows, hreads⟩ := hwalks (not_caught_of_nodup hnodup)
      exact Or.inr (hreads.whole hnodup ▸ hrows)
    · exact Or.inl (hraises hcaught)

/-! ### A table of pairs -/

/-- A source that has the table and nothing else. -/
def Fixed.connector (T : Fixed κ) : SourceConnector Unit where
  getMaxLsn := throw (.driverError "no log")
  getMinLsn _ := throw (.driverError "no log")
  watermark := throw (.driverError "no clock")
  awaitWatermark _ := throw (.driverError "no log")
  inspect _ _ := throw (.driverError "no catalogue")
  readEventLog _ _ _ := throw (.driverError "no log")
  toEvents _ _ _ := throw (.driverError "no log")
  readTable _ start _ limit := return T.page start limit
  incrementLsn _ := throw (.driverError "no log")

theorem Fixed.readBy_connector (T : Fixed κ) {spec : TableSpec}
    (hpk : spec.pkColumns = T.leading :: T.others) : T.ReadBy T.connector spec :=
  ⟨hpk, fun _ _ w _ => ⟨w, rfl⟩⟩

/-- The keys `(1, 1)`, `(2, 1)` and `(2, 2)`. -/
def pairs : Fixed ℤ where
  schema := [("a", .int32), ("b", .int32)]
  rows := [[.int 2, .int 2], [.int 1, .int 1], [.int 2, .int 1]]
  leading := "a"
  others := ["b"]
  order cells := keyOf (cells.headD .null)
  leading_mem := by decide
  int_leading := by
    intro row h
    simp only [List.mem_cons, List.not_mem_nil, or_false] at h
    rcases h with rfl | rfl | rfl <;> exact ⟨_, rfl⟩

def pairsStart : RunState := ⟨⟨"dbo", "pairs", ["a", "b"], [], [], none⟩, [], .utc 0, none, false⟩

/-- In pages of three. -/
theorem walk_is_whole_iff_pairs : (Raises pairs.connector (fun _ => 3) 0 pairsStart () ∨
    Walks pairs.connector (fun _ => 3) 0 pairsStart () pairs.sorted) ↔
      (pairs.rows.map pairs.lead).Nodup ∨ Caught (fun _ => 3) (pairs.rows.map pairs.lead) :=
  walk_is_whole_iff (pairs.readBy_connector rfl) (fun _ => by norm_num) rfl

/-- Pages of two. -/
def twos (_ : ℕ) : ℤ := 2

/-- **In pages of two** the first page ends between the rows of the leading key 2, no call raises,
and the last row is read by none. -/
theorem walk_drops_pair : ¬ (Raises pairs.connector twos 0 pairsStart () ∨
    Walks pairs.connector twos 0 pairsStart () pairs.sorted) := by
  have first : nextChunk pairs.connector pairsStart (twos 0) () =
      .ok (some (pairs.page none 2), { pairsStart with chunkKey := some 3 }) () := rfl
  have second : nextChunk pairs.connector { pairsStart with chunkKey := some 3 } (twos 1) () =
      .ok (none, { pairsStart with chunkKey := some 3, dumpDone := true }) () := rfl
  have walks : Walks pairs.connector twos 0 pairsStart () ((pairs.page none 2).rows ++ []) :=
    .goesOn first rfl (.ends second rfl)
  rintro (h | h)
  · exact walks.not_raises h
  · exact absurd (h.unique walks) (by decide)

end PyDBLog.Runs.Walk
