import PyDBLog.Mssql.ReadTable
import PyDBLog.Model.Returns

/-! # Reading a table range by range

A plan of half-open key ranges, computed once up front, stays valid: the pages of consecutive
ranges, each read in either style from the table as it is at the time, are together the page of the
whole range, of a table that has in each range the rows its table had when that range was read
(`sweep_reads_one_table`). A row no one touches is in it once. From the bounds `read_pk_range()`
returns, a plan covers the table (`planned_sweep_covers`). -/

namespace PyDBLog.Mssql.Ranges

open PyDBLog.Model.Python PyDBLog.Model.Types PyDBLog.Model.Returns
open PyDBLog.Model.Frame (Cell)
open PyDBLog.Mssql.Connector PyDBLog.Mssql.Connector.MSSQLConnector
open PyDBLog.Mssql.ReadTable hiding items
open PyDBLog.Sql.Meaning

variable {V : Type} [LinearOrder V] {D : Domain V} {spec : TableSpec} {a b c : ℤ} {rows : List (Row V)}
  {result : List (List V)}

/-- The leading key of a row is in `[a, b)`. -/
def InRange (D : Domain V) (spec : TableSpec) (a b : ℤ) (row : Row V) : Prop :=
  D.ofInt a ≤ row (spec.pkColumns.headD "") ∧ row (spec.pkColumns.headD "") < D.ofInt b

instance (a b : ℤ) (row : Row V) : Decidable (InRange D spec a b row) := by
  unfold InRange
  infer_instance

/-- The rows by the whole key. -/
def byKey (spec : TableSpec) (rows : List (Row V)) : List (Row V) :=
  rows.insertionSort fun row row' => spec.pkColumns.map row ≤ spec.pkColumns.map row'

/-- What a read shows of a row. -/
def imageOf (D : Domain V) (spec : TableSpec) (row : Row V) : List V :=
  spec.capturedColumns.map fun column => if column.isComputed then D.null else row column.name

/-- A range of keys, and the table as it was when the range was read. -/
structure RangeRead (D : Domain V) (spec : TableSpec) where
  startPk : ℤ
  endPk : ℤ
  table : Table D spec.pkColumns

/-- The rows it found. -/
def RangeRead.found (read : RangeRead D spec) : List (Row V) :=
  read.table.rows.filter (InRange D spec read.startPk read.endPk)

/-- **Consecutive ranges from `a` to `b`**, each read in full from the table as it was then: the
reads and what they returned. -/
inductive Swept (D : Domain V) (spec : TableSpec) :
    ℤ → ℤ → List (RangeRead D spec) → List (List V) → Prop
  | begins (a : ℤ) : Swept D spec a a [] []
  | reads {a b c reads result pagination query params table page} (swept : Swept D spec a b reads result)
      (built : buildReadTableQuery pagination spec (some b) (some c) 0 = .ok (query, params))
      (means : Means D query params table.rows page) :
      Swept D spec a c (reads ++ [⟨b, c, table⟩]) (result ++ page)

/-! ### One range -/

/-- No key column is computed: the order of a page is that of the table. -/
def StoredKeys (spec : TableSpec) : Prop :=
  ∀ column ∈ spec.capturedColumns, column.isComputed = true → column.name ∉ spec.pkColumns

variable {pagination : Pagination} {query : String} {params : List ℤ} {table : Table D spec.pkColumns}

theorem means_iff {startPk endPk : Option ℤ} {limit : ℤ} (hkeys : StoredKeys spec)
    (built : buildReadTableQuery pagination spec startPk endPk limit = .ok (query, params)) :
    Means D query params table.rows result ↔ result = page D spec startPk endPk limit table.rows := by
  obtain ⟨haccepts, rfl, rfl⟩ := buildReadTableQuery_ok.mp built
  rw [means_text (statement_plain haccepts.identifiers haccepts.keyed),
    reads_statement haccepts hkeys table]

theorem page_range : page D spec (some a) (some b) 0 rows =
    (byKey spec (rows.filter (InRange D spec a b))).map (imageOf D spec) := by
  simp only [page, Option.mem_def, Option.some.injEq, forall_eq', if_true]
  rfl

theorem page_whole : page D spec none none 0 rows = (byKey spec rows).map (imageOf D spec) := by
  simp only [page, Option.mem_def, reduceCtorEq, false_implies, implies_true, and_self,
    decide_true, if_true,
    List.filter_true]
  rfl

/-- A smaller leading key decides. -/
theorem key_le {row row' : Row V} (hpk : spec.pkColumns ≠ [])
    (h : row (spec.pkColumns.headD "") < row' (spec.pkColumns.headD "")) :
    spec.pkColumns.map row ≤ spec.pkColumns.map row' := by
  obtain ⟨leading, rest, heq⟩ := List.exists_cons_of_ne_nil hpk
  rw [heq, List.headD_cons] at h
  rw [heq, List.map_cons, List.map_cons]
  exact (List.cons_lt_cons_iff.mpr (Or.inl h)).le

theorem InRange.lt {row row' : Row V} (h : InRange D spec a b row)
    (h' : InRange D spec b c row') : row (spec.pkColumns.headD "") < row' (spec.pkColumns.headD "") :=
  h.2.trans_le h'.1

/-! ### Consecutive ranges -/

/-- Rows of a table, every key once and none NULL. -/
structure Keyed (D : Domain V) (spec : TableSpec) (rows : List (Row V)) : Prop where
  unique : rows.Pairwise fun row row' => spec.pkColumns.map row ≠ spec.pkColumns.map row'
  not_null : ∀ row ∈ rows, ∀ name ∈ spec.pkColumns, row name ≠ D.null

omit [LinearOrder V] in
theorem Keyed.of_table (table : Table D spec.pkColumns) (p : Row V → Bool) :
    Keyed D spec (table.rows.filter p) where
  unique := table.unique.sublist List.filter_sublist
  not_null row hrow := table.not_null row (List.mem_filter.mp hrow).1

/-- What lies below and what lies above, in order. -/
theorem Keyed.append {rows' : List (Row V)} (h : Keyed D spec rows) (h' : Keyed D spec rows')
    (hlt : ∀ row ∈ rows, ∀ row' ∈ rows',
      row (spec.pkColumns.headD "") < row' (spec.pkColumns.headD "")) (hpk : spec.pkColumns ≠ []) :
    Keyed D spec (rows ++ rows') ∧ byKey spec (rows ++ rows') = byKey spec rows ++ byKey spec rows' := by
  have hne : ∀ row ∈ rows, ∀ row' ∈ rows', spec.pkColumns.map row ≠ spec.pkColumns.map row' := by
    intro row hrow row' hrow' heq
    obtain ⟨leading, rest, hcons⟩ := List.exists_cons_of_ne_nil hpk
    have hhead := hlt row hrow row' hrow'
    rw [hcons, List.headD_cons] at hhead
    rw [hcons, List.map_cons, List.map_cons] at heq
    exact hhead.ne (List.cons.inj heq).1
  have hunique := List.pairwise_append.mpr ⟨h.unique, h'.unique, hne⟩
  refine ⟨⟨hunique, ?_⟩, ?_⟩
  · intro row hrow
    rcases List.mem_append.mp hrow with hrow | hrow
    · exact h.not_null row hrow
    · exact h'.not_null row hrow
  have hperm := List.perm_insertionSort (fun row row' : Row V =>
    spec.pkColumns.map row ≤ spec.pkColumns.map row')
  have hsorted := List.pairwise_insertionSort
    (fun row row' : Row V => spec.pkColumns.map row ≤ spec.pkColumns.map row')
  refine sorted_unique hunique (hperm _) ((hperm rows).append (hperm rows')) (hsorted _) ?_
  refine List.pairwise_append.mpr ⟨hsorted rows, hsorted rows', fun row hrow row' hrow' => ?_⟩
  exact key_le hpk (hlt row ((hperm rows).mem_iff.mp hrow) row' ((hperm rows').mem_iff.mp hrow'))

variable {reads : List (RangeRead D spec)}

/-- The rows of some reads. -/
def rowsOf (reads : List (RangeRead D spec)) : List (Row V) := reads.flatMap RangeRead.found

theorem rowsOf_append (read : RangeRead D spec) : rowsOf (reads ++ [read]) = rowsOf reads ++ read.found := by
  rw [rowsOf, List.flatMap_append, List.flatMap_singleton]
  rfl

theorem mem_found {read : RangeRead D spec} {row : Row V} :
    row ∈ read.found ↔ row ∈ read.table.rows ∧ InRange D spec read.startPk read.endPk row := by
  rw [RangeRead.found, List.mem_filter, decide_eq_true_eq]

/-- **What a sweep found and read.** -/
structure Sweeps (D : Domain V) (spec : TableSpec) (a b : ℤ) (rows : List (Row V))
    (result : List (List V)) :
    Prop where
  le : a ≤ b
  keyed : Keyed D spec rows
  inRange : ∀ row ∈ rows, InRange D spec a b row
  result_eq : result = (byKey spec rows).map (imageOf D spec)

theorem Swept.sweeps (hmono : Monotone D.ofInt) (hkeys : StoredKeys spec)
    (swept : Swept D spec a b reads result) : Sweeps D spec a b (rowsOf reads) result := by
  induction swept with
  | begins => exact ⟨le_rfl, ⟨.nil, by simp [rowsOf]⟩, by simp [rowsOf], rfl⟩
  | @reads b c reads result pagination query params table page swept built means ih =>
    have haccepts := (buildReadTableQuery_ok.mp built).1
    have hbc : b < c := haccepts.ordered b rfl c rfl
    have hfound : ∀ row ∈ (⟨b, c, table⟩ : RangeRead D spec).found, InRange D spec b c row :=
      fun row hrow => (mem_found.mp hrow).2
    obtain ⟨hkeyed, hsorted⟩ := ih.keyed.append (Keyed.of_table table (InRange D spec b c))
      (fun row hrow row' hrow' => (ih.inRange row hrow).lt (hfound row' hrow')) haccepts.keyed
    rw [rowsOf_append]
    refine ⟨ih.le.trans hbc.le, hkeyed, fun row hrow => ?_, ?_⟩
    · rcases List.mem_append.mp hrow with hrow | hrow
      · exact ⟨(ih.inRange row hrow).1, (ih.inRange row hrow).2.trans_le (hmono hbc.le)⟩
      · exact ⟨(hmono ih.le).trans (hfound row hrow).1, (hfound row hrow).2⟩
    · rw [(means_iff hkeys built).mp means, page_range, ih.result_eq, RangeRead.found, hsorted,
        List.map_append]

/-- The key of a row is in the range of one read, and the row is among those of the sweep exactly
where the table had it when that range was read. -/
theorem Swept.read (hmono : Monotone D.ofInt) (hkeys : StoredKeys spec)
    (swept : Swept D spec a b reads result) {row : Row V} (hrow : InRange D spec a b row) :
    ∃ read ∈ reads, InRange D spec read.startPk read.endPk row ∧
      (row ∈ rowsOf reads ↔ row ∈ read.table.rows) := by
  induction swept with
  | begins => exact absurd (hrow.1.trans_lt hrow.2) (lt_irrefl _)
  | @reads b c reads result pagination query params table page swept built means ih =>
    rcases lt_or_ge (row (spec.pkColumns.headD "")) (D.ofInt b) with hlt | hge
    · obtain ⟨read, hread, hin, hiff⟩ := ih ⟨hrow.1, hlt⟩
      refine ⟨read, List.mem_append_left _ hread, hin, ?_⟩
      have hnot : row ∉ (⟨b, c, table⟩ : RangeRead D spec).found := fun hmem =>
        absurd hlt (not_lt.mpr (mem_found.mp hmem).2.1)
      rw [rowsOf_append, List.mem_append, or_iff_left hnot, hiff]
    · refine ⟨_, List.mem_append_right _ (List.mem_singleton_self _), ⟨hge, hrow.2⟩, ?_⟩
      have hnot : row ∉ rowsOf reads := fun hmem =>
        absurd ((swept.sweeps hmono hkeys).inRange row hmem).2 (not_lt.mpr hge)
      rw [rowsOf_append, List.mem_append, or_iff_right hnot, mem_found]
      exact and_iff_left ⟨hge, hrow.2⟩

/-- **A sweep is one read of one table**, which has in each range that was read the rows its table
had then, and no others. -/
theorem sweep_reads_one_table (hmono : StrictMono D.ofInt) (hkeys : StoredKeys spec)
    (swept : Swept D spec a b reads result) : ∃ whole : Table D spec.pkColumns,
      (∀ {pagination query params},
        buildReadTableQuery pagination spec (some a) (some b) 0 = .ok (query, params) →
        ∀ result', Means D query params whole.rows result' ↔ result' = result) ∧
      (∀ row, InRange D spec a b row → ∃ read ∈ reads, InRange D spec read.startPk read.endPk row ∧
        (row ∈ whole.rows ↔ row ∈ read.table.rows)) ∧
      ∀ row ∈ whole.rows, InRange D spec a b row := by
  have h := swept.sweeps hmono.monotone hkeys
  refine ⟨⟨rowsOf reads, h.keyed.unique, h.keyed.not_null⟩, fun built result' => ?_,
    fun row hrow => swept.read hmono.monotone hkeys hrow, h.inRange⟩
  have hall : (rowsOf reads).filter (InRange D spec a b) = rowsOf reads :=
    List.filter_eq_self.mpr fun row hrow => decide_eq_true (h.inRange row hrow)
  rw [means_iff hkeys built, page_range, hall, h.result_eq]

/-! ### A plan from the bounds of the key -/

/-- What SQL Server answers of the bounds of the leading key: NULL for an empty table, and else the
least and the greatest value. -/
inductive Extremes (toCell : V → Cell) (spec : TableSpec) (rows : List (Row V))
    (result : ResultSet) : Prop
  | empty (none : rows = []) (null : firstCell result = .null)
  | between {low high} (lowest : low ∈ rows) (highest : high ∈ rows)
      (all : ∀ row ∈ rows, low (spec.pkColumns.headD "") ≤ row (spec.pkColumns.headD "") ∧
        row (spec.pkColumns.headD "") ≤ high (spec.pkColumns.headD ""))
      (shown : result.rows = [[toCell (low (spec.pkColumns.headD "")),
        toCell (high (spec.pkColumns.headD ""))]])

variable {σ : Type} {conn : MSSQLConnector σ} {toCell : V → Cell} {w w' : σ}

/-- What is found of a table no one touches is the table, in some order. -/
theorem Swept.perm (hmono : Monotone D.ofInt) (hkeys : StoredKeys spec)
    (swept : Swept D spec a b reads result) (still : ∀ read ∈ reads, read.table.rows.Perm table.rows)
    (hall : ∀ row ∈ table.rows, InRange D spec a b row) : (rowsOf reads).Perm table.rows := by
  have hnodup : ∀ {rows : List (Row V)},
      (rows.Pairwise fun row row' => spec.pkColumns.map row ≠ spec.pkColumns.map row') → rows.Nodup :=
    fun hunique => hunique.imp fun hne heq => hne (by rw [heq])
  have h := swept.sweeps hmono hkeys
  refine (List.perm_ext_iff_of_nodup (hnodup h.keyed.unique) (hnodup table.unique)).mpr fun row =>
    ⟨?_, ?_⟩
  · intro hrow
    obtain ⟨read, hread, -, hiff⟩ := swept.read hmono hkeys (h.inRange row hrow)
    exact (still read hread).mem_iff.mp (hiff.mp hrow)
  · intro hrow
    obtain ⟨read, hread, -, hiff⟩ := swept.read hmono hkeys (hall row hrow)
    exact hiff.mpr ((still read hread).mem_iff.mpr hrow)

/-- The bounds that are read are those of the leading key, and none only of an empty table. -/
theorem readPkRange_bounds (hcells : ∀ v k, intInstance (toCell v) = some k → v = D.ofInt k)
    (hnull : ∀ v, toCell v = .null → v = D.null)
    (hserver : ∀ {query w result w'}, buildPkRangeQuery spec = .ok query →
      conn.execute query [] w = .ok result w' → Extremes toCell spec table.rows result)
    {bounds : Option (ℤ × ℤ)} (hpk : spec.pkColumns ≠ [])
    (hread : conn.readPkRange spec w = .ok bounds w') :
    (bounds = none → table.rows = []) ∧ ∀ low high, bounds = some (low, high) → table.rows ≠ [] ∧
      ∀ row ∈ table.rows, D.ofInt low ≤ row (spec.pkColumns.headD "") ∧
        row (spec.pkColumns.headD "") ≤ D.ofInt high := by
  simp only [MSSQLConnector.readPkRange, bind_ok, ofExcept_ok] at hread
  obtain ⟨query, _, ⟨hquery, rfl⟩, result, w₁, hx, hread⟩ := hread
  have hleading : spec.pkColumns.headD "" ∈ spec.pkColumns := by
    obtain ⟨leading, rest, heq⟩ := List.exists_cons_of_ne_nil hpk
    rw [heq]
    exact List.mem_cons_self
  cases hserver hquery hx with
  | empty none null =>
    rw [if_pos null] at hread
    obtain ⟨rfl, -⟩ := pure_ok.mp hread
    exact ⟨fun _ => none, by simp⟩
  | @between low high lowest highest all shown =>
    have hfirst : firstCell result = toCell (low (spec.pkColumns.headD "")) := by
      rw [firstCell, shown]
      rfl
    have hne : firstCell result ≠ .null := fun h =>
      table.not_null low lowest _ hleading (hnull _ (hfirst ▸ h))
    rw [if_neg hne, shown] at hread
    simp only [List.headD_cons, List.drop_succ_cons, List.drop_zero] at hread
    cases hlo : intInstance (toCell (low (spec.pkColumns.headD ""))) <;>
      cases hhi : intInstance (toCell (high (spec.pkColumns.headD ""))) <;>
      simp only [hlo, hhi, throw_ok, pure_ok] at hread
    obtain ⟨rfl, -⟩ := hread
    refine ⟨by simp, ?_⟩
    rintro _ _ ⟨⟩
    refine ⟨List.ne_nil_of_mem lowest, fun row hrow => ?_⟩
    rw [← hcells _ _ hlo, ← hcells _ _ hhi]
    exact all row hrow

/-- **A plan from the bounds of the key covers the table**: cut as it may be, its ranges are
together the page without bounds. -/
theorem planned_sweep_covers (hmono : StrictMono D.ofInt) (hkeys : StoredKeys spec)
    (hcells : ∀ v k, intInstance (toCell v) = some k → v = D.ofInt k)
    (hnull : ∀ v, toCell v = .null → v = D.null) (hserver : ∀ {query w result w'},
      buildPkRangeQuery spec = .ok query →
      conn.execute query [] w = .ok result w' → Extremes toCell spec table.rows result)
    {low high : ℤ} (hread : conn.readPkRange spec w = .ok (some (low, high)) w')
    (swept : Swept D spec low (high + 1) reads result)
    (still : ∀ read ∈ reads, read.table.rows.Perm table.rows)
    (built : buildReadTableQuery pagination spec none none 0 = .ok (query, params)) :
    Means D query params table.rows result := by
  have haccepts := (buildReadTableQuery_ok.mp built).1
  obtain ⟨-, hbounds⟩ := (readPkRange_bounds hcells hnull hserver haccepts.keyed hread).2 low high rfl
  have h := swept.sweeps hmono.monotone hkeys
  have hall : ∀ row ∈ table.rows, InRange D spec low (high + 1) row := fun row hrow =>
    ⟨(hbounds row hrow).1, (hbounds row hrow).2.trans_lt (hmono (lt_add_one high))⟩
  have hperm := swept.perm hmono.monotone hkeys still hall
  rw [means_iff hkeys built, page_whole, h.result_eq]
  have hsorted := List.pairwise_insertionSort
    (fun row row' : Row V => spec.pkColumns.map row ≤ spec.pkColumns.map row')
  have hrows := List.perm_insertionSort
    (fun row row' : Row V => spec.pkColumns.map row ≤ spec.pkColumns.map row')
  exact congrArg _ (sorted_unique h.keyed.unique (hrows _) ((hrows _).trans hperm.symm)
    (hsorted _) (hsorted _))

/-! ### A table with a key of two columns -/

/-- Things by the bucket they are in. -/
def buckets : TableSpec where
  sourceSchema := "dbo"
  sourceTable := "buckets"
  pkColumns := ["bucket", "id"]
  columns := []
  capturedColumns := [⟨"bucket", "int", 10, 0, none⟩, ⟨"id", "int", 10, 0, none⟩]
  captureInstance := some "dbo_buckets"

def bucketsTable : Table integers buckets.pkColumns where
  rows := [keyedRow 3 2, keyedRow 1 7, keyedRow 3 1]
  unique := by decide
  not_null := by decide

def showInteger : WithBot ℤ → Cell
  | none => .null
  | some n => .int n

/-- A server that knows their bounds. -/
def bucketsServer : MSSQLConnector Unit := serverOf fun _ _ _ => .ok (answer [[.int 1, .int 3]]) ()

theorem bucketsServer_answers {query : String} {w : Unit} {result : ResultSet} {w' : Unit}
    (hx : bucketsServer.execute query [] w = .ok result w') :
    Extremes showInteger buckets bucketsTable.rows result := by
  obtain ⟨rfl, -⟩ := EStateM.Result.ok.inj hx
  have lowest : keyedRow 1 7 ∈ bucketsTable.rows := by simp [bucketsTable]
  have highest : keyedRow 3 2 ∈ bucketsTable.rows := by simp [bucketsTable]
  exact .between lowest highest (by decide) rfl

/-- The table later on: two rows are gone, and a third one has come. -/
def laterTable : Table integers buckets.pkColumns where
  rows := [keyedRow 3 2, keyedRow 3 5]
  unique := by decide
  not_null := by decide

/-- They are read from 1 to 3 and from 3 to 4, in one style and the other, of a table as it is
then. -/
theorem buckets_swept {table : Table integers buckets.pkColumns} {page : List (List (WithBot ℤ))}
    (hpage : page = ReadTable.page integers buckets (some 3) (some 4) 0 table.rows) :
    Swept integers buckets 1 (3 + 1) ([] ++ [⟨1, 3, bucketsTable⟩] ++ [⟨3, 4, table⟩])
      ([] ++ [[1, 7]] ++ page) := by
  have hkeys : StoredKeys buckets := by unfold StoredKeys; decide
  have accepts : ∀ a b : ℤ, a < b → Accepts buckets (some a) (some b) 0 := fun a b hab =>
    ⟨by decide, by decide, le_rfl, by simpa using hab, by decide, by decide, by decide, by decide⟩
  have built : ∀ pagination (a b : ℤ), a < b →
      buildReadTableQuery pagination buckets (some a) (some b) 0 = .ok _ :=
    fun _ a b hab => buildReadTableQuery_ok.mpr ⟨accepts a b hab, rfl, rfl⟩
  have first := built .top 1 3 (by norm_num)
  have second := built .fetch 3 4 (by norm_num)
  exact .reads (.reads (.begins 1) first ((means_iff hkeys first).mpr (by decide))) second
    ((means_iff hkeys second).mpr hpage)

theorem integers_strictMono : StrictMono integers.ofInt := fun _ _ h => WithBot.coe_lt_coe.mpr h

/-- The table changes between the reads. -/
theorem sweep_reads_one_table_buckets : ∃ whole : Table integers buckets.pkColumns,
    (∀ {pagination query params}, buildReadTableQuery pagination buckets (some 1) (some (3 + 1)) 0 =
        .ok (query, params) →
      ∀ result', Means integers query params whole.rows result' ↔
        result' = [] ++ [[1, 7]] ++ [[3, 2], [3, 5]]) ∧
    (∀ row, InRange integers buckets 1 (3 + 1) row →
      ∃ read ∈ ([] ++ [⟨1, 3, bucketsTable⟩] ++ [⟨3, 4, laterTable⟩] : List (RangeRead integers buckets)),
        InRange integers buckets read.startPk read.endPk row ∧
          (row ∈ whole.rows ↔ row ∈ read.table.rows)) ∧
    ∀ row ∈ whole.rows, InRange integers buckets 1 (3 + 1) row :=
  sweep_reads_one_table integers_strictMono (by unfold StoredKeys; decide) (buckets_swept (by decide))

theorem planned_sweep_covers_buckets : Means integers
    "SELECT [bucket], [id] FROM [dbo].[buckets] ORDER BY [bucket], [id]" [] bucketsTable.rows
    (([] ++ [[1, 7]]) ++ [[3, 1], [3, 2]]) := by
  have hcells : ∀ v k, intInstance (showInteger v) = some k → v = integers.ofInt k := by
    rintro (_ | v) k h
    · cases h
    · exact congrArg _ (Option.some.inj h)
  have hnull : ∀ v, showInteger v = .null → v = integers.null := by
    rintro (_ | v) h
    · rfl
    · cases h
  have hread : bucketsServer.readPkRange buckets () = .ok (some (1, 3)) () := rfl
  have built : buildReadTableQuery .top buckets none none 0 =
      .ok ("SELECT [bucket], [id] FROM [dbo].[buckets] ORDER BY [bucket], [id]", []) := by decide
  have swept : Swept integers buckets 1 (3 + 1) ([] ++ [⟨1, 3, bucketsTable⟩] ++ [⟨3, 4, bucketsTable⟩])
      ([] ++ [[1, 7]] ++ [[3, 1], [3, 2]]) := buckets_swept (by decide)
  exact planned_sweep_covers integers_strictMono (by unfold StoredKeys; decide) hcells hnull
    (fun _ hx => bucketsServer_answers hx) hread swept (by simp) built

end PyDBLog.Mssql.Ranges
