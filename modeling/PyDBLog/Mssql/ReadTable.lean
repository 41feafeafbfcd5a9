import PyDBLog.Mssql.Connector
import PyDBLog.Sql.Meaning

/-! # A page of the table, in either style

`_build_read_table_query` writes one statement over the table (`buildReadTableQuery_ok`), with TOP
or with FETCH. Its parameters stand in the clauses they are for, and both styles read the page that
`page` says, of every table with its primary key (`both_styles_read_the_page`), unless a key column
is computed: the select list then shows NULL under the name the order is by. `validate()` refuses
such a spec (`stored_keys`). -/

namespace PyDBLog.Mssql.ReadTable

open PyDBLog.Model.Python PyDBLog.Model.Frame PyDBLog.Model.Types
open PyDBLog.Mssql.Connector PyDBLog.Mssql.Connector.MSSQLConnector
open PyDBLog.Sql.Statement PyDBLog.Sql.Text

/-! ### Identifiers -/

theorem validateIdentifier_ok {name kind valid : String} :
    validateIdentifier name kind = .ok valid ↔ isIdentifier name = true ∧ valid = name := by
  rw [validateIdentifier, except_guard_ok, not_not, Except.ok.injEq, eq_comm (a := name)]

/-- A capture instance is accepted where it is a string that is an identifier. -/
theorem validateInstance_ok {captureInstance : Cell} {name : String} :
    validateInstance captureInstance = .ok name ↔ captureInstance = .str name ∧ isIdentifier name = true := by
  simp only [validateInstance, except_bind_ok, validateIdentifier_ok]
  constructor
  · rintro ⟨s, hs, hname, rfl⟩
    refine ⟨?_, hname⟩
    cases captureInstance <;> cases hs
    rfl
  · rintro ⟨rfl, hname⟩
    exact ⟨name, rfl, hname, rfl⟩

theorem quoteIdentifier_ok {name kind quoted : String} :
    quoteIdentifier name kind = .ok quoted ↔ isIdentifier name = true ∧ quoted = bracketed name := by
  simp only [quoteIdentifier, except_bind_ok, validateIdentifier_ok]
  constructor
  · rintro ⟨_, ⟨hname, rfl⟩, hquoted⟩
    exact ⟨hname, (Except.ok.inj hquoted).symm⟩
  · rintro ⟨hname, rfl⟩
    exact ⟨name, ⟨hname, rfl⟩, rfl⟩

theorem plain_of_isIdentifier {name : String} (h : isIdentifier name = true) : Plain name := by
  simp only [isIdentifier, Bool.and_eq_true, List.all_eq_true, Bool.or_eq_true, decide_eq_true_eq] at h
  exact h.2

/-- A traversal of names returns when each of them is an identifier. -/
theorem mapM_quoteIdentifier {names quoted : List String} {kind : String} :
    (names.mapM fun name => quoteIdentifier name kind) = .ok quoted ↔
      (∀ name ∈ names, isIdentifier name = true) ∧ quoted = names.map bracketed :=
  mapM_ok_map fun _ _ => quoteIdentifier_ok

/-- The columns a select list shows. -/
def itemOf (column : ColumnSpec) : Item := ⟨column.name, column.isComputed⟩

theorem project_ok {column : ColumnSpec} {projected : String} : project column = .ok projected ↔
    isIdentifier column.name = true ∧ projected = itemText (itemOf column) := by
  have htext : (if column.isComputed then s!"NULL AS {bracketed column.name}" else bracketed column.name) =
      itemText (itemOf column) := by
    unfold itemText itemOf
    cases column.isComputed
    · simp
    · rfl
  simp only [project, except_bind_ok, quoteIdentifier_ok]
  constructor
  · rintro ⟨_, ⟨hname, rfl⟩, hout⟩
    exact ⟨hname, (Except.ok.inj hout).symm.trans htext⟩
  · rintro ⟨hname, rfl⟩
    exact ⟨_, ⟨hname, rfl⟩, congrArg Except.ok htext⟩

/-! ### The statement of a page -/

/-- The statement a page is read with. -/
def statement (pagination : Pagination) (spec : TableSpec) (startPk endPk : Option ℤ) (limit : ℤ) :
    Select where
  top := limit > 0 ∧ pagination = .top
  items := spec.capturedColumns.map itemOf
  schema := spec.sourceSchema
  table := spec.sourceTable
  predicates := (if startPk.isSome then [(spec.pkColumns.headD "", .ge)] else []) ++
    (if endPk.isSome then [(spec.pkColumns.headD "", .lt)] else [])
  orderBy := spec.pkColumns
  fetch := limit > 0 ∧ pagination = .fetch

/-- The values bound to it. -/
def parameters (pagination : Pagination) (startPk endPk : Option ℤ) (limit : ℤ) : List ℤ :=
  (if limit > 0 ∧ pagination = .top then [limit] else []) ++ startPk.toList ++ endPk.toList ++
    (if limit > 0 ∧ pagination = .fetch then [limit] else [])

/-- The names a page's text holds are identifiers. -/
structure Identifiers (spec : TableSpec) : Prop where
  schema : isIdentifier spec.sourceSchema = true
  table : isIdentifier spec.sourceTable = true
  columns : ∀ column ∈ spec.capturedColumns, isIdentifier column.name = true
  keys : ∀ name ∈ spec.pkColumns, isIdentifier name = true

/-- What the builder accepts. -/
structure Accepts (spec : TableSpec) (startPk endPk : Option ℤ) (limit : ℤ) : Prop where
  keyed : spec.pkColumns ≠ []
  captured : spec.capturedColumns ≠ []
  limit_nonneg : 0 ≤ limit
  ordered : ∀ start ∈ startPk, ∀ stop ∈ endPk, start < stop
  identifiers : Identifiers spec

variable {pagination : Pagination} {spec : TableSpec} {startPk endPk : Option ℤ} {limit : ℤ}
  {query : String} {params : List ℤ}

theorem validateReadSpec_ok {u : Unit} : validateReadSpec spec = .ok u ↔
    spec.pkColumns ≠ [] ∧ spec.capturedColumns ≠ [] := by
  simp [validateReadSpec, except_guard_ok, TableSpec.businessColumns]

/-- The clauses as the builder joins them. -/
def joined (pagination : Pagination) (spec : TableSpec) (startPk endPk : Option ℤ) (limit : ℤ) : String :=
  let columns := spec.capturedColumns.map fun column => itemText (itemOf column)
  let orderBy := spec.pkColumns.map bracketed
  let leading := orderBy.headD ""
  let top : Bool := limit > 0 ∧ pagination = .top
  let fetch : Bool := limit > 0 ∧ pagination = .fetch
  let select := if top then s!"SELECT TOP (?) {commaJoin columns}" else s!"SELECT {commaJoin columns}"
  let predicates := (if startPk.isSome then [s!"{leading} >= ?"] else []) ++
    (if endPk.isSome then [s!"{leading} < ?"] else [])
  String.intercalate " " ([select, s!"FROM {bracketed spec.sourceSchema}.{bracketed spec.sourceTable}"] ++
    (if predicates.isEmpty then [] else ["WHERE " ++ String.intercalate " AND " predicates]) ++
    [s!"ORDER BY {commaJoin orderBy}"] ++
    (if fetch then ["OFFSET 0 ROWS FETCH NEXT ? ROWS ONLY"] else []))

/-- **The builder's text is the statement's.** -/
theorem joined_eq (hkeyed : spec.pkColumns ≠ []) (hcaptured : spec.capturedColumns ≠ []) :
    joined pagination spec startPk endPk limit = (statement pagination spec startPk endPk limit).text := by
  obtain ⟨leading, rest, hpk⟩ := List.exists_cons_of_ne_nil hkeyed
  rw [Select.text_eq (by simpa [statement] using hcaptured) hkeyed]
  have htoString : ∀ s : String, toString s = s := fun _ => rfl
  simp only [joined, statement, hpk, List.map_cons, List.headD_cons, commaJoin, htoString, List.map_map,
    Function.comp_def]
  refine String.toList_inj.mp ?_
  cases startPk <;> cases endPk <;> cases pagination <;> by_cases hlimit : limit > 0 <;>
    simp [hlimit, Select.whereText, predicateText, Comparison.symbol]

/-- The clauses of the builder are the text of the statement. -/
theorem build_ok (hkeyed : spec.pkColumns ≠ []) (hcaptured : spec.capturedColumns ≠ []) :
    buildReadTableQuery.build pagination spec startPk endPk limit = .ok (query, params) ↔
    Identifiers spec ∧ query = (statement pagination spec startPk endPk limit).text ∧
      params = parameters pagination startPk endPk limit := by
  rw [← joined_eq hkeyed hcaptured]
  simp only [buildReadTableQuery.build, except_bind_ok, quoteIdentifier_ok, mapM_quoteIdentifier,
    mapM_ok_map fun _ _ => project_ok]
  constructor
  · rintro ⟨_, ⟨hschema, rfl⟩, _, ⟨htable, rfl⟩, _, ⟨hcolumns, rfl⟩, _, ⟨hkeys, rfl⟩, h⟩
    obtain ⟨rfl, rfl⟩ := Prod.mk.inj (Except.ok.inj h)
    exact ⟨⟨hschema, htable, hcolumns, hkeys⟩, rfl, by simp [parameters]⟩
  · rintro ⟨⟨hschema, htable, hcolumns, hkeys⟩, rfl, rfl⟩
    refine ⟨_, ⟨hschema, rfl⟩, _, ⟨htable, rfl⟩, _, ⟨hcolumns, rfl⟩, _, ⟨hkeys, rfl⟩, ?_⟩
    refine congrArg Except.ok (Prod.ext rfl ?_)
    simp [parameters]

/-- **The builder writes the statement of the page**, for what it accepts. -/
theorem buildReadTableQuery_ok :
    buildReadTableQuery pagination spec startPk endPk limit = .ok (query, params) ↔
      Accepts spec startPk endPk limit ∧ query = (statement pagination spec startPk endPk limit).text ∧
        params = parameters pagination startPk endPk limit := by
  have hbuild : buildReadTableQuery pagination spec startPk endPk limit = .ok (query, params) ↔
      (spec.pkColumns ≠ [] ∧ spec.capturedColumns ≠ []) ∧ 0 ≤ limit ∧
        (∀ start ∈ startPk, ∀ stop ∈ endPk, start < stop) ∧
        buildReadTableQuery.build pagination spec startPk endPk limit = .ok (query, params) := by
    simp only [buildReadTableQuery, except_bind_ok, validateReadSpec_ok, except_guard_ok, not_lt,
      exists_const]
    refine and_congr_right fun _ => and_congr_right fun _ => ?_
    cases hs : startPk with
    | none => exact ⟨fun h => ⟨by simp, h⟩, And.right⟩
    | some start =>
      cases he : endPk with
      | none => exact ⟨fun h => ⟨by simp, h⟩, And.right⟩
      | some stop => simp [except_guard_ok]
  rw [hbuild]
  constructor
  · rintro ⟨⟨hkeyed, hcaptured⟩, hlimit, hordered, h⟩
    obtain ⟨hnames, htext, hparams⟩ := (build_ok hkeyed hcaptured).mp h
    exact ⟨⟨hkeyed, hcaptured, hlimit, hordered, hnames⟩, htext, hparams⟩
  · rintro ⟨⟨hkeyed, hcaptured, hlimit, hordered, hnames⟩, htext, hparams⟩
    exact ⟨⟨hkeyed, hcaptured⟩, hlimit, hordered, (build_ok hkeyed hcaptured).mpr ⟨hnames, htext, hparams⟩⟩

/-! ### Where the parameters stand -/

/-- The comparisons are of the leading key. -/
theorem leading_predicates {p : String × Comparison}
    (h : p ∈ (statement pagination spec startPk endPk limit).predicates) :
    p.1 = spec.pkColumns.headD "" := by
  rcases List.mem_append.mp h with hge | hlt
  · split at hge
    · obtain rfl := List.mem_singleton.mp hge
      rfl
    · cases hge
  · split at hlt
    · obtain rfl := List.mem_singleton.mp hlt
      rfl
    · cases hlt

theorem Identifiers.leading (h : Identifiers spec) (hkeyed : spec.pkColumns ≠ []) :
    isIdentifier (spec.pkColumns.headD "") = true := by
  obtain ⟨leading, rest, hpk⟩ := List.exists_cons_of_ne_nil hkeyed
  rw [hpk, List.headD_cons]
  exact h.keys leading (by rw [hpk]; exact List.mem_cons_self)

theorem statement_plain (h : Identifiers spec) (hkeyed : spec.pkColumns ≠ []) :
    (statement pagination spec startPk endPk limit).PlainNames where
  items item hitem := by
    obtain ⟨column, hcolumn, rfl⟩ := List.mem_map.mp hitem
    exact plain_of_isIdentifier (h.columns column hcolumn)
  schema := plain_of_isIdentifier h.schema
  table := plain_of_isIdentifier h.table
  predicates p hp := by
    rw [leading_predicates hp]
    exact plain_of_isIdentifier (h.leading hkeyed)
  orderBy name hname := plain_of_isIdentifier (h.keys name hname)

/-- What a parameter in a clause is: the limit in TOP and FETCH, a bound in its comparison. -/
def IsFor (startPk endPk : Option ℤ) (limit : ℤ) : Clause → ℤ → Prop
  | .top, p => p = limit
  | .fetch, p => p = limit
  | .compare .ge, p => startPk = some p
  | .compare .lt, p => endPk = some p
  | _, _ => False

/-- Each parameter is for the clause its question mark stands in. -/
theorem marks_isFor (h : Identifiers spec) (hkeyed : spec.pkColumns ≠ []) :
    List.Forall₂ (IsFor startPk endPk limit) (statement pagination spec startPk endPk limit).marks
      (parameters pagination startPk endPk limit) := by
  rw [Select.marks_eq (statement_plain h hkeyed)]
  cases startPk <;> cases endPk <;> cases pagination <;> by_cases hlimit : limit > 0 <;>
    simp [statement, parameters, hlimit, IsFor]

/-! ### What the page holds -/

section page

open PyDBLog.Sql.Meaning

variable {V : Type} [LinearOrder V]

/-- **A page**: the rows of the key range, by the primary key, cut to the limit, and of each the
captured columns, a computed one as NULL. -/
def page (D : Domain V) (spec : TableSpec) (startPk endPk : Option ℤ) (limit : ℤ) (rows : List (Row V)) :
    List (List V) :=
  let leading := spec.pkColumns.headD ""
  let range := rows.filter fun row =>
    (∀ start ∈ startPk, D.ofInt start ≤ row leading) ∧ ∀ stop ∈ endPk, row leading < D.ofInt stop
  let sorted := range.insertionSort fun row row' => spec.pkColumns.map row ≤ spec.pkColumns.map row'
  let cut := if limit = 0 then sorted else sorted.take limit.toNat
  cut.map fun row => spec.capturedColumns.map fun column =>
    if column.isComputed then D.null else row column.name

/-- The parameters in the order of the text, each taken up by its clause. -/
theorem bound_statement : bound (statement pagination spec startPk endPk limit)
    (parameters pagination startPk endPk limit) =
      some ⟨if limit > 0 ∧ pagination = .top then some limit else none, startPk.toList ++ endPk.toList,
        if limit > 0 ∧ pagination = .fetch then some limit else none⟩ := by
  cases startPk <;> cases endPk <;> cases pagination <;> by_cases hlimit : limit > 0 <;>
    simp [bound, statement, parameters, takeIf, hlimit]

variable {D : Domain V} {rows : List (Row V)} {result : List (List V)}

/-- The comparisons of the statement hold on the rows of the range, where the leading key is not
NULL. -/
theorem meets_statement {row : Row V} (hrow : row (spec.pkColumns.headD "") ≠ D.null) :
    (∀ p ∈ (statement pagination spec startPk endPk limit).predicates.zip (startPk.toList ++ endPk.toList),
      Meets D p row) ↔ (∀ start ∈ startPk, D.ofInt start ≤ row (spec.pkColumns.headD "")) ∧
        ∀ stop ∈ endPk, row (spec.pkColumns.headD "") < D.ofInt stop := by
  simp only [statement]
  generalize spec.pkColumns.headD "" = leading at hrow ⊢
  have hge : ∀ start, Meets D ((leading, .ge), start) row ↔ D.ofInt start ≤ row leading :=
    fun start => and_iff_right hrow
  have hlt : ∀ stop, Meets D ((leading, .lt), stop) row ↔ row leading < D.ofInt stop :=
    fun stop => and_iff_right hrow
  cases startPk <;> cases endPk <;> simp [hge, hlt]

/-- One cap, wherever it stands in the statement. -/
theorem capped_statement {α : Type} (hlimit : 0 ≤ limit) (rows : List α) :
    capped (if limit > 0 ∧ pagination = .fetch then some limit else none)
      (capped (if limit > 0 ∧ pagination = .top then some limit else none) rows) =
        if limit = 0 then rows else rows.take limit.toNat := by
  rcases hlimit.eq_or_lt with rfl | hpos
  · simp [capped]
  · cases pagination <;> simp [capped, hpos, hpos.ne']

omit [LinearOrder V] in
/-- A key column the statement shows is shown as it is. -/
theorem keys_shown (hcomputed : ∀ column ∈ spec.capturedColumns, column.isComputed = true →
      column.name ∉ spec.pkColumns) (row : Row V) :
    sortKey D (statement pagination spec startPk endPk limit) row = spec.pkColumns.map row := by
  refine sortKey_eq (fun name hname hitem => ?_) row
  obtain ⟨column, hcolumn, heq⟩ := List.mem_map.mp hitem
  obtain ⟨hcolname, hnull⟩ := Item.mk.inj heq
  exact hcomputed column hcolumn hnull (hcolname ▸ hname)

/-- **The statement reads the page**, of every table with the primary key. -/
theorem reads_statement (h : Accepts spec startPk endPk limit)
    (hcomputed : ∀ column ∈ spec.capturedColumns, column.isComputed = true → column.name ∉ spec.pkColumns)
    (table : Table D spec.pkColumns) :
    Reads D (statement pagination spec startPk endPk limit) (parameters pagination startPk endPk limit)
      table.rows result ↔ result = page D spec startPk endPk limit table.rows := by
  obtain ⟨leading, rest, hpk⟩ := List.exists_cons_of_ne_nil h.keyed
  have hleading : ∀ row ∈ table.rows, row (spec.pkColumns.headD "") ≠ D.null := by
    intro row hrow
    exact table.not_null row hrow _ (by rw [hpk]; exact List.mem_cons_self)
  set range := table.rows.filter fun row =>
    (∀ start ∈ startPk, D.ofInt start ≤ row (spec.pkColumns.headD "")) ∧
      ∀ stop ∈ endPk, row (spec.pkColumns.headD "") < D.ofInt stop
  have hfilter : (table.rows.filter fun row => ∀ p ∈ (statement pagination spec startPk endPk
      limit).predicates.zip (startPk.toList ++ endPk.toList), Meets D p row) = range :=
    List.filter_congr fun row hrow => decide_eq_decide.mpr (meets_statement (hleading row hrow))
  have hunique : range.Pairwise fun row row' => spec.pkColumns.map row ≠ spec.pkColumns.map row' :=
    table.unique.sublist List.filter_sublist
  have hitems : ∀ row : Row V, (statement pagination spec startPk endPk limit).items.map (shown D · row) =
      spec.capturedColumns.map fun column => if column.isComputed then D.null else row column.name :=
    fun row => List.map_map
  have hsorted := List.pairwise_insertionSort
    (fun row row' : Row V => spec.pkColumns.map row ≤ spec.pkColumns.map row') range
  simp only [Reads, bound_statement, Option.some.injEq, exists_eq_left', hfilter, keys_shown hcomputed,
    capped_statement h.limit_nonneg, hitems]
  constructor
  · rintro ⟨sorted, hperm, hpairwise, rfl⟩
    rw [sorted_unique hunique hperm (List.perm_insertionSort _ _) hpairwise hsorted]
    rfl
  · rintro rfl
    exact ⟨_, List.perm_insertionSort _ _, hsorted, rfl⟩

/-- **Either style binds its parameters where they belong and reads the page.** No key column is
computed. -/
theorem both_styles_read_the_page
    (hcomputed : ∀ column ∈ spec.capturedColumns, column.isComputed = true → column.name ∉ spec.pkColumns)
    (h : buildReadTableQuery pagination spec startPk endPk limit = .ok (query, params)) :
    query.toList.count '?' = params.length ∧
      (∃ q : Select, q.PlainNames ∧ q.text = query ∧
        List.Forall₂ (IsFor startPk endPk limit) q.marks params) ∧
      ∀ {V : Type} [LinearOrder V] (D : Domain V) (table : Table D spec.pkColumns)
        (result : List (List V)), Means D query params table.rows result ↔
          result = page D spec startPk endPk limit table.rows := by
  obtain ⟨haccepts, rfl, rfl⟩ := buildReadTableQuery_ok.mp h
  have hplain : (statement pagination spec startPk endPk limit).PlainNames :=
    statement_plain haccepts.identifiers haccepts.keyed
  have hmarks : List.Forall₂ (IsFor startPk endPk limit) _ (parameters pagination startPk endPk limit) :=
    marks_isFor haccepts.identifiers haccepts.keyed
  refine ⟨?_, ⟨_, hplain, rfl, hmarks⟩, fun D table result => ?_⟩
  · rw [Select.count_eq, hmarks.length_eq]
  · rw [means_text hplain, reads_statement haccepts hcomputed table]

/-- A validated spec has no computed key column. -/
theorem stored_keys {u : Unit} (h : Schema.validate spec = .ok u) :
    ∀ column ∈ spec.capturedColumns, column.isComputed = true → column.name ∉ spec.pkColumns := by
  intro column hcolumn hcomputed hkey
  simp only [Schema.validate, except_bind_ok, forM_ok] at h
  obtain ⟨_, -, _, hkeys, -⟩ := h
  have hkept := hkeys _ hkey
  simp only [Schema.validateKey, except_guard_ok] at hkept
  exact hkept.2.1 ⟨column, hcolumn, hcomputed, rfl⟩

/-! ### Two tables with a computed column -/

/-- A column derived from a stored one. -/
def derived (name : String) : ColumnSpec := ⟨name, "int", 10, 0, some "([id]%(100))"⟩

def items : TableSpec where
  sourceSchema := "dbo"
  sourceTable := "items"
  pkColumns := ["id"]
  columns := []
  capturedColumns := [⟨"id", "int", 10, 0, none⟩, derived "total"]
  captureInstance := some "dbo_items"

def itemsQuery : String :=
  "SELECT TOP (?) [id], NULL AS [total] FROM [dbo].[items] WHERE [id] >= ? AND [id] < ? ORDER BY [id]"

theorem both_styles_read_the_page_items :
    itemsQuery.toList.count '?' = [5, 0, 9].length ∧
      (∃ q : Select, q.PlainNames ∧ q.text = itemsQuery ∧
        List.Forall₂ (IsFor (some 0) (some 9) 5) q.marks [5, 0, 9]) ∧
      ∀ {V : Type} [LinearOrder V] (D : Domain V) (table : Table D ["id"]) (result : List (List V)),
        Means D itemsQuery [5, 0, 9] table.rows result ↔
          result = page D items (some 0) (some 9) 5 table.rows := by
  have hcomputed : ∀ column ∈ items.capturedColumns, column.isComputed = true →
      column.name ∉ items.pkColumns := by decide
  have h : buildReadTableQuery .top items (some 0) (some 9) 5 = .ok (itemsQuery, [5, 0, 9]) := by decide
  exact both_styles_read_the_page hcomputed h

/-- Rows by a computed key, and what is stored with it. -/
def keyed : TableSpec := { items with pkColumns := ["bucket"], capturedColumns :=
  [derived "bucket", ⟨"id", "int", 10, 0, none⟩] }

/-- Integers, and NULL below them. -/
def integers : Domain (WithBot ℤ) := ⟨⊥, fun n => n⟩

def keyedRow (bucket id : ℤ) : Row (WithBot ℤ) := fun name => if name = "bucket" then bucket else id

def keyedTable : Table integers keyed.pkColumns where
  rows := [keyedRow 2 102, keyedRow 1 301]
  unique := by decide
  not_null := by decide

/-- **Under a computed key neither style is held to the key's order**: a page of one row may be the
row with the second key. -/
theorem computed_key_loses_the_order :
    page integers keyed none none 1 keyedTable.rows = [[⊥, ((301 : ℤ) : WithBot ℤ)]] ∧
      ∀ pagination, ∃ query params, buildReadTableQuery pagination keyed none none 1 = .ok (query, params) ∧
        Means integers query params keyedTable.rows [[⊥, ((102 : ℤ) : WithBot ℤ)]] := by
  refine ⟨by decide, fun pagination => ⟨_, _, buildReadTableQuery_ok.mpr ⟨?_, rfl, rfl⟩, ?_⟩⟩
  · exact ⟨by decide, by decide, by decide, by simp, by decide, by decide, by decide, by decide⟩
  · rw [means_text (statement_plain ⟨by decide, by decide, by decide, by decide⟩ (by decide))]
    refine ⟨_, bound_statement, keyedTable.rows, .of_eq ?_, ?_, ?_⟩
    · simp [statement]
    · cases pagination <;> decide
    · cases pagination <;> decide

end page

end PyDBLog.Mssql.ReadTable
