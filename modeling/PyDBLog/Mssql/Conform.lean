import PyDBLog.Mssql.Connector
import PyDBLog.Mssql.OneSchema

/-! # Conforming a result set

`conform()` reads a result set by the names of its columns, wherever the driver put them: it returns
exactly where the names are the declared ones, each once, and every column casts (`conform_ok_iff`).
The frame of what it returns holds the rows that the result set shows, in whatever order its columns
are (`Shows`), under the declared names (`conform_rows`). -/

namespace PyDBLog.Mssql.Conform

open PyDBLog.Model.Python PyDBLog.Model.Frame PyDBLog.Model.Types
open PyDBLog.Mssql.Schema PyDBLog.Mssql.Connector PyDBLog.Mssql.OneSchema

variable {lib : Libraries} {table : ArrowTable} {fs : List ArrowField} {context : String}
  {columns : List ArrowColumn}

/-! ### What is accepted -/

/-- The column of a result set a declared field is cast from, and what it becomes. -/
structure CastFrom (lib : Libraries) (table : ArrowTable) (field : ArrowField)
    (column origin : ArrowColumn) :
    Prop where
  mem : origin ∈ table.columns
  name_eq : origin.name = field.1
  named : column.name = field.1
  typed : column.type = field.2
  cast : lib.cast origin.type field.2 origin.cells = some column.cells

/-- A column is found by its name. -/
theorem lookupColumn_ok {origins : List ArrowColumn} (hn : (origins.map ArrowColumn.name).Nodup)
    {name : String} {origin : ArrowColumn} :
    lookupColumn origins name = .ok origin ↔ origin ∈ origins ∧ origin.name = name := by
  unfold lookupColumn
  cases hfind : origins.find? fun column => column.name == name with
  | none =>
    rw [List.find?_eq_none] at hfind
    refine iff_of_false (by simp) ?_
    rintro ⟨hmem, rfl⟩
    exact hfind origin hmem (by simp)
  | some found =>
    have hname : found.name = name := by simpa using List.find?_some hfind
    have hmem := List.mem_of_find?_eq_some hfind
    constructor
    · intro h
      obtain rfl := Except.ok.inj h
      exact ⟨hmem, hname⟩
    · rintro ⟨horigin, rfl⟩
      rw [List.inj_on_of_nodup_map hn hmem horigin hname]

theorem castColumn_ok (hn : (table.columns.map ArrowColumn.name).Nodup) {field : ArrowField}
    {column : ArrowColumn} : castColumn lib table.columns context field = .ok column ↔
      ∃ origin, CastFrom lib table field column origin := by
  simp only [castColumn, except_bind_ok, lookupColumn_ok hn]
  constructor
  · rintro ⟨origin, ⟨hmem, hname⟩, h⟩
    split at h
    · rename_i hcast
      obtain rfl := Except.ok.inj h
      exact ⟨origin, hmem, hname, rfl, rfl, hcast⟩
    · cases h
  · rintro ⟨origin, h⟩
    refine ⟨origin, ⟨h.mem, h.name_eq⟩, ?_⟩
    rw [h.cast]
    obtain ⟨name, type, cells⟩ := column
    rw [show name = field.1 from h.named, show type = field.2 from h.typed]

/-- Nothing missing and nothing unexpected: the declared names, in some order. -/
theorem perm_iff {declared names : List String} (hn : names.Nodup) (hd : declared.Nodup) :
    declared.filter (· ∉ names) = [] ∧ names.filter (· ∉ declared) = [] ↔ declared.Perm names := by
  rw [List.perm_ext_iff_of_nodup hd hn]
  simp only [List.filter_eq_nil_iff, decide_eq_true_eq, not_not]
  exact ⟨fun h name => ⟨h.1 name, h.2 name⟩, fun h =>
    ⟨fun name => (h name).mp, fun name => (h name).mpr⟩⟩

/-- **What conforms**: a result set with the declared names, each of them once and in any order,
whose columns cast to the declared types. -/
theorem conform_ok_iff : conform lib table fs context = .ok columns ↔
    (table.columns.map ArrowColumn.name).Nodup ∧
      (fs.map Prod.fst).Perm (table.columns.map ArrowColumn.name) ∧
        List.Forall₂ (fun field column => ∃ origin, CastFrom lib table field column origin)
          fs columns := by
  simp only [conform, except_guard_ok, not_not]
  constructor
  · rintro ⟨hn, hsame, hd, h⟩
    exact ⟨hn, (perm_iff hn hd).mp hsame, (mapM_ok.mp h).imp fun _ _ => (castColumn_ok hn).mp⟩
  · rintro ⟨hn, hperm, h⟩
    have hd : (fs.map Prod.fst).Nodup := hperm.nodup_iff.mpr hn
    exact ⟨hn, (perm_iff hn hd).mpr hperm, hd, mapM_ok.mpr (h.imp fun _ _ => (castColumn_ok hn).mpr)⟩

/-- Every column under a declared name casts to the type declared for it. -/
def Casts (lib : Libraries) (table : ArrowTable) (fs : List ArrowField) : Prop :=
  ∀ field ∈ fs, ∀ origin ∈ table.columns, origin.name = field.1 →
    ∃ cells, lib.cast origin.type field.2 origin.cells = some cells

/-- A result set with the declared names conforms if its columns cast. -/
theorem conform_returns (hn : (table.columns.map ArrowColumn.name).Nodup)
    (hperm : (fs.map Prod.fst).Perm (table.columns.map ArrowColumn.name)) (hcasts : Casts lib table fs) :
    ∃ columns, conform lib table fs context = .ok columns := by
  have hall : ∀ field ∈ fs, ∃ column origin, CastFrom lib table field column origin := by
    intro field hfield
    obtain ⟨origin, horigin, hname⟩ := List.mem_map.mp (hperm.mem_iff.mp (List.mem_map_of_mem hfield))
    obtain ⟨cells, hcells⟩ := hcasts field hfield origin horigin hname
    exact ⟨⟨field.1, field.2, cells⟩, origin, horigin, hname, rfl, rfl, hcells⟩
  have hcolumns : ∀ {fs : List ArrowField},
      (∀ field ∈ fs, ∃ column origin, CastFrom lib table field column origin) →
      ∃ columns, List.Forall₂ (fun field column => ∃ origin, CastFrom lib table field column origin)
        fs columns := by
    intro fs h
    induction fs with
    | nil => exact ⟨[], .nil⟩
    | cons field fs ih =>
      obtain ⟨column, hcolumn⟩ := h field List.mem_cons_self
      obtain ⟨columns, hrest⟩ := ih fun field hfield => h field (List.mem_cons_of_mem _ hfield)
      exact ⟨column :: columns, .cons hcolumn hrest⟩
  obtain ⟨columns, h⟩ := hcolumns hall
  exact ⟨columns, conform_ok_iff.mpr ⟨hn, hperm, h⟩⟩

/-! ### What the frame holds -/

/-- A result set shows these rows, each column under its name, the columns in any order. -/
structure Shows (table : ArrowTable) (names : List String) (rows : List Row) : Prop where
  numRows_eq : table.numRows = rows.length
  columns_perm : (table.columns.map fun column => (column.name, column.cells)).Perm
    (names.map fun name => (name, rows.map fun row => cellOf names row name))

/-- A result set that shows rows under names. -/
def shown (names : List String) (rows : List Row) : ArrowTable where
  numRows := rows.length
  columns := names.map fun name => ⟨name, .other "cell", rows.map fun row => cellOf names row name⟩
  length_cells column h := by
    obtain ⟨name, -, rfl⟩ := List.mem_map.mp h
    exact List.length_map _

theorem shown_shows (names : List String) (rows : List Row) : Shows (shown names rows) names rows where
  numRows_eq := rfl
  columns_perm := by
    rw [shown, List.map_map]
    exact .refl _

/-- A cast that succeeds keeps what the cells say. -/
def KeepsCells (lib : Libraries) : Prop :=
  ∀ source target cells cells', lib.cast source target cells = some cells' → cells' = cells

variable {names : List String} {rows : List Row}

theorem Shows.names_perm (h : Shows table names rows) :
    (table.columns.map ArrowColumn.name).Perm names := by
  have hfst := h.columns_perm.map Prod.fst
  rw [List.map_map, List.map_map] at hfst
  exact hfst.trans (List.Perm.of_eq (List.map_id names))

/-- The cells of a column it shows. -/
theorem Shows.cells_eq (h : Shows table names rows) {column : ArrowColumn}
    (hc : column ∈ table.columns) :
    column.cells = rows.map fun row => cellOf names row column.name := by
  have hmem : (column.name, column.cells) ∈ names.map fun name =>
      (name, rows.map fun row => cellOf names row name) :=
    h.columns_perm.subset
      (List.mem_map_of_mem (f := fun column : ArrowColumn => (column.name, column.cells)) hc)
  obtain ⟨name, -, heq⟩ := List.mem_map.mp hmem
  obtain ⟨rfl, hcells⟩ := Prod.mk.inj heq
  exact hcells.symm

/-- What is declared, column by column. -/
theorem conform_cells (hlib : KeepsCells lib) (h : Shows table names rows)
    (hconform : conform lib table fs context = .ok columns) :
    columns.map (fun column => (column.name, column.cells)) =
      (fs.map Prod.fst).map fun name => (name, rows.map fun row => cellOf names row name) := by
  obtain ⟨-, -, hall⟩ := conform_ok_iff.mp hconform
  rw [List.map_map, eq_comm, ← List.forall₂_eq_eq_eq, List.forall₂_map_left_iff,
    List.forall₂_map_right_iff]
  refine hall.imp fun field column hfrom => ?_
  obtain ⟨origin, hfrom⟩ := hfrom
  have hcells := hlib _ _ _ _ hfrom.cast
  rw [h.cells_eq hfrom.mem, hfrom.name_eq] at hcells
  exact Prod.ext hfrom.named.symm hcells.symm

/-- **The frame of a conformed result set** has the declared columns and the rows that were
shown. -/
theorem conform_rows (hlib : KeepsCells lib) (h : Shows table names rows)
    (hconform : conform lib table fs context = .ok columns) :
    (frameOf lib table.numRows columns).columns = fs.map Prod.fst ∧
      (frameOf lib table.numRows columns).rows = rows.map fun row =>
        cellsOf names row (fs.map Prod.fst) := by
  have hcells := conform_cells hlib h hconform
  constructor
  · rw [DataFrame.columns, conform_ok hconform, readAs_names]
  · have hrow : ∀ i, columns.map (fun column => column.cells.getD i .null) =
        (fs.map Prod.fst).map fun name => (rows.map fun row => cellOf names row name).getD i .null := by
      intro i
      have := congrArg (List.map fun p : String × List Cell => p.2.getD i .null) hcells
      rwa [List.map_map, List.map_map] at this
    rw [frameOf, h.numRows_eq]
    dsimp only
    simp only [hrow]
    refine List.ext_getElem (by simp) fun i hi hi' => ?_
    have hlt : i < rows.length := by simpa using hi'
    rw [List.getElem_map, List.getElem_map, List.getElem_range, cellsOf]
    refine List.map_congr_left fun name _ => ?_
    rw [List.getD_eq_getElem _ _ (by simpa using hlt), List.getElem_map]

/-- A row with one cell for each of its names, selected by them in their order, is the row. -/
theorem cellsOf_self (hn : names.Nodup) {row : Row} (hl : row.length = names.length) :
    cellsOf names row names = row := by
  refine List.ext_getElem (by rw [cellsOf, List.length_map, hl]) fun i hi hi' => ?_
  have hlt : i < names.length := hl ▸ hi'
  simp only [cellsOf, List.getElem_map, cellOf, hn.idxOf_getElem i hlt]
  exact List.getD_eq_getElem _ _ hi'

/-- Where the names are the declared ones in their order, the frame is what was shown. -/
theorem conform_same (hlib : KeepsCells lib) (h : Shows table names rows)
    (hconform : conform lib table fs context = .ok columns) (hnames : fs.map Prod.fst = names)
    (hlength : ∀ row ∈ rows, row.length = names.length) :
    (frameOf lib table.numRows columns).columns = names ∧
    (frameOf lib table.numRows columns).rows = rows := by
  obtain ⟨hcolumns, hrows⟩ := conform_rows hlib h hconform
  rw [hnames] at hcolumns hrows
  have hn : names.Nodup := h.names_perm.nodup_iff.mp (conform_ok_iff.mp hconform).1
  refine ⟨hcolumns, hrows.trans ?_⟩
  rw [List.map_congr_left fun row hrow => cellsOf_self hn (hlength row hrow)]
  exact List.map_id rows

end PyDBLog.Mssql.Conform
