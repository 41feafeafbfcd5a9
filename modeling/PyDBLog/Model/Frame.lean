import PyDBLog.Model.Python
import Mathlib.Data.List.Dedup
import Mathlib.Data.List.GetD

/-! # Data frames

The part of polars the program uses: a frame is a schema (column names and dtypes, in order) and
rows of cells in the order of the schema. Selecting, stamping, joining and stacking check names and
dtypes and raise where polars does; the rows they keep and their order are those polars
documents. -/

namespace PyDBLog.Model.Frame

open PyDBLog.Model.Python

/-- The unit a time type counts in. -/
inductive TimeUnit
  | us
  | ns
  deriving DecidableEq

/-- A column's dtype. The ones the program names itself are listed, any other is `other`. -/
inductive DType
  | binary
  | int32
  | datetime (unit : TimeUnit)
  | other (name : String)
  deriving DecidableEq

/-- A cell, by the Python type it reads back as. -/
inductive Cell
  | null
  | bool (b : Bool)
  | int (n : ℤ)
  | str (s : String)
  | bytes (b : Bytes)
  | datetime (t : Datetime)
  | other (type value : String)
  deriving DecidableEq

/-- `type(cell).__name__`. -/
def Cell.typeName : Cell → String
  | .null => "NoneType"
  | .bool _ => "bool"
  | .int _ => "int"
  | .str _ => "str"
  | .bytes _ => "bytes"
  | .datetime _ => "datetime"
  | .other type _ => type

/-- `bool(cell)`, where a value of any other type is true. -/
def Cell.truthy : Cell → Bool
  | .null => false
  | .bool b => b
  | .int n => n ≠ 0
  | .str s => s ≠ ""
  | .bytes b => b ≠ []
  | .datetime _ => true
  | .other _ _ => true

/-- A row, one cell for each column of its frame. -/
abbrev Row := List Cell

/-- A data frame. -/
structure DataFrame where
  schema : List (String × DType)
  rows : List Row
  deriving DecidableEq

/-- The cell a row of a frame with these columns holds under a name. -/
def cellOf (columns : List String) (row : Row) (name : String) : Cell :=
  row.getD (columns.idxOf name) .null

/-- The cells a row holds under several names. -/
def cellsOf (columns : List String) (row : Row) (names : List String) : List Cell :=
  names.map (cellOf columns row)

namespace DataFrame

/-- `df.columns` -/
def columns (df : DataFrame) : List String := df.schema.map Prod.fst

/-- `df.height` -/
def height (df : DataFrame) : ℕ := df.rows.length

/-- `df.is_empty()` -/
def isEmpty (df : DataFrame) : Bool := df.rows.isEmpty

/-- The dtype of a column, if the frame has it. -/
def dtypeOf (df : DataFrame) (name : String) : Option DType :=
  (df.schema.find? fun field => field.1 == name).map Prod.snd

/-- The fields of a schema under the given names, in the order of the names. -/
def fieldsOf (df : DataFrame) (names : List String) : List (String × DType) :=
  names.filterMap fun name => (df.dtypeOf name).map fun dtype => (name, dtype)

/-- `df[name]`, the cells of one column. -/
def column (df : DataFrame) (name : String) : Except PyError (List Cell) :=
  if name ∈ df.columns then .ok (df.rows.map fun row => cellOf df.columns row name)
  else .error (.polarsError name)

/-- `df.select(names)` -/
def select (df : DataFrame) (names : List String) : Except PyError DataFrame :=
  if ¬ names.Nodup then .error (.polarsError "duplicate column names")
  else if ¬ ∀ name ∈ names, name ∈ df.columns then .error (.polarsError "column not found")
  else .ok ⟨df.fieldsOf names, df.rows.map fun row => cellsOf df.columns row names⟩

/-- `df.select(lit(..), .., all())`: constant columns ahead of the frame's own. -/
def selectLiteralsAndAll (df : DataFrame) (literals : List (String × DType × Cell)) :
    Except PyError DataFrame :=
  let schema := literals.map (fun l => (l.1, l.2.1)) ++ df.schema
  if ¬ (schema.map Prod.fst).Nodup then .error (.polarsError "duplicate column names")
  else .ok ⟨schema, df.rows.map fun row => literals.map (fun l => l.2.2) ++ row⟩

/-- `df.unique()`: one copy of each row. -/
def unique (df : DataFrame) : DataFrame := ⟨df.schema, df.rows.dedup⟩

/-- Two key tuples match in a join when they are equal and hold no null. -/
def keysMatch (a b : List Cell) : Bool := a = b ∧ .null ∉ a

/-- A row of the left frame has a match in the right one. -/
def hasMatch (left right : DataFrame) (on : List String) (row : Row) : Bool :=
  right.rows.any fun other => keysMatch (cellsOf left.columns row on) (cellsOf right.columns other on)

/-- The columns a join is on are in both frames, under one dtype. -/
def joinable (left right : DataFrame) (on : List String) : Bool :=
  on.Nodup ∧ ∀ name ∈ on, name ∈ left.columns ∧ name ∈ right.columns ∧
    left.dtypeOf name = right.dtypeOf name

/-- `left.join(right, on=on, how="semi")` -/
def semiJoin (left right : DataFrame) (on : List String) : Except PyError DataFrame :=
  if ¬ joinable left right on then .error (.polarsError "join keys")
  else .ok ⟨left.schema, left.rows.filter (hasMatch left right on)⟩

/-- `left.join(right, on=on, how="anti", maintain_order="left")` -/
def antiJoin (left right : DataFrame) (on : List String) : Except PyError DataFrame :=
  if ¬ joinable left right on then .error (.polarsError "join keys")
  else .ok ⟨left.schema, left.rows.filter fun row => !hasMatch left right on row⟩

/-- `concat([top, bottom])` -/
def concat₂ (top bottom : DataFrame) : Except PyError DataFrame :=
  if top.schema ≠ bottom.schema then .error (.polarsError "schema mismatch")
  else .ok ⟨top.schema, top.rows ++ bottom.rows⟩

/-- `concat(frames)` -/
def concat : List DataFrame → Except PyError DataFrame
  | [] => .error (.valueError "cannot concat empty list")
  | [df] => .ok df
  | df :: dfs => concat dfs >>= concat₂ df

/-! ### Reading cells -/

end DataFrame

/-- Selecting by name finds what was put under the name. -/
theorem cellOf_map {names : List String} {name : String} (f : String → Cell) (h : name ∈ names) :
    cellOf names (names.map f) name = f name := by
  have hi : names.idxOf name < names.length := List.idxOf_lt_length_of_mem h
  rw [cellOf, List.getD_eq_getElem _ _ (by simpa using hi), List.getElem_map, List.getElem_idxOf]

theorem cellsOf_cellsOf (columns names : List String) (row : Row) :
    cellsOf names (cellsOf columns row names) names = cellsOf columns row names :=
  List.map_congr_left fun _ h => cellOf_map _ h

/-- Columns put ahead of a row leave its other cells where they are. -/
theorem cellOf_append {front columns : List String} {cells row : Row} {name : String}
    (hl : cells.length = front.length) (h : name ∉ front) :
    cellOf (front ++ columns) (cells ++ row) name = cellOf columns row name := by
  rw [cellOf, cellOf, List.idxOf_append_of_notMem h, ← hl, List.getD_append_right _ _ _ _ (by simp),
    Nat.add_sub_cancel_left]

theorem cellsOf_append {front columns names : List String} {cells row : Row}
    (hl : cells.length = front.length) (h : ∀ name ∈ names, name ∉ front) :
    cellsOf (front ++ columns) (cells ++ row) names = cellsOf columns row names :=
  List.map_congr_left fun name hn => cellOf_append hl (h name hn)

namespace DataFrame

theorem dtypeOf_isSome {df : DataFrame} {name : String} (h : name ∈ df.columns) :
    ∃ dtype, df.dtypeOf name = some dtype := by
  obtain ⟨field, hf, rfl⟩ := List.mem_map.mp h
  have : (df.schema.find? fun g => g.1 == field.1).isSome := by
    rw [List.find?_isSome]
    exact ⟨field, hf, by simp⟩
  obtain ⟨g, hg⟩ := Option.isSome_iff_exists.mp this
  exact ⟨g.2, by rw [dtypeOf, hg]; rfl⟩

theorem map_fst_fieldsOf {df : DataFrame} : ∀ {names : List String},
    (∀ name ∈ names, name ∈ df.columns) → (df.fieldsOf names).map Prod.fst = names
  | [], _ => rfl
  | name :: names, h => by
    obtain ⟨dtype, hd⟩ := dtypeOf_isSome (h name (by simp))
    have ih : (df.fieldsOf names).map Prod.fst = names :=
      map_fst_fieldsOf fun n hn => h n (by simp [hn])
    rw [fieldsOf] at ih ⊢
    rw [List.filterMap_cons_some (by rw [hd]; rfl), List.map_cons, ih]

/-- What a selection that returns holds. -/
theorem select_ok {df sel : DataFrame} {names : List String} (h : df.select names = .ok sel) :
    names.Nodup ∧ sel.columns = names ∧
      sel.rows = df.rows.map fun row => cellsOf df.columns row names := by
  unfold select at h
  rw [except_guard_ok, except_guard_ok] at h
  obtain ⟨hn, hc, h⟩ := h
  rw [not_not] at hn hc
  obtain rfl := Except.ok.inj h
  exact ⟨hn, map_fst_fieldsOf hc, rfl⟩

theorem hasMatch_iff {left right : DataFrame} {on : List String} {row : Row} :
    hasMatch left right on row = true ↔ ∃ other ∈ right.rows,
      keysMatch (cellsOf left.columns row on) (cellsOf right.columns other on) = true := by
  simp [hasMatch]

/-- Joining with the distinct keys of a frame matches what joining with the frame itself does. -/
theorem hasMatch_unique {left right selRight : DataFrame} {keys : List String} {row : Row}
    (hr : right.select keys = .ok selRight) :
    hasMatch left selRight.unique keys row = hasMatch left right keys row := by
  obtain ⟨-, hc, hrows⟩ := select_ok hr
  have hcu : selRight.unique.columns = keys := hc
  have hmem : ∀ other, other ∈ selRight.unique.rows ↔
      ∃ r ∈ right.rows, cellsOf right.columns r keys = other := by
    simp [unique, hrows]
  rw [Bool.eq_iff_iff, hasMatch_iff, hasMatch_iff, hcu]
  simp only [hmem, exists_exists_and_eq_and, cellsOf_cellsOf]

/-- Selecting the keys of the left frame first changes no match either. -/
theorem hasMatch_select {left selLeft right : DataFrame} {keys : List String} {row : Row}
    (hl : left.select keys = .ok selLeft) :
    hasMatch selLeft right keys (cellsOf left.columns row keys) = hasMatch left right keys row := by
  rw [Bool.eq_iff_iff, hasMatch_iff, hasMatch_iff, (select_ok hl).2.1, cellsOf_cellsOf]

end DataFrame

end PyDBLog.Model.Frame
