import PyDBLog.Model.Frame

/-! # What a table and a run are described by

`ColumnSpec` and `TableSpec` as `inspect()` fills them in, the run's state and the batch a call
hands back. Two columns are equal when they have one name and one signature; the formula of a
computed column is not compared. -/

namespace PyDBLog.Model.Types

open PyDBLog.Model.Python PyDBLog.Model.Frame

/-- A log sequence number. -/
abbrev LSN := Bytes

/-- A column as the source database describes it. -/
structure ColumnSpec where
  name : String
  typeName : String
  precision : ℤ
  scale : ℤ
  computedDefinition : Option String

namespace ColumnSpec

/-- What decides the type a column reads back as. -/
def signature (column : ColumnSpec) : String × ℤ × ℤ :=
  (lower column.typeName, column.precision, column.scale)

/-- Whether the source derives this column rather than storing it. -/
def isComputed (column : ColumnSpec) : Bool := column.computedDefinition.isSome

/-- `ColumnSpec.__eq__`: every field but the formula. -/
instance : BEq ColumnSpec where
  beq column other := (column.name, column.signature) == (other.name, other.signature)

theorem beq_iff {column other : ColumnSpec} :
    (column == other) = true ↔ column.name = other.name ∧ column.signature = other.signature := by
  show ((column.name, column.signature) == (other.name, other.signature)) = true ↔ _
  simp

end ColumnSpec

/-- What a table looks like to a read. -/
structure TableSpec where
  sourceSchema : String
  sourceTable : String
  pkColumns : List String
  columns : List ColumnSpec
  capturedColumns : List ColumnSpec
  captureInstance : Option String

namespace TableSpec

def qualifiedName (spec : TableSpec) : String := spec.sourceSchema ++ "." ++ spec.sourceTable

/-- The columns every read projects, in the order the change log records them. -/
def businessColumns (spec : TableSpec) : List String := spec.capturedColumns.map ColumnSpec.name

end TableSpec

/-- Everything a run needs to pick up where the last call left off. -/
structure RunState where
  spec : TableSpec
  lastLsn : LSN
  lastInspect : AwareDatetime
  chunkKey : Option ℤ
  dumpDone : Bool

/-- What one call produced: a frame, and where to carry on from. -/
structure BatchResult where
  frame : Option DataFrame
  state : RunState

/-- Lists of equal columns have the same names. -/
theorem names_of_beq : ∀ {cs ds : List ColumnSpec}, (cs == ds) = true →
    cs.map ColumnSpec.name = ds.map ColumnSpec.name
  | [], [], _ => rfl
  | [], _ :: _, h => by simp at h
  | _ :: _, [], h => by simp at h
  | c :: cs, d :: ds, h => by
    rw [List.cons_beq_cons, Bool.and_eq_true] at h
    rw [List.map_cons, List.map_cons, (ColumnSpec.beq_iff.mp h.1).1, names_of_beq h.2]

end PyDBLog.Model.Types
